import ClassroomCpu.Catalog.Neander
import ClassroomCpu.Proofs.Assembly.Assembler
import Mathlib.Data.List.Basic
import Mathlib.Data.List.Induction

/-!
# Which lines are reported

A pass goes on after a line with a problem, in the state that the line left.
It reports exactly the lines with a problem, each one once and in their order.
A build reports what its first pass with a problem reports, and leaves the
machine alone then.
-/

namespace ClassroomCpu.Assembly

/-! ## The errors of a pass -/

section Pass

variable {State : Type} {treat : Nat → SourceLine → State → State × Outcome Unit}

/-- The problem of the line with a number, in a pass from the first line on. -/
def problem? (treat : Nat → SourceLine → State → State × Outcome Unit) (start : State)
    (lines : List SourceLine) (number : Nat) : Option Problem :=
  match lines[number]? with
  | none => none
  | some line =>
      match (treat number line (stateBefore treat start lines number)).2 with
      | .error (.problem problem) => some problem
      | _ => none

theorem lt_length_of_problem? {start : State} {lines : List SourceLine} {number : Nat}
    {problem : Problem} (found : problem? treat start lines number = some problem) :
    number < lines.length := by
  unfold problem? at found
  split at found
  · contradiction
  · rename_i here
    exact (List.getElem?_eq_some_iff.mp here).1

/-- A pass without a fault goes over the lines in front without one, and on behind them. -/
theorem passLines_append_of_fault {state : State} {number : Nat} {lines more : List SourceLine}
    (noFault : (passLines treat state number (lines ++ more)).fault = none) :
    (passLines treat state number lines).fault = none ∧
      (passLines treat state number (lines ++ more)).errors =
        (passLines treat state number lines).errors ++
          (passLines treat (passLines treat state number lines).state (number + lines.length)
            more).errors := by
  induction lines generalizing state number with
  | nil => exact ⟨rfl, rfl⟩
  | cons line lines induction =>
      have behind : number + (lines.length + 1) = number + 1 + lines.length := by omega
      rw [List.length_cons, behind]
      rcases treated : treat number line state with ⟨after, outcome⟩
      cases outcome with
      | ok done =>
          simp only [List.cons_append, passLines, treated] at noFault ⊢
          exact induction noFault
      | error failure =>
          cases failure with
          | fault fault => simp [passLines, treated] at noFault
          | problem problem =>
              simp only [List.cons_append, passLines, treated] at noFault ⊢
              obtain ⟨noFault, errors⟩ := induction noFault
              exact ⟨noFault, by rw [errors]⟩

theorem problem?_append {start : State} {lines more : List SourceLine} {number : Nat}
    (inside : number < lines.length) :
    problem? treat start (lines ++ more) number = problem? treat start lines number := by
  have upTo : (lines ++ more).take number = lines.take number :=
    List.take_append_of_le_length (by omega)
  rw [problem?, problem?, List.getElem?_append_left inside, stateBefore, stateBefore, upTo]

theorem errors_singleton (start : State) (number : Nat) (line : SourceLine) :
    (passLines treat start number [line]).errors =
      match (treat number line start).2 with
      | .error (.problem problem) => [⟨number, problem⟩]
      | _ => [] := by
  rcases treated : treat number line start with ⟨after, outcome⟩
  cases outcome with
  | ok done => simp only [passLines, treated]
  | error failure => cases failure <;> simp only [passLines, treated]

/-- A pass reports the lines with a problem, in their order. -/
theorem errors_eq {start : State} {lines : List SourceLine}
    (noFault : (passLines treat start 0 lines).fault = none) :
    (passLines treat start 0 lines).errors =
      (List.range lines.length).filterMap fun number =>
        (problem? treat start lines number).map fun problem => ⟨number, problem⟩ := by
  -- A line is treated in the state that all lines in front leave, so the last one goes first.
  induction lines using List.reverseRecOn with
  | nil => rfl
  | append_singleton lines line induction =>
      obtain ⟨noFault, errors⟩ := passLines_append_of_fault noFault
      have before : (List.range lines.length).filterMap (fun number =>
          (problem? treat start (lines ++ [line]) number).map (SourceError.mk number)) =
          (passLines treat start 0 lines).errors := by
        rw [induction noFault]
        apply List.filterMap_congr
        intro number inside
        rw [problem?_append (List.mem_range.mp inside)]
      have last : problem? treat start (lines ++ [line]) lines.length =
          match (treat lines.length line (passLines treat start 0 lines).state).2 with
          | .error (.problem problem) => some problem
          | _ => none := by
        simp [problem?, stateBefore]
      rw [errors, List.length_append, List.length_singleton, List.range_succ,
        List.filterMap_append, before, List.filterMap_cons, last, errors_singleton,
        Nat.zero_add]
      split <;> rfl

theorem mem_errors_iff {start : State} {lines : List SourceLine}
    (noFault : (passLines treat start 0 lines).fault = none) (error : SourceError) :
    error ∈ (passLines treat start 0 lines).errors ↔
      problem? treat start lines error.line = some error.problem := by
  rw [errors_eq noFault, List.mem_filterMap]
  constructor
  · rintro ⟨number, _, found⟩
    obtain ⟨problem, here, rfl⟩ := Option.map_eq_some_iff.mp found
    exact here
  · intro found
    refine ⟨error.line, List.mem_range.mpr (lt_length_of_problem? found), ?_⟩
    rw [found]
    rfl

/-- The numbers of the reported lines grow. -/
theorem pairwise_errors {start : State} {lines : List SourceLine}
    (noFault : (passLines treat start 0 lines).fault = none) :
    (passLines treat start 0 lines).errors.Pairwise fun error later =>
      error.line < later.line := by
  rw [errors_eq noFault, List.pairwise_filterMap]
  apply List.pairwise_lt_range.imp
  intro number later smaller error found other foundLater
  obtain ⟨_, _, rfl⟩ := Option.map_eq_some_iff.mp found
  obtain ⟨_, _, rfl⟩ := Option.map_eq_some_iff.mp foundLater
  exact smaller

/-- Each error of a pass is that of a line, in the state that the lines in front leave. -/
theorem exists_cut_of_errors {state : State} {start : Nat} {lines : List SourceLine}
    {earlier later : List SourceError} {error : SourceError}
    (reported : (passLines treat state start lines).errors = earlier ++ error :: later) :
    ∃ front line back after, lines = front ++ line :: back ∧
      error.line = start + front.length ∧
      (passLines treat state start front).errors = earlier ∧
      (passLines treat state start front).fault = none ∧
      treat error.line line (passLines treat state start front).state =
        (after, .error (.problem error.problem)) := by
  induction lines generalizing state start earlier with
  | nil => simp [passLines] at reported
  | cons line lines induction =>
      rcases treated : treat start line state with ⟨after, _ | ⟨⟩⟩
      case ok =>
        simp only [passLines, treated] at reported
        obtain ⟨front, found, back, last, rfl, number, errors, fault, failed⟩ := induction reported
        refine ⟨line :: front, found, back, last, rfl, ?_, ?_⟩
        · rw [number, List.length_cons]
          omega
        · simp only [passLines, treated]
          exact ⟨errors, fault, failed⟩
      case error failure =>
        cases failure with
        | fault fault => simp [passLines, treated] at reported
        | problem problem =>
            simp only [passLines, treated] at reported
            cases earlier with
            | nil =>
                obtain ⟨rfl, _⟩ := List.cons.inj reported
                exact ⟨[], line, lines, after, rfl, rfl, rfl, rfl, treated⟩
            | cons first earlier =>
                rw [List.cons_append] at reported
                obtain ⟨rfl, others⟩ := List.cons.inj reported
                obtain ⟨front, found, back, last, rfl, number, errors, fault, failed⟩ :=
                  induction others
                refine ⟨line :: front, found, back, last, rfl, ?_, ?_⟩
                · rw [number, List.length_cons]
                  omega
                · simp only [passLines, treated]
                  exact ⟨by rw [errors], fault, failed⟩

/-- The line of an error fails in the state in front of it. -/
theorem treat_of_errors {start : State} {lines : List SourceLine}
    {earlier later : List SourceError} {error : SourceError}
    (reported : (passLines treat start 0 lines).errors = earlier ++ error :: later) :
    ∃ line after, lines[error.line]? = some line ∧
      (passLines treat start 0 (lines.take error.line)).errors = earlier ∧
      (passLines treat start 0 (lines.take error.line)).fault = none ∧
      treat error.line line (stateBefore treat start lines error.line) =
        (after, .error (.problem error.problem)) := by
  obtain ⟨front, line, back, after, rfl, number, errors, fault, failed⟩ :=
    exists_cut_of_errors reported
  have length : error.line = front.length := by rw [number, Nat.zero_add]
  have upTo : (front ++ line :: back).take error.line = front := by
    rw [length, List.take_left]
  have here : (front ++ line :: back)[error.line]? = some line := by
    rw [length]
    simp
  rw [stateBefore, upTo]
  exact ⟨line, after, here, errors, fault, failed⟩

end Pass

/-! ## The errors of a build -/

namespace Assembler

variable {before arch : Architecture}

/-- The problem of the line with a number, in a pass of an assembler. -/
def problem? (assembler : Assembler arch) (pass : Pass) (lines : List SourceLine)
    (number : Nat) : Option Problem :=
  Assembly.problem? (treatLine pass) { assembler with cursor := arch.cell 0 } lines number

/-- What a pass says when it ends without a fault. -/
structure Reports (assembler : Assembler arch) (pass : Pass) (lines : List SourceLine)
    (errors : List SourceError) : Prop where
  /-- Exactly the lines with a problem are reported. -/
  exact : ∀ error, error ∈ errors ↔ assembler.problem? pass lines error.line = some error.problem
  /-- The numbers of the lines grow. -/
  ascending : errors.Pairwise fun error later => error.line < later.line
  /-- They are numbers of lines of the program. -/
  inside : ∀ error ∈ errors, error.line < lines.length

theorem reports_goThrough {assembler : Assembler arch} {pass : Pass} {lines : List SourceLine}
    (noFault : (assembler.goThrough pass lines).fault = none) :
    assembler.Reports pass lines (assembler.goThrough pass lines).errors where
  exact := mem_errors_iff noFault
  ascending := pairwise_errors noFault
  inside error member := lt_length_of_problem? ((mem_errors_iff noFault error).mp member)

/-- A pass without a fault fails exactly if a line has a problem. -/
theorem failed_iff_problem? {assembler : Assembler arch} {pass : Pass} {lines : List SourceLine}
    (noFault : (assembler.goThrough pass lines).fault = none) :
    (assembler.goThrough pass lines).failed = true ↔
      ∃ number, (assembler.problem? pass lines number).isSome = true := by
  have reports := reports_goThrough noFault
  rw [PassResult.failed, noFault, Option.isSome_none, Bool.false_or, Bool.not_eq_true',
    List.isEmpty_eq_false_iff_exists_mem]
  constructor
  · rintro ⟨error, member⟩
    exact ⟨error.line, Option.isSome_iff_exists.mpr ⟨_, (reports.exact error).mp member⟩⟩
  · rintro ⟨number, some⟩
    obtain ⟨problem, found⟩ := Option.isSome_iff_exists.mp some
    exact ⟨⟨number, problem⟩, (reports.exact ⟨number, problem⟩).mpr found⟩

/--
A build with problems leaves the machine, its listeners and its events alone,
and reports exactly the lines with a problem in its first pass with any: those
of the second pass only if no line has one in the first pass.
-/
theorem assemble_allOrNothing {assembler : Assembler before} {machine : Machine arch}
    {source : String} (returns : (assembler.assemble machine source).fault = none)
    (fails : (assembler.assemble machine source).errors ≠ []) :
    let lines := SourceLine.ofSource source
    let built := assembler.assemble machine source
    let cleared := assembler.clear arch
    let reserved := (cleared.goThrough .reserve lines).state
    built.machine = machine ∧
      lines.length = (Text.lines source).length ∧
      ((∃ number, (cleared.problem? .reserve lines number).isSome = true) →
        cleared.Reports .reserve lines built.errors) ∧
      ((∀ number, cleared.problem? .reserve lines number = none) →
        reserved.Reports .emit lines built.errors) := by
  intro lines built cleared reserved
  have sameLength : lines.length = (Text.lines source).length := List.length_map _
  change built.fault = none at returns
  change built.errors ≠ [] at fails
  rcases assemble_cases assembler machine source with
    ⟨failsFirst, stopped⟩ | ⟨cleanFirst, failsSecond, stopped⟩ | ⟨_, _, ended⟩
  · change built = _ at stopped
    rw [stopped] at returns ⊢
    refine ⟨rfl, sameLength, fun _ => reports_goThrough returns, ?_⟩
    intro clean
    obtain ⟨number, some⟩ := (failed_iff_problem? returns).mp failsFirst
    simp [lines, cleared, clean number] at some
  · change built = _ at stopped
    rw [stopped] at returns ⊢
    have noFault := (PassResult.failed_eq_false_iff.mp cleanFirst).1
    have noProblem : ¬ ∃ number, (cleared.problem? .reserve lines number).isSome = true := by
      rw [← failed_iff_problem? noFault, cleanFirst]
      exact Bool.false_ne_true
    exact ⟨rfl, sameLength, fun problem => absurd problem noProblem,
      fun _ => reports_goThrough returns⟩
  · change built = _ at ended
    rw [ended] at fails
    contradiction

theorem assemble_allOrNothing_invalid_label :
    let built := (new Catalog.neander).assemble (Machine.new Catalog.neander) "1: nop"
    built.fault = none ∧ built.errors ≠ [] ∧ built.machine = Machine.new Catalog.neander := by
  have returns : ((new Catalog.neander).assemble (Machine.new Catalog.neander) "1: nop").fault =
      none := by decide +kernel
  have fails : ((new Catalog.neander).assemble (Machine.new Catalog.neander) "1: nop").errors ≠
      [] := by decide +kernel
  exact ⟨returns, fails, (assemble_allOrNothing returns fails).1⟩

end Assembler

end ClassroomCpu.Assembly
