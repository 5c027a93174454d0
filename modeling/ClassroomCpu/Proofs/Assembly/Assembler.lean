import ClassroomCpu.Assembly.Assembler
import ClassroomCpu.Proofs.Assembly.Passes

/-!
# What an assembler builds

An assembler shares its tables between the passes, and keeps what earlier
builds left in them until it clears them.  What it says about a program and what
it puts into a machine is the build of the program, whatever the tables held.
-/

namespace ClassroomCpu.Assembly

/-! ## Passes over larger states -/

section Embedding

variable {State Larger : Type} {treat : Nat → SourceLine → State → State × Outcome Unit}
  {treatLarger : Nat → SourceLine → Larger → Larger × Outcome Unit}

/-- A pass over states that hold those of another pass goes as the other pass does. -/
theorem passLines_embed (embed : State → Larger)
    (agrees : ∀ number line state, treatLarger number line (embed state) =
      (embed (treat number line state).1, (treat number line state).2))
    (state : State) (number : Nat) (lines : List SourceLine) :
    passLines treatLarger (embed state) number lines =
      ⟨embed (passLines treat state number lines).state,
        (passLines treat state number lines).errors,
        (passLines treat state number lines).fault⟩ := by
  induction lines generalizing state number with
  | nil => rfl
  | cons line lines induction =>
      have larger := agrees number line state
      rcases treated : treat number line state with ⟨after, outcome⟩
      rw [treated] at larger
      cases outcome with
      | ok done => simp only [passLines, larger, treated, induction]
      | error failure =>
          cases failure with
          | problem problem => simp only [passLines, larger, treated, induction]
          | fault fault => simp only [passLines, larger, treated]

end Embedding

theorem PassResult.failed_eq_false_iff {State : Type} {result : PassResult State} :
    result.failed = false ↔ result.fault = none ∧ result.errors = [] := by
  simp [failed]

namespace Assembler

variable {before arch : Architecture}

/-! ## Each pass -/

/-- The first pass of an assembler is that of the build. -/
theorem goThrough_reserve (assembler : Assembler before) (lines : List SourceLine) :
    let pass := passLines (fun _ line layout => Layout.treatLine line layout)
      (Layout.start arch) 0 lines
    (assembler.clear arch).goThrough .reserve lines =
      ⟨(assembler.clear arch).withLayout pass.state, pass.errors, pass.fault⟩ :=
  passLines_embed (assembler.clear arch).withLayout (fun _ _ _ => rfl) (Layout.start arch) 0 lines

/-- The second pass of an assembler is that of the build with the labels of the first pass. -/
theorem goThrough_emit (assembler : Assembler before) (layout : Layout arch)
    (lines : List SourceLine) :
    let pass := passLines (Image.treatLine layout.labels) (Image.start arch) 0 lines
    ((assembler.clear arch).withLayout layout).goThrough .emit lines =
      ⟨((assembler.clear arch).withLayout layout).withImage pass.state, pass.errors,
        pass.fault⟩ :=
  passLines_embed ((assembler.clear arch).withLayout layout).withImage (fun _ _ _ => rfl)
    (Image.start arch) 0 lines

/-! ## The whole build -/

/-- A build ends with the first pass that fails, or puts what both have found into the machine. -/
theorem assemble_cases (assembler : Assembler before) (machine : Machine arch)
    (source : String) :
    let lines := SourceLine.ofSource source
    let first := (assembler.clear arch).goThrough .reserve lines
    let second := first.state.goThrough .emit lines
    let built := assembler.assemble machine source
    (first.failed = true ∧ built = ⟨first.errors, first.fault, first.state, machine⟩) ∨
      (first.failed = false ∧ second.failed = true ∧
        built = ⟨second.errors, second.fault, second.state, machine⟩) ∨
      (first.failed = false ∧ second.failed = false ∧
        built = ⟨[], none, second.state, second.state.commit machine⟩) := by
  intro lines first second built
  cases failsFirst : first.failed with
  | true => exact .inl ⟨rfl, if_pos failsFirst⟩
  | false =>
      have further : built = if second.failed then
          ⟨second.errors, second.fault, second.state, machine⟩
          else ⟨[], none, second.state, second.state.commit machine⟩ :=
        if_neg (Bool.eq_false_iff.mp failsFirst)
      cases failsSecond : second.failed with
      | true => exact .inr (.inl ⟨rfl, rfl, further.trans (if_pos failsSecond)⟩)
      | false =>
          exact .inr (.inr ⟨rfl, rfl, further.trans (if_neg (Bool.eq_false_iff.mp failsSecond))⟩)

/-- The tables are those of a build. -/
structure Holds (assembler : Assembler arch) (build : Build arch) : Prop where
  labels : assembler.labels = build.labels
  labelTexts : assembler.labelTexts = build.layout.labelTexts
  reserved : assembler.reserved = build.layout.reserved
  memory : assembler.memory = build.image.memory
  sourceMap : assembler.sourceMap = build.sourceMap

theorem isNone_and_isEmpty_eq {Problem Defect : Type} (fault : Option Defect)
    (errors : List Problem) :
    (fault.isNone && errors.isEmpty) = !(fault.isSome || !errors.isEmpty) := by
  cases fault <;> simp

/-- The build of a program is what an assembler answers, keeps and puts into the machine. -/
theorem assemble_eq_build (assembler : Assembler before) (machine : Machine arch)
    (source : String) :
    let built := assembler.assemble machine source
    built.errors = (Build.ofSource arch source).errors ∧
      built.fault = (Build.ofSource arch source).fault ∧
      built.assembler.Holds (Build.ofSource arch source) ∧
      built.machine = (machine.assemble source).2 := by
  dsimp only
  unfold assemble Machine.assemble Build.ofSource Build.ofLines
  simp only [goThrough_reserve, goThrough_emit, PassResult.failed, Build.succeeded,
    isNone_and_isEmpty_eq]
  split
  · rename_i failed
    refine ⟨rfl, rfl, ⟨rfl, rfl, rfl, rfl, rfl⟩, ?_⟩
    simp only [failed, Bool.not_true, Bool.false_eq_true, if_false]
  · split
    · rename_i failed
      refine ⟨rfl, rfl, ⟨rfl, rfl, rfl, rfl, rfl⟩, ?_⟩
      simp only [failed, Bool.not_true, Bool.false_eq_true, if_false]
    · rename_i clean
      simp only [Bool.not_eq_true, Bool.or_eq_false_iff, Option.isSome_eq_false_iff,
        Option.isNone_iff_eq_none, Bool.not_eq_false', List.isEmpty_iff] at clean
      refine ⟨clean.2.symm, clean.1.symm, ⟨rfl, rfl, rfl, rfl, rfl⟩, ?_⟩
      simp only [clean, Option.isSome_none, List.isEmpty_nil, Bool.not_true, Bool.or_false,
        Bool.not_false, if_true]
      rfl

end Assembler

end ClassroomCpu.Assembly
