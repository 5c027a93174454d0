import ClassroomCpu.Proofs.Assembly.LayoutAgreement
import ClassroomCpu.Proofs.Assembly.ReportedErrors
import ClassroomCpu.Proofs.Assembly.StatementProblems
import Mathlib.Data.Fintype.Card

/-!
# Overlapping lines

The first pass takes the cells of a line one by one and stops at one that is
taken already, be it by a line in front or by the line itself.  So the cells of
a program are pairwise different if no line fails, and a line that is rejected
for an overlap has one: the cell that is named is the first of the line that was
not free.
-/

namespace ClassroomCpu.Assembly

/-! ## The first cell that is not free -/

/-- The first cell of a row that is taken, or stands in front of itself. -/
def FirstTaken {size : Nat} (taken : Fin size → Prop) (cells : List (Fin size))
    (cell : Fin size) : Prop :=
  ∃ front back, cells = front ++ cell :: back ∧ (taken cell ∨ cell ∈ front) ∧
    front.Nodup ∧ ∀ other ∈ front, ¬ taken other

namespace FirstTaken

variable {size : Nat} {taken : Fin size → Prop} {cells : List (Fin size)} {cell : Fin size}

theorem here (busy : taken cell) : FirstTaken taken (cell :: cells) cell :=
  ⟨[], cells, rfl, .inl busy, .nil, fun _ member => absurd member List.not_mem_nil⟩

/-- A free cell is taken itself once it is passed. -/
theorem there {other : Fin size} (free : ¬ taken other)
    (later : FirstTaken (fun cell => taken cell ∨ cell = other) cells cell) :
    FirstTaken taken (other :: cells) cell := by
  obtain ⟨front, back, rfl, busy, once, freeFront⟩ := later
  refine ⟨other :: front, back, rfl, ?_, List.nodup_cons.mpr ⟨?_, once⟩, ?_⟩
  · rcases busy with (before | rfl) | inFront
    · exact .inl before
    · exact .inr List.mem_cons_self
    · exact .inr (List.mem_cons_of_mem _ inFront)
  · exact fun inFront => freeFront other inFront (.inr rfl)
  · intro cell member
    rcases List.mem_cons.mp member with rfl | inFront
    · exact free
    · exact fun busy => freeFront cell inFront (.inl busy)

theorem congr {other : Fin size → Prop} (same : ∀ cell, taken cell ↔ other cell)
    (first : FirstTaken taken cells cell) : FirstTaken other cells cell := by
  obtain rfl : taken = other := funext fun cell => propext (same cell)
  exact first

/-- There is no such cell in a row of different cells that are free. -/
theorem not_free (first : FirstTaken taken cells cell) :
    ¬ (cells.Nodup ∧ ∀ other ∈ cells, ¬ taken other) := by
  rintro ⟨once, free⟩
  obtain ⟨front, back, rfl, busy | inFront, _, _⟩ := first
  · exact free cell (by simp) busy
  · exact (List.nodup_append.mp once).2.2 cell inFront cell List.mem_cons_self rfl

end FirstTaken

/-! ## One line -/

variable {arch : Architecture}

namespace Layout

theorem nodup_of_reserveFrom {layout after : Layout arch} {address count : Nat}
    (taken : layout.reserveFrom address count = (after, .ok ())) :
    (cellsFrom arch address count).Nodup := by
  induction count generalizing layout address with
  | zero => exact .nil
  | succ count induction =>
      rw [reserveFrom_succ] at taken
      split at taken
      · simp [reject] at taken
      · refine List.nodup_cons.mpr ⟨fun again => ?_, induction taken⟩
        have free := (reserveFrom_ok taken).2.2 _ again
        simp at free

/-- Cells are denied at the first one that is not free. -/
theorem firstTaken_of_reserveFrom {layout after : Layout arch} {address count : Nat}
    {failure : Failure} (denied : layout.reserveFrom address count = (after, .error failure)) :
    ∃ cell : Fin arch.memorySize, failure = .problem (.memoryOverlap cell) ∧
      FirstTaken (fun cell => layout.reserved.get cell = true) (cellsFrom arch address count)
        cell := by
  induction count generalizing layout address with
  | zero => simp at denied
  | succ count induction =>
      rw [reserveFrom_succ] at denied
      split at denied
      · rename_i busy
        obtain rfl := Except.error.inj (congrArg Prod.snd denied)
        exact ⟨_, rfl, .here busy⟩
      · rename_i free
        obtain ⟨cell, named, first⟩ := induction denied
        refine ⟨cell, named, .there free (first.congr fun other => ?_)⟩
        by_cases here : arch.cell address = other
        · simp [here]
        · simp [get_set_of_ne here, Ne.symm here]

theorem reserved_withLabel (layout : Layout arch) (line : SourceLine) :
    (layout.withLabel line).reserved = layout.reserved ∧
      (layout.withLabel line).cursor = layout.cursor := by
  unfold withLabel defineLabel
  repeat' split
  all_goals exact ⟨rfl, rfl⟩

/-- What can become of a line in the first pass, as far as cells are concerned. -/
inductive Placing (line : SourceLine) (layout : Layout arch) : Prop where
  /-- The line needs no cells. -/
  | nothing (treated : (layout.treatLine line).2 = .ok ())
      (cells : lineCells (layout.scope line) arch line = [])
  /-- The line asks for the cells of its bytes. -/
  | asks (count : Nat) (treated : layout.treatLine line = (layout.withLabel line).reserve count)
      (cells : lineCells (layout.scope line) arch line = cellsFrom arch layout.cursor count)
  /-- The line fails before it asks for cells. -/
  | fails (failure : Failure) (treated : (layout.treatLine line).2 = .error failure)
      (elsewhere : ∀ address, failure ≠ .problem (.memoryOverlap address))

/-- A statement asks for the cells of its bytes, or fails for a reason of its own. -/
theorem placing_of_treatStatement {line : SourceLine} {layout : Layout arch}
    (same : layout.treatLine line = (layout.withLabel line).treatStatement line.statement) :
    Placing line layout := by
  have scope : layout.scope line =
      ⟨.reserve, (layout.withLabel line).labels, (layout.withLabel line).cursor⟩ := by
    rw [Layout.scope, (reserved_withLabel layout line).2]
  have fails := failsAsStatement_statementEffect (layout.scope line) arch line.statement
  unfold treatStatement at same
  rw [← scope] at same
  split at same
  · rename_i nothing
    exact .nothing (by rw [same]) (by simp [lineCells, nothing])
  · rename_i something
    split at same
    · rename_i address given
      exact .nothing (by rw [same]) (by simp [lineCells, something, given, Effect.cells])
    · rename_i bytes given
      refine .asks bytes.length same ?_
      rw [lineCells_of_effect (by simpa using something) given]
      rfl
    · rename_i failure given
      refine .fails failure (by rw [same]) ?_
      rintro address rfl
      cases fails _ given with
      | problem isOfStatement => exact absurd isOfStatement (by simp [Problem.isOfStatement])

theorem placing (line : SourceLine) (layout : Layout arch) : Placing line layout := by
  cases labelled : line.label with
  | none =>
      apply placing_of_treatStatement
      simp only [treatLine, withLabel, labelled]
  | some label =>
      rcases defined : layout.defineLabel label with ⟨after, _ | ⟨⟩⟩
      case ok =>
        apply placing_of_treatStatement
        simp only [treatLine, withLabel, labelled, defined]
      case error failure =>
        refine .fails failure (by simp only [treatLine, labelled, defined]) ?_
        rintro address rfl
        unfold defineLabel at defined
        split at defined
        · simp [reject] at defined
        · split at defined <;> simp [reject] at defined

theorem nodup_of_treatLine {line : SourceLine} {layout after : Layout arch}
    (treated : layout.treatLine line = (after, .ok ())) :
    (lineCells (layout.scope line) arch line).Nodup := by
  cases placing line layout with
  | nothing _ cells =>
      rw [cells]
      exact .nil
  | asks count asked cells =>
      rw [asked, reserve] at treated
      split at treated
      · rename_i taken
        rw [(reserved_withLabel layout line).2] at taken
        rw [cells]
        exact nodup_of_reserveFrom taken
      · rename_i failed
        exact absurd treated (failed after)
  | fails failure failed _ => simp [treated] at failed

/-- A line that is rejected for an overlap is rejected at its first cell that is not free. -/
theorem firstTaken_of_treatLine {line : SourceLine} {layout after : Layout arch} {address : Nat}
    (denied : layout.treatLine line = (after, .error (.problem (.memoryOverlap address)))) :
    ∃ cell : Fin arch.memorySize, (cell : Nat) = address ∧
      FirstTaken (fun cell => layout.reserved.get cell = true)
        (lineCells (layout.scope line) arch line) cell := by
  cases placing line layout with
  | nothing treated _ => simp [denied] at treated
  | asks count asked cells =>
      rw [asked, reserve] at denied
      split at denied
      · simp at denied
      · obtain ⟨cell, named, first⟩ := firstTaken_of_reserveFrom denied
        obtain ⟨reserved, cursor⟩ := reserved_withLabel layout line
        simp only [Failure.problem.injEq, Problem.memoryOverlap.injEq] at named
        rw [reserved, cursor, ← cells] at first
        exact ⟨cell, named.symm, first⟩
  | fails failure failed elsewhere =>
      rw [denied] at failed
      exact absurd (Except.error.inj failed).symm (elsewhere address)

end Layout

/-! ## The cells of a program -/

/-- The cells of the lines in front of the line with a number, line by line. -/
def cellsBefore (arch : Architecture) (lines : List SourceLine) (number : Nat) :
    List (Fin arch.memorySize) :=
  (List.range number).flatMap (reservedCells arch lines)

/-- What the first pass has taken in front of a line. -/
structure TakenBefore (arch : Architecture) (lines : List SourceLine) (number : Nat) : Prop where
  /-- No cell was taken twice. -/
  once : (cellsBefore arch lines number).Nodup
  /-- Exactly the cells of the lines in front are taken. -/
  exact : ∀ cell, (layoutBefore arch lines number).reserved.get cell = true ↔
    cell ∈ cellsBefore arch lines number

/-- A line that succeeds takes its cells. -/
theorem TakenBefore.step {lines : List SourceLine} {number : Nat} {line : SourceLine}
    (taken : TakenBefore arch lines number) (here : lines[number]? = some line)
    (treated : (layoutBefore arch lines number).treatLine line =
      (layoutBefore arch lines (number + 1), .ok ())) :
    TakenBefore arch lines (number + 1) := by
  have step := Layout.step_of_treatLine treated
  have cells : lineCells ((layoutBefore arch lines number).scope line) arch line =
      reservedCells arch lines number := by rw [reservedCells, here]
  have further : cellsBefore arch lines (number + 1) =
      cellsBefore arch lines number ++ reservedCells arch lines number := by
    simp [cellsBefore, List.range_succ]
  constructor
  · rw [further, List.nodup_append]
    refine ⟨taken.once, cells ▸ Layout.nodup_of_treatLine treated, ?_⟩
    rintro cell before _ member rfl
    have free := step.free cell (cells ▸ member)
    rw [(taken.exact cell).mpr before] at free
    contradiction
  · intro cell
    rw [step.reserved, cells, taken.exact, further, List.mem_append]

theorem takenBefore {lines : List SourceLine} {number : Nat}
    (clean : (passLines (fun _ line layout => layout.treatLine line) (Layout.start arch) 0
      (lines.take number)).Clean) (inside : number ≤ lines.length) :
    TakenBefore arch lines number := by
  have upTo : ∀ earlier ≤ number, TakenBefore arch lines earlier := by
    intro earlier
    induction earlier with
    | zero => exact fun _ => ⟨.nil, by simp [layoutBefore, Layout.start, cellsBefore]⟩
    | succ earlier induction =>
        intro before
        have here : lines[earlier]? = some lines[earlier] := List.getElem?_eq_getElem (by omega)
        exact (induction (by omega)).step here
          (treat_stateBefore_of_clean_take clean (by omega) here)
  exact upTo number le_rfl

/-! ## Overlaps in the first pass -/

/-- A line is rejected for an overlap at its first cell that is not free in front of it. -/
theorem firstTaken_of_errors {lines : List SourceLine} {earlier later : List SourceError}
    {number address : Nat}
    (reported : (passLines (fun _ line layout => Layout.treatLine line layout)
      (Layout.start arch) 0 lines).errors = earlier ++ ⟨number, .memoryOverlap address⟩ :: later) :
    ∃ cell : Fin arch.memorySize, (cell : Nat) = address ∧
      FirstTaken (fun cell => (layoutBefore arch lines number).reserved.get cell = true)
        (reservedCells arch lines number) cell := by
  obtain ⟨line, after, here, _, _, failed⟩ := treat_of_errors reported
  rw [reservedCells, here]
  exact Layout.firstTaken_of_treatLine failed

namespace Assembler

variable {before : Architecture}

/--
If no line fails in the first pass, the cells of all lines are pairwise different, they are the
cells that are taken, and there are at most as many as memory has.  If the first line that fails is
rejected for an overlap, the cell that is named is the first of its cells that a line in front or
the line itself has taken; and no line at all is rejected for an overlap while its cells are free
and different.
-/
theorem reserve_findsOverlaps (assembler : Assembler before) (arch : Architecture)
    (source : String) :
    let lines := SourceLine.ofSource source
    let pass := (assembler.clear arch).goThrough .reserve lines
    (pass.failed = false →
      (cellsBefore arch lines lines.length).Nodup ∧
        (∀ cell, pass.state.reserved.get cell = true ↔
          cell ∈ cellsBefore arch lines lines.length) ∧
        (cellsBefore arch lines lines.length).length ≤ arch.memorySize) ∧
    (∀ number address later, pass.errors = ⟨number, .memoryOverlap address⟩ :: later →
      ∃ cell : Fin arch.memorySize, (cell : Nat) = address ∧
        FirstTaken (· ∈ cellsBefore arch lines number) (reservedCells arch lines number) cell) ∧
    ∀ number address, ⟨number, .memoryOverlap address⟩ ∈ pass.errors →
      ¬ ((reservedCells arch lines number).Nodup ∧
        ∀ cell ∈ reservedCells arch lines number,
          ¬ (layoutBefore arch lines number).reserved.get cell = true) := by
  intro lines pass
  have layoutPass : pass = _ := goThrough_reserve assembler lines
  rw [layoutPass]
  refine ⟨?_, ?_, ?_⟩
  · intro noFailure
    obtain ⟨noFault, noErrors⟩ := PassResult.failed_eq_false_iff.mp noFailure
    have taken : TakenBefore arch lines lines.length := by
      apply takenBefore _ le_rfl
      rw [List.take_length]
      exact ⟨noErrors, noFault⟩
    refine ⟨taken.once, ?_, ?_⟩
    · intro cell
      rw [← taken.exact, layoutBefore, stateBefore_length]
      rfl
    · have bounded := List.Nodup.length_le_card taken.once
      rwa [Fintype.card_fin] at bounded
  · intro number address later reported
    rw [← List.nil_append (_ :: later)] at reported
    obtain ⟨line, _, here, noErrors, noFault, _⟩ := treat_of_errors reported
    have inside : number ≤ lines.length := (List.getElem?_eq_some_iff.mp here).1.le
    have taken : TakenBefore arch lines number := takenBefore ⟨noErrors, noFault⟩ inside
    obtain ⟨cell, named, first⟩ := firstTaken_of_errors reported
    exact ⟨cell, named, first.congr taken.exact⟩
  · intro number address member
    obtain ⟨earlier, later, reported⟩ := List.append_of_mem member
    obtain ⟨_, _, first⟩ := firstTaken_of_errors reported
    exact first.not_free

/-- A line that meets one in front of it at its second byte. -/
example :
    (((new Catalog.neander).clear Catalog.neander).goThrough .reserve
      (SourceLine.ofSource "org 1\ndb 1\norg 0\ndw 2")).errors = [⟨3, .memoryOverlap 1⟩] := by
  decide +kernel

end Assembler

end ClassroomCpu.Assembly
