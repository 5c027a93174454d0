import ClassroomCpu.Assembly.Build
import ClassroomCpu.Proofs.Assembly.StatementProblems

/-!
# Statements without faults

A fault while a program is assembled comes from the form of an addressing mode
that cannot be read.  On a machine whose forms can all be read every line of
every program gives a result or a problem, in both passes.
-/

namespace ClassroomCpu.Assembly

/-! ## Computations without faults -/

/-- The computation does not end in a fault. -/
def FaultFree {α : Type} (outcome : Outcome α) : Prop :=
  ∀ fault, outcome ≠ .error (.fault fault)

namespace FaultFree

variable {α : Type}

@[simp] theorem ok (value : α) : FaultFree (.ok value) :=
  nofun

@[simp] theorem reject (problem : Problem) : FaultFree (Assembly.reject problem : Outcome α) :=
  nofun

theorem of_failsAsStatement {sheet : Datasheet} {modes : List CompiledMode} {outcome : Outcome α}
    (compiled : compiledModes sheet = .ok modes) (fails : FailsAsStatement sheet outcome) :
    FaultFree outcome := by
  intro fault same
  cases fails _ same with
  | fault unreadable => exact absurd (compiled.symm.trans unreadable) (by simp)

end FaultFree

/-! ## Lines -/

section Lines

variable {arch : Architecture} {modes : List CompiledMode}
  (compiled : compiledModes arch.toDatasheet = .ok modes)
include compiled

theorem faultFree_statementEffect (scope : Scope) (statement : String) :
    FaultFree (statementEffect scope arch statement) :=
  .of_failsAsStatement compiled (failsAsStatement_statementEffect scope arch statement)

omit compiled in
theorem faultFree_defineLabel (layout : Layout arch) (label : String) :
    FaultFree (layout.defineLabel label).2 := by
  unfold Layout.defineLabel
  split
  · exact .reject _
  · split
    · exact .reject _
    · exact .ok ()

omit compiled in
theorem faultFree_reserveFrom (layout : Layout arch) (address count : Nat) :
    FaultFree (layout.reserveFrom address count).2 := by
  induction count generalizing layout address with
  | zero => exact .ok ()
  | succ count induction =>
      rw [Layout.reserveFrom_succ]
      split
      · exact .reject _
      · exact induction _ _

theorem faultFree_treatStatement (layout : Layout arch) (statement : String) :
    FaultFree (layout.treatStatement statement).2 := by
  have effect := faultFree_statementEffect compiled ⟨.reserve, layout.labels, layout.cursor⟩
    statement
  have reserved := fun count => faultFree_reserveFrom layout layout.cursor count
  unfold Layout.treatStatement
  split
  · exact .ok ()
  · split
    · exact .ok ()
    · rename_i bytes given
      unfold Layout.reserve
      split
      · exact .ok ()
      · exact reserved _
    · rename_i failure given
      rw [given] at effect
      exact fun fault same => effect fault (by rw [Except.error.inj same])

theorem faultFree_treatLine (line : SourceLine) (layout : Layout arch) :
    FaultFree (layout.treatLine line).2 := by
  unfold Layout.treatLine
  split
  · exact faultFree_treatStatement compiled layout _
  · rename_i label labelled
    have defined := faultFree_defineLabel layout label
    split
    · exact faultFree_treatStatement compiled _ _
    · exact defined

theorem faultFree_imageLine (labels : LabelTable) (number : Nat) (line : SourceLine)
    (image : Image arch) : FaultFree (Image.treatLine labels number line image).2 := by
  have effect := faultFree_statementEffect compiled ⟨.emit, labels, image.cursor⟩ line.statement
  unfold Image.treatLine
  split
  · exact .ok ()
  · split
    · exact .ok ()
    · exact .ok ()
    · rename_i failure given
      rw [given] at effect
      exact fun fault same => effect fault (by rw [Except.error.inj same])

omit compiled in
theorem passLines_fault {State : Type} {treat : Nat → SourceLine → State → State × Outcome Unit}
    (each : ∀ number line state, FaultFree (treat number line state).2) (state : State)
    (number : Nat) (lines : List SourceLine) :
    (passLines treat state number lines).fault = none := by
  induction lines generalizing state number with
  | nil => rfl
  | cons line lines induction =>
      have here := each number line state
      unfold passLines
      split
      · exact induction _ _
      · rename_i treated
        rw [treated] at here
        exact absurd rfl (here _)
      · exact induction _ _

/-- A program for a machine with legible forms is built without a fault. -/
theorem fault_ofSource (source : String) : (Build.ofSource arch source).fault = none := by
  unfold Build.ofSource Build.ofLines
  dsimp only
  split
  · exact passLines_fault (fun _ line layout => faultFree_treatLine compiled line layout) _ _ _
  · exact passLines_fault (faultFree_imageLine compiled _) _ _ _

end Lines

end ClassroomCpu.Assembly
