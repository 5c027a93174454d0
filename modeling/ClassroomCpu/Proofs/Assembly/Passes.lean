import ClassroomCpu.Assembly.Build
import ClassroomCpu.Proofs.Cells
import Mathlib.Order.Fin.Basic

/-!
# Passes over lines

A pass over the lines of a program can be cut at any line: the part in front
leaves the state with which the part behind starts.  Placing the bytes of one
line takes the cells from the cursor on, and no others.
-/

namespace ClassroomCpu.Assembly

/-! ## Cutting a pass -/

namespace PassResult

/-- No line had a problem, and no fault ended the pass. -/
def Clean {State : Type} (result : PassResult State) : Prop :=
  result.errors = [] ∧ result.fault = none

end PassResult

section Cutting

variable {State : Type} {treat : Nat → SourceLine → State → State × Outcome Unit}

/-- A clean pass over a program is clean on the lines in front, and goes on behind them. -/
theorem passLines_append {state : State} {number : Nat} {lines more : List SourceLine}
    (clean : (passLines treat state number (lines ++ more)).Clean) :
    (passLines treat state number lines).Clean ∧
      passLines treat state number (lines ++ more) =
        passLines treat (passLines treat state number lines).state (number + lines.length)
          more := by
  induction lines generalizing state number with
  | nil => exact ⟨⟨rfl, rfl⟩, rfl⟩
  | cons line lines induction =>
      simp only [List.cons_append, passLines, List.length_cons] at clean ⊢
      split at clean
      · rename_i after treated
        obtain ⟨cleanHere, same⟩ := induction clean
        refine ⟨cleanHere, ?_⟩
        rw [same, Nat.add_right_comm, Nat.add_assoc]
      · exact absurd clean.2 (by simp)
      · exact absurd clean.1 (by simp)

/-- The state in front of the line with a number, in a pass from the first line on. -/
def stateBefore (treat : Nat → SourceLine → State → State × Outcome Unit) (start : State)
    (lines : List SourceLine) (number : Nat) : State :=
  (passLines treat start 0 (lines.take number)).state

@[simp] theorem stateBefore_zero (start : State) (lines : List SourceLine) :
    stateBefore treat start lines 0 = start := rfl

theorem stateBefore_length (start : State) (lines : List SourceLine) :
    stateBefore treat start lines lines.length = (passLines treat start 0 lines).state := by
  rw [stateBefore, List.take_length]

/-- A clean pass over a line that is treated alone. -/
theorem treat_of_clean_singleton {state : State} {number : Nat} {line : SourceLine}
    (clean : (passLines treat state number [line]).Clean) :
    treat number line state = ((passLines treat state number [line]).state, .ok ()) := by
  simp only [passLines] at clean ⊢
  split at clean
  · rename_i after treated
    exact treated
  · exact absurd clean.2 (by simp)
  · exact absurd clean.1 (by simp)

/-- In a clean pass every line succeeds and leaves the state in front of the next line. -/
theorem treat_stateBefore {start : State} {lines : List SourceLine}
    (clean : (passLines treat start 0 lines).Clean) {number : Nat} {line : SourceLine}
    (here : lines[number]? = some line) :
    treat number line (stateBefore treat start lines number) =
      (stateBefore treat start lines (number + 1), .ok ()) := by
  have inside : number < lines.length := (List.getElem?_eq_some_iff.mp here).1
  have upTo : lines.take (number + 1) = lines.take number ++ [line] := by
    rw [List.take_add_one, here]
    rfl
  have whole : lines = lines.take (number + 1) ++ lines.drop (number + 1) :=
    (List.take_append_drop _ _).symm
  rw [whole] at clean
  have cleanUpTo := (passLines_append clean).1
  rw [upTo] at cleanUpTo
  have next := (passLines_append cleanUpTo).2
  have length : (lines.take number).length = number := by
    rw [List.length_take]
    omega
  rw [length, Nat.zero_add] at next
  rw [next] at cleanUpTo
  have treated := treat_of_clean_singleton cleanUpTo
  rw [← next, ← upTo] at treated
  exact treated

/-- In front of the end of a clean part every line succeeds. -/
theorem treat_stateBefore_of_clean_take {start : State} {lines : List SourceLine} {upTo : Nat}
    (clean : (passLines treat start 0 (lines.take upTo)).Clean) {number : Nat}
    (before : number < upTo) {line : SourceLine} (here : lines[number]? = some line) :
    treat number line (stateBefore treat start lines number) =
      (stateBefore treat start lines (number + 1), .ok ()) := by
  have inside : (lines.take upTo)[number]? = some line := by
    rw [List.getElem?_take_of_lt before, here]
  have treated := treat_stateBefore clean inside
  rwa [stateBefore, stateBefore, List.take_take, List.take_take, Nat.min_eq_left (by omega),
    Nat.min_eq_left (by omega)] at treated

/-- What holds at the start and is kept by every line holds in front of every line. -/
theorem stateBefore_induction {start : State} {lines : List SourceLine}
    {motive : Nat → State → Prop} (clean : (passLines treat start 0 lines).Clean)
    (atStart : motive 0 start)
    (kept : ∀ number line state after, lines[number]? = some line → motive number state →
      treat number line state = (after, .ok ()) → motive (number + 1) after) :
    ∀ number ≤ lines.length, motive number (stateBefore treat start lines number) := by
  intro number
  induction number with
  | zero => exact fun _ => atStart
  | succ number induction =>
      intro inside
      have here : lines[number]? = some (lines[number]) := List.getElem?_eq_getElem (by omega)
      exact kept number _ _ _ here (induction (by omega)) (treat_stateBefore clean here)

end Cutting

/-! ## Cells one behind the other -/

/-- The cells that `count` bytes from an address on are put into. -/
def cellsFrom (arch : Architecture) (address : Nat) : Nat → List (Fin arch.memorySize)
  | 0 => []
  | count + 1 => arch.cell address :: cellsFrom arch (address + 1) count

@[simp] theorem length_cellsFrom (arch : Architecture) (address count : Nat) :
    (cellsFrom arch address count).length = count := by
  induction count generalizing address with
  | zero => rfl
  | succ count induction => simp [cellsFrom, induction]

namespace Layout

variable {arch : Architecture}

/--
Cells that are taken without a problem were free, and are taken afterwards;
nothing else changes.
-/
theorem reserveFrom_ok {layout after : Layout arch} {address count : Nat}
    (taken : layout.reserveFrom address count = (after, .ok ())) :
    after = { layout with reserved := after.reserved } ∧
      (∀ cell, after.reserved.get cell = true ↔
        layout.reserved.get cell = true ∨ cell ∈ cellsFrom arch address count) ∧
      ∀ cell ∈ cellsFrom arch address count, layout.reserved.get cell = false := by
  induction count generalizing layout address with
  | zero =>
      simp only [reserveFrom_zero, Prod.mk.injEq, and_true] at taken
      subst taken
      simp [cellsFrom]
  | succ count induction =>
      rw [reserveFrom_succ] at taken
      split at taken
      · simp [reject] at taken
      · rename_i free
        obtain ⟨sameRest, takenAfter, freeBefore⟩ := induction taken
        refine ⟨sameRest, ?_, ?_⟩
        · intro cell
          rw [takenAfter, cellsFrom, List.mem_cons]
          by_cases here : arch.cell address = cell
          · simp [here]
          · simp [get_set_of_ne here, Ne.symm here]
        · intro cell member
          rcases List.mem_cons.mp member with here | later
          · rw [here]
            simpa using free
          · have free := freeBefore cell later
            by_cases here : arch.cell address = cell
            · simp [here] at free
            · simpa [get_set_of_ne here] using free

end Layout

/-! ## Recording cells -/

namespace Image

variable {arch : Architecture}

theorem cursor_putFrom (image : Image arch) (line address : Nat) (bytes : List UInt8) :
    (image.putFrom line address bytes).cursor = image.cursor := by
  induction bytes generalizing image address with
  | nil => rfl
  | cons byte bytes induction => rw [putFrom_cons, induction]

/-- The cells of a line are recorded for it, whatever they were recorded for before. -/
theorem line?_putFrom (image : Image arch) (line address : Nat) (bytes : List UInt8)
    (cell : Fin arch.memorySize) :
    (image.putFrom line address bytes).sourceMap.line? cell =
      if cell ∈ cellsFrom arch address bytes.length then some line
      else image.sourceMap.line? cell := by
  induction bytes generalizing image address with
  | nil => simp [cellsFrom]
  | cons byte bytes induction =>
      rw [putFrom_cons, induction]
      simp only [List.length_cons, cellsFrom, List.mem_cons, SourceMap.line?_insert]
      by_cases later : cell ∈ cellsFrom arch (address + 1) bytes.length
      · simp [later]
      · by_cases here : cell = arch.cell address
        · simp [here]
        · have apart : (arch.cell address : Nat) ≠ cell := by
            intro same
            exact here (Fin.ext same.symm)
          simp [later, here, apart]

end Image

end ClassroomCpu.Assembly
