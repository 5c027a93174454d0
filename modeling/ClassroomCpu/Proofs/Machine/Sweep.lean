import ClassroomCpu.Proofs.Execution.Safety
import Mathlib.Order.Monotone.Basic

/-!
# The texts that a sweep leaves

The instructions of memory are those that one meets on the way from the first
cell on, from each instruction to the next.  A sweep leaves the text of an
instruction in the cell where it starts, and nothing in the cells behind.
-/

namespace ClassroomCpu.Machine

variable {arch : Architecture} {machine : Machine arch}

/-- The address of the instruction with a number, on the way from the first cell on. -/
def startOf (machine : Machine arch) : Nat → Nat
  | 0 => 0
  | number + 1 =>
      machine.startOf number + (machine.instructionText (machine.startOf number)).size

/-- Every cell holds the text of the instruction that starts there, and no text if none does. -/
structure Listed (machine : Machine arch) : Prop where
  starts : ∀ (cell : Fin arch.memorySize) number, machine.startOf number = cell →
    machine.texts.get cell = (machine.instructionText cell).text
  behind : ∀ cell : Fin arch.memorySize, (∀ number, machine.startOf number ≠ cell) →
    machine.texts.get cell = ""

theorem startOf_of_memory {other : Machine arch} (same : other.memory = machine.memory)
    (number : Nat) : other.startOf number = machine.startOf number := by
  induction number with
  | zero => rfl
  | succ number induction =>
      rw [startOf, startOf, induction, instructionText_of_memory same]

theorem startOf_strictMono (machine : Machine arch) : StrictMono machine.startOf := by
  apply strictMono_nat_of_lt_succ
  intro number
  have positive := Architecture.size_instructionText_pos machine (machine.startOf number)
  rw [startOf]
  omega

/-- No instruction starts between an instruction and the next one. -/
theorem startOf_ne_of_between {number address : Nat} (after : machine.startOf number < address)
    (before : address < machine.startOf (number + 1)) (other : Nat) :
    machine.startOf other ≠ address := by
  rintro rfl
  have later := machine.startOf_strictMono.lt_iff_lt.mp after
  have earlier := machine.startOf_strictMono.lt_iff_lt.mp before
  omega

/-- Whether the texts are those of memory depends on nothing else. -/
theorem Listed.congr {other : Machine arch} (listed : machine.Listed)
    (memory : other.memory = machine.memory) (texts : other.texts = machine.texts) :
    other.Listed where
  starts cell number start := by
    rw [startOf_of_memory memory] at start
    rw [texts, instructionText_of_memory memory]
    exact listed.starts cell number start
  behind cell noStart := by
    simp only [startOf_of_memory memory] at noStart
    rw [texts]
    exact listed.behind cell noStart

/-! ## One instruction of the sweep -/

theorem texts_setText (cell other : Fin arch.memorySize) (text : String) :
    (machine.setText cell text).texts.get other =
      if cell = other then text else machine.texts.get other := by
  have texts := congrArg Machine.texts (machine.silent_setText cell text)
  rw [← get_set]
  exact congrArg (·.get other) texts

theorem texts_clearTexts (address count : Nat) (cell : Fin arch.memorySize) :
    (machine.clearTexts address count).texts.get cell =
      if address ≤ cell ∧ cell < address + count then "" else machine.texts.get cell := by
  induction count generalizing machine address with
  | zero =>
      have outside : ¬ (address ≤ cell ∧ cell < address + 0) := by omega
      rw [clearTexts, if_neg outside]
  | succ count induction =>
      rw [clearTexts]
      split
      · rename_i inside
        rw [induction, texts_setText]
        by_cases here : address = cell
        · have same : (⟨address, inside⟩ : Fin arch.memorySize) = cell := Fin.ext here
          have covered : address ≤ cell ∧ cell < address + (count + 1) := by omega
          rw [if_pos same, if_pos covered, ite_self]
        · have apart : (⟨address, inside⟩ : Fin arch.memorySize) ≠ cell :=
            fun same => here (congrArg Fin.val same)
          rw [if_neg apart]
          congr 1
          apply propext
          omega
      · rename_i beyond
        have outside : ¬ (address ≤ cell ∧ cell < address + (count + 1)) := by
          have below := cell.isLt
          omega
        rw [if_neg outside]

theorem memory_setText (cell : Fin arch.memorySize) (text : String) :
    (machine.setText cell text).memory = machine.memory := by
  have memory := congrArg Machine.memory (machine.silent_setText cell text)
  exact memory

theorem memory_clearTexts (address count : Nat) :
    (machine.clearTexts address count).memory = machine.memory := by
  induction count generalizing machine address with
  | zero => rfl
  | succ count induction =>
      rw [clearTexts]
      split
      · rw [induction, memory_setText]
      · rfl

/-! ## The whole sweep -/

/-- The cells in front of an address hold the texts that they should. -/
structure ListedBelow (machine : Machine arch) (address : Nat) : Prop where
  starts : ∀ (cell : Fin arch.memorySize) number, machine.startOf number = cell →
    cell < address → machine.texts.get cell = (machine.instructionText cell).text
  behind : ∀ cell : Fin arch.memorySize, (∀ number, machine.startOf number ≠ cell) →
    cell < address → machine.texts.get cell = ""

theorem ListedBelow.listed {address : Nat} (below : machine.ListedBelow address)
    (atEnd : arch.memorySize ≤ address) : machine.Listed where
  starts cell number start :=
    below.starts cell number start (Nat.lt_of_lt_of_le cell.isLt atEnd)
  behind cell noStart := below.behind cell noStart (Nat.lt_of_lt_of_le cell.isLt atEnd)

/-- The sweep goes from an instruction to the next one. -/
theorem ListedBelow.next {number : Nat} (inside : machine.startOf number < arch.memorySize)
    (below : machine.ListedBelow (machine.startOf number)) :
    let shown := machine.instructionText (machine.startOf number)
    ((machine.setText ⟨machine.startOf number, inside⟩ shown.text).clearTexts
      (machine.startOf number + 1) (shown.size - 1)).ListedBelow
        (machine.startOf (number + 1)) := by
  intro shown
  have size : 0 < shown.size := Architecture.size_instructionText_pos machine _
  have memory : ((machine.setText ⟨machine.startOf number, inside⟩ shown.text).clearTexts
      (machine.startOf number + 1) (shown.size - 1)).memory = machine.memory :=
    (memory_clearTexts _ _).trans (memory_setText _ _)
  have next : machine.startOf (number + 1) = machine.startOf number + shown.size := rfl
  constructor
  · intro cell other start before
    rw [startOf_of_memory memory] at start
    rw [instructionText_of_memory memory, texts_clearTexts, texts_setText]
    have notBehind : ¬ (machine.startOf number + 1 ≤ cell ∧
        cell < machine.startOf number + 1 + (shown.size - 1)) := by
      rintro ⟨after, before⟩
      have apart : machine.startOf number < cell := after
      have ended : cell < machine.startOf (number + 1) := by omega
      exact startOf_ne_of_between apart ended other start
    rw [if_neg notBehind]
    split
    · rename_i here
      rw [← here]
    · rename_i apart
      have earlier : (cell : Nat) ≠ machine.startOf number :=
        fun same => apart (Fin.ext same.symm)
      exact below.starts cell other start (by omega)
  · intro cell noStart before
    simp only [startOf_of_memory memory] at noStart
    rw [texts_clearTexts, texts_setText]
    split
    · rfl
    · rename_i notBehind
      have apart := (noStart number).symm
      rw [if_neg fun same => apart (congrArg Fin.val same).symm]
      exact below.behind cell noStart (by omega)

theorem listed_refreshTextsFrom (number : Nat)
    (below : machine.ListedBelow (machine.startOf number)) :
    (machine.refreshTextsFrom (machine.startOf number)).Listed := by
  generalize here : machine.startOf number = address at below
  fun_induction machine.refreshTextsFrom address generalizing number with
  | case1 machine address inside shown =>
      rename_i induction
      subst here
      have size : 0 < shown.size := Architecture.size_instructionText_pos machine _
      have next : machine.startOf number + max shown.size 1 = machine.startOf (number + 1) := by
        rw [Nat.max_eq_left size]
        rfl
      rw [next] at induction ⊢
      apply induction (number + 1)
      · exact startOf_of_memory ((memory_clearTexts _ _).trans (memory_setText _ _)) _
      · exact below.next inside
  | case2 machine address outside => exact below.listed (Nat.not_lt.mp outside)

/-- After a sweep every text is that of memory, whatever the texts were before. -/
theorem listed_refreshTexts (machine : Machine arch) : machine.refreshTexts.Listed := by
  apply listed_refreshTextsFrom 0
  constructor
  · exact fun _ _ _ before => absurd before (Nat.not_lt_zero _)
  · exact fun _ _ before => absurd before (Nat.not_lt_zero _)

end ClassroomCpu.Machine
