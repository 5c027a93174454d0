import ClassroomCpu.Machine.Reset
import ClassroomCpu.Proofs.Machine.Frame

/-!
# Refreshed texts

The sweep that refreshes the instruction texts reads memory alone, and leaves no
text that was there before: every cell is the start of an instruction or stands
behind one.
-/

namespace ClassroomCpu

theorem eq_of_get {α : Type} {size : Nat} {cells others : Vector α size}
    (same : ∀ position, cells.get position = others.get position) : cells = others :=
  Vector.ext fun position inside => same ⟨position, inside⟩

theorem set_get {α : Type} {size : Nat} (cells : Vector α size) (position : Fin size) :
    cells.set position (cells.get position) position.isLt = cells := by
  apply eq_of_get
  intro read
  rw [get_set]
  split
  · rename_i same
    rw [same]
  · rfl

namespace Machine

variable {arch : Architecture} {machine other : Machine arch}

/-! ## The text of one instruction -/

theorem peek_of_memory (same : other.memory = machine.memory) (address : Nat) :
    other.peek address = machine.peek address := by
  rw [peek, peek, same]

theorem peekNumber_of_memory (same : other.memory = machine.memory) (order : ByteOrder)
    (width address : Nat) :
    other.peekNumber order width address = machine.peekNumber order width address := by
  rw [peekNumber, peekNumber, peekBytes_congr same]

theorem byteArguments_of_memory (same : other.memory = machine.memory) (opcode : UInt8)
    (cursor : Nat) (parameters : List Parameter) :
    other.byteArguments opcode cursor parameters =
      machine.byteArguments opcode cursor parameters := by
  induction parameters generalizing cursor with
  | nil => rfl
  | cons parameter parameters induction =>
      cases parameter <;>
        simp only [byteArguments, induction, peekNumber_of_memory same]

theorem wordArguments_of_memory (same : other.memory = machine.memory)
    (instruction : Instruction) (opcode second : UInt8) (cursor : Nat)
    (parameters : List Parameter) :
    other.wordArguments instruction opcode second cursor parameters =
      machine.wordArguments instruction opcode second cursor parameters := by
  induction parameters generalizing cursor with
  | nil => rfl
  | cons parameter parameters induction =>
      cases parameter <;>
        simp only [wordArguments, wordOperand, induction, peekNumber_of_memory same]

/-- The text at an address is told by memory. -/
theorem instructionText_of_memory (same : other.memory = machine.memory) (address : Nat) :
    other.instructionText address = machine.instructionText address := by
  simp only [instructionText, peek_of_memory same, byteArguments_of_memory same,
    wordArguments_of_memory same]

/-! ## The sweep -/

/-- The machine without its listeners and without events on their way to them. -/
def silent (machine : Machine arch) : Machine arch :=
  { machine with hub := .empty }

/-- The machine with other texts. -/
def withTexts (machine : Machine arch) (texts : Vector String arch.memorySize) : Machine arch :=
  { machine with texts }

theorem silent_setText (machine : Machine arch) (cell : Fin arch.memorySize) (text : String) :
    (machine.setText cell text).silent =
      machine.silent.withTexts (machine.texts.set cell text cell.isLt) := by
  rw [setText]
  split
  · rename_i already
    rw [← already, set_get]
    rfl
  · rfl

/-- Listeners aside, the machines differ in nothing but the texts from an address on. -/
structure AlikeBelow (address : Nat) (machine other : Machine arch) : Prop where
  rest : ∀ texts, machine.silent.withTexts texts = other.silent.withTexts texts
  texts : ∀ cell : Fin arch.memorySize, cell < address →
    machine.texts.get cell = other.texts.get cell

namespace AlikeBelow

variable {address : Nat}

theorem memory (alike : AlikeBelow address machine other) : machine.memory = other.memory := by
  have rest := congrArg Machine.memory (alike.rest machine.texts)
  exact rest

theorem silent (alike : AlikeBelow address machine other) (atEnd : arch.memorySize ≤ address) :
    machine.silent = other.silent := by
  have texts : machine.texts = other.texts :=
    eq_of_get fun cell => alike.texts cell (Nat.lt_of_lt_of_le cell.isLt atEnd)
  calc
    machine.silent = machine.silent.withTexts machine.texts := rfl
    _ = other.silent.withTexts machine.texts := alike.rest machine.texts
    _ = other.silent.withTexts other.texts := by rw [texts]
    _ = other.silent := rfl

theorem later (alike : AlikeBelow address machine other) (atEnd : arch.memorySize ≤ address)
    (address : Nat) : AlikeBelow address machine other where
  rest := alike.rest
  texts cell _ := alike.texts cell (Nat.lt_of_lt_of_le cell.isLt atEnd)

theorem setText (alike : AlikeBelow address machine other) (inside : address < arch.memorySize)
    (text : String) :
    AlikeBelow (address + 1) (machine.setText ⟨address, inside⟩ text)
      (other.setText ⟨address, inside⟩ text) := by
  have texts : ∀ machine : Machine arch, (machine.setText ⟨address, inside⟩ text).texts =
      machine.texts.set (⟨address, inside⟩ : Fin arch.memorySize) text :=
    fun machine => congrArg Machine.texts (silent_setText machine ⟨address, inside⟩ text)
  constructor
  · intro held
    rw [silent_setText, silent_setText]
    exact alike.rest held
  · intro cell below
    rw [texts, texts, get_set, get_set]
    split
    · rfl
    · rename_i apart
      have before : (cell : Nat) ≠ address := fun same => apart (Fin.ext same.symm)
      exact alike.texts cell (by omega)

theorem clearTexts (alike : AlikeBelow address machine other) (count : Nat) :
    AlikeBelow (address + count) (machine.clearTexts address count)
      (other.clearTexts address count) := by
  induction count generalizing address machine other with
  | zero => exact alike
  | succ count induction =>
      have next : address + (count + 1) = address + 1 + count := by omega
      rw [Machine.clearTexts, Machine.clearTexts, next]
      split
      · rename_i inside
        exact induction (alike.setText inside "")
      · rename_i outside
        exact alike.later (Nat.not_lt.mp outside) _

end AlikeBelow

theorem silent_refreshTextsFrom {address : Nat} (alike : AlikeBelow address machine other) :
    (machine.refreshTextsFrom address).silent = (other.refreshTextsFrom address).silent := by
  fun_induction machine.refreshTextsFrom address generalizing other with
  | case1 machine address inside shown =>
      rename_i induction
      have same : other.instructionText address = shown :=
        instructionText_of_memory alike.memory.symm address
      rw [refreshTextsFrom.eq_def other, dif_pos inside]
      dsimp only
      rw [same]
      apply induction
      -- Up to the next instruction one cell gets the text and the others lose theirs.
      have next : address + max shown.size 1 = address + 1 + (shown.size - 1) := by omega
      rw [next]
      exact (alike.setText inside shown.text).clearTexts _
  | case2 machine address outside =>
      rw [refreshTextsFrom.eq_def other, dif_neg outside]
      exact alike.silent (Nat.not_lt.mp outside)

theorem rest_setText (machine : Machine arch) (texts : Vector String arch.memorySize)
    (cell : Fin arch.memorySize) (text : String) :
    (machine.setText cell text).silent.withTexts texts = machine.silent.withTexts texts := by
  rw [silent_setText]
  rfl

theorem rest_clearTexts (machine : Machine arch) (texts : Vector String arch.memorySize)
    (address count : Nat) :
    (machine.clearTexts address count).silent.withTexts texts = machine.silent.withTexts texts := by
  induction count generalizing address machine with
  | zero => rfl
  | succ count induction =>
      rw [clearTexts]
      split
      · rw [induction, rest_setText]
      · rfl

/-- A sweep changes nothing but texts. -/
theorem rest_refreshTexts (machine : Machine arch) (texts : Vector String arch.memorySize) :
    machine.refreshTexts.silent.withTexts texts = machine.silent.withTexts texts := by
  rw [refreshTexts]
  fun_induction machine.refreshTextsFrom 0 with
  | case1 machine address inside shown =>
      rename_i induction
      rw [induction, rest_clearTexts, rest_setText]
  | case2 => rfl

/-- A sweep leaves the same machine whatever the texts were before. -/
theorem silent_refreshTexts
    (rest : ∀ texts, machine.silent.withTexts texts = other.silent.withTexts texts) :
    machine.refreshTexts.silent = other.refreshTexts.silent :=
  silent_refreshTextsFrom ⟨rest, fun _ below => absurd below (Nat.not_lt_zero _)⟩

end Machine

end ClassroomCpu
