import ClassroomCpu.Proofs.MemoryImage.Reader
import ClassroomCpu.Proofs.Machine.Reset
import ClassroomCpu.Proofs.Machine.Sweep

/-!
# Taking over a memory image

A memory image that is accepted gives every cell its value and no label, and
the texts of the new memory; everything else stays.  Which images are accepted,
and which defect of the others is named, is told by their bytes alone.
-/

namespace ClassroomCpu

/-! ## Neighbouring cells -/

namespace Architecture

variable {arch : Architecture} {α : Type}

/-- Cells once neighbouring ones have got values, from an address on. -/
def fill (arch : Architecture) (cells : Vector α arch.memorySize) (address : Nat) :
    List α → Vector α arch.memorySize
  | [] => cells
  | value :: values => arch.fill (cells.set (arch.cell address) value) (address + 1) values

@[simp] theorem fill_nil (cells : Vector α arch.memorySize) (address : Nat) :
    arch.fill cells address [] = cells :=
  rfl

theorem fill_cons (cells : Vector α arch.memorySize) (address : Nat) (value : α)
    (values : List α) :
    arch.fill cells address (value :: values) =
      arch.fill (cells.set (arch.cell address) value (arch.cell address).isLt) (address + 1)
        values :=
  rfl

theorem get_fill {cells : Vector α arch.memorySize} {address : Nat} {values : List α}
    (fits : address + values.length ≤ arch.memorySize) (cell : Fin arch.memorySize) :
    (arch.fill cells address values).get cell =
      (if address ≤ cell then values[cell - address]? else none).getD (cells.get cell) := by
  induction values generalizing cells address with
  | nil => simp
  | cons value values induction =>
      rw [List.length_cons] at fits
      have place : (arch.cell address : Nat) = address := Nat.mod_eq_of_lt (by omega)
      rw [fill_cons, induction (by omega), get_set]
      by_cases here : arch.cell address = cell
      · have first : (cell : Nat) = address := by rw [← here, place]
        have notBehind : ¬ address + 1 ≤ (cell : Nat) := by omega
        rw [if_pos here, if_neg notBehind, if_pos first.ge, first, Nat.sub_self]
        rfl
      · have apart : (cell : Nat) ≠ address := fun same => here (Fin.ext (place.trans same.symm))
        rw [if_neg here]
        by_cases before : (cell : Nat) < address
        · have outside : ¬ address + 1 ≤ (cell : Nat) := by omega
          rw [if_neg outside, if_neg (Nat.not_le.mpr before)]
        · obtain ⟨distance, reached⟩ : ∃ distance, (cell : Nat) - address = distance + 1 :=
            Nat.exists_eq_succ_of_ne_zero (by omega)
          have next : (cell : Nat) - (address + 1) = distance := by omega
          rw [if_pos (by omega), if_pos (by omega), next, reached, List.getElem?_cons_succ]

/-- As many values as there are cells leave nothing of what the cells held. -/
theorem getElem?_fill (cells : Vector α arch.memorySize) {values : List α}
    (size : values.length = arch.memorySize) (cell : Fin arch.memorySize) :
    values[(cell : Nat)]? = some ((arch.fill cells 0 values).get cell) := by
  have inside : (cell : Nat) < values.length := by
    rw [size]
    exact cell.isLt
  rw [get_fill (by omega), if_pos (Nat.zero_le _), Nat.sub_zero, List.getElem?_eq_getElem inside]
  rfl

end Architecture

/-! ## Values without their padding -/

namespace MemoryImage

theorem length_withoutPadding :
    ∀ bytes : List UInt8, (withoutPadding bytes).length = bytes.length / 2
  | [] => by simp [withoutPadding]
  | [_] => by simp [withoutPadding]
  | _ :: _ :: rest => by
      simp only [withoutPadding, List.length_cons, length_withoutPadding rest]
      omega

/-- The value of a cell is the first of its two bytes. -/
theorem getElem?_withoutPadding :
    ∀ (bytes : List UInt8) (position : Nat), 2 * position + 1 < bytes.length →
      (withoutPadding bytes)[position]? = bytes[2 * position]?
  | [], _, inside => absurd inside (by simp)
  | [_], position, inside => absurd inside (by simp)
  | _ :: _ :: _, 0, _ => rfl
  | _ :: _ :: rest, position + 1, inside => by
      simp only [List.length_cons] at inside
      have here : 2 * (position + 1) = 2 * position + 1 + 1 := by omega
      rw [withoutPadding, List.getElem?_cons_succ, here, List.getElem?_cons_succ,
        List.getElem?_cons_succ]
      exact getElem?_withoutPadding rest position (by omega)

end MemoryImage

namespace Machine

variable {arch : Architecture} {machine : Machine arch}

theorem silent_setLabel (cell : Fin arch.memorySize) (label : String) :
    (machine.setLabel cell label).silent =
      { machine.silent with labels := machine.labels.set cell label cell.isLt } := by
  rw [setLabel]
  split
  · rename_i already
    rw [← already, set_get]
    rfl
  · rfl

theorem silent_takeCells (address : Nat) (values : List UInt8) :
    (machine.takeCells address values).silent =
      { machine.silent with
        memory := arch.fill machine.memory address values
        labels := arch.fill machine.labels address (values.map fun _ => "") } := by
  induction values generalizing machine address with
  | nil => rfl
  | cons value values induction =>
      have filled : ((if machine.peek address = value then machine
          else machine.poke address value.toNat).setLabel (arch.cell address) "").silent =
            { machine.silent with
              memory := machine.memory.set (arch.cell address) value
              labels := machine.labels.set (arch.cell address) "" } := by
        rw [silent_setLabel]
        split
        · rename_i already
          rw [← already, peek, set_get]
          rfl
        · simp only [poke, ofInt_toNat]
          rfl
      rw [takeCells, induction, filled]
      have memory := congrArg Machine.memory filled
      have labels := congrArg Machine.labels filled
      simp only [silent] at memory labels
      rw [memory, labels]
      rfl

/-! ## What an accepted image leaves -/

/-- What becomes of a machine that takes over an image. -/
structure TakenOver (machine : Machine arch) (image : List UInt8) (after : Machine arch) :
    Prop where
  /-- The first byte of each cell is its value; the byte of padding plays no part. -/
  memory : ∀ cell : Fin arch.memorySize,
    (MemoryImage.cellBytes image)[2 * (cell : Nat)]? = some (after.memory.get cell)
  labels : ∀ cell, after.labels.get cell = ""
  texts : after.Listed
  registers : after.registers = machine.registers
  flags : after.flags = machine.flags
  stack : after.stack = machine.stack
  running : after.running = machine.running
  instructionCount : after.instructionCount = machine.instructionCount
  accessCount : after.accessCount = machine.accessCount

theorem takenOver_takeCells {image : List UInt8}
    (isImage : MemoryImage.IsImageOf arch image) :
    machine.TakenOver image
      (machine.startQueue.takeCells 0
        (MemoryImage.withoutPadding (MemoryImage.cellBytes image))).refreshTexts.flush := by
  let values := MemoryImage.withoutPadding (MemoryImage.cellBytes image)
  let filled := machine.startQueue.takeCells 0 values
  have bytes := isImage.length_cellBytes
  have size : values.length = arch.memorySize := by
    rw [MemoryImage.length_withoutPadding, bytes]
    omega
  have state : filled.refreshTexts.silent.withTexts machine.texts =
      { machine.silent with
        memory := arch.fill machine.memory 0 values
        labels := arch.fill machine.labels 0 (values.map fun _ => "") } := by
    rw [rest_refreshTexts, silent_takeCells]
    rfl
  have memory : filled.refreshTexts.memory = arch.fill machine.memory 0 values :=
    congrArg Machine.memory state
  have labels : filled.refreshTexts.labels =
      arch.fill machine.labels 0 (values.map fun _ => "") :=
    congrArg Machine.labels state
  have registers := congrArg Machine.registers state
  have flags := congrArg Machine.flags state
  have stack := congrArg Machine.stack state
  have running := congrArg Machine.running state
  have instructionCount := congrArg Machine.instructionCount state
  have accessCount := congrArg Machine.accessCount state
  refine ⟨?_, ?_, (listed_refreshTexts filled).congr rfl rfl, registers, flags, stack, running,
    instructionCount, accessCount⟩
  · intro cell
    change _ = some (filled.refreshTexts.memory.get cell)
    rw [memory, ← Architecture.getElem?_fill _ size, MemoryImage.getElem?_withoutPadding]
    have inside := cell.isLt
    omega
  · intro cell
    change filled.refreshTexts.labels.get cell = ""
    have sameSize : (values.map fun _ => "").length = arch.memorySize := by
      rw [List.length_map, size]
    have written := Architecture.getElem?_fill machine.labels sameSize cell
    rw [labels]
    simpa [size] using written.symm

theorem importImage_of_isImageOf (machine : Machine arch) {image : List UInt8}
    (isImage : MemoryImage.IsImageOf arch image) :
    ∃ after, machine.importImage image = .ok after ∧ machine.TakenOver image after := by
  refine ⟨_, ?_, takenOver_takeCells isImage⟩
  rw [importImage, MemoryImage.cells_eq_iff.mpr (.own isImage)]

theorem takenOver_of_importImage {image : List UInt8} {after : Machine arch}
    (accepted : machine.importImage image = .ok after) :
    MemoryImage.IsImageOf arch image ∧ machine.TakenOver image after := by
  unfold importImage at accepted
  split at accepted
  · contradiction
  · rename_i values found
    obtain rfl := Except.ok.inj accepted
    cases MemoryImage.cells_eq_iff.mp found with
    | own isImage => exact ⟨isImage, takenOver_takeCells isImage⟩

theorem importImage_eq_error_iff {image : List UInt8} {refusal : ImportError} :
    machine.importImage image = .error refusal ↔
      MemoryImage.Verdict arch image (.error refusal) := by
  rw [← MemoryImage.cells_eq_iff, importImage]
  split <;> simp_all

/-! ## Every row of bytes -/

/--
A row of bytes is accepted exactly if it is an image of the machine; otherwise its first defect
is named.  Step by step, as in one go, an accepted image gives memory, no labels and the texts of
memory, and leaves the rest; a refused one leaves the machine and its listeners as they were.
-/
theorem importImage_decides (machine : Machine arch) (image : List UInt8) :
    ((∃ after, machine.importImage image = .ok after) ↔ MemoryImage.IsImageOf arch image) ∧
    (∀ expected found, machine.importImage image = .error (.invalidSize expected found) ↔
      MemoryImage.WrongSize arch image ∧ expected = MemoryImage.expectedSize arch image ∧
        found = image.length) ∧
    (machine.importImage image = .error .malformed ↔
      ¬ MemoryImage.WrongSize arch image ∧
        ¬ MemoryImage.IsText (MemoryImage.identifierBytes image)) ∧
    (∀ expected found, machine.importImage image = .error (.identifierMismatch expected found) ↔
      ¬ MemoryImage.WrongSize arch image ∧
        MemoryImage.textBytes found = MemoryImage.identifierBytes image ∧
          found ≠ arch.identifier ∧ expected = arch.identifier) ∧
    match machine.importImage image with
    | .ok after => takeImage image machine = .ok () after ∧ machine.TakenOver image after
    | .error refusal => takeImage image machine = .error refusal machine := by
  refine ⟨?_, ?_, ?_, ?_, ?_⟩
  · constructor
    · rintro ⟨after, accepted⟩
      exact (takenOver_of_importImage accepted).1
    · intro isImage
      obtain ⟨after, accepted, _⟩ := importImage_of_isImageOf machine isImage
      exact ⟨after, accepted⟩
  · intro expected found
    rw [importImage_eq_error_iff]
    constructor
    · intro verdict
      cases verdict with
      | wrongSize wrong => exact ⟨wrong, rfl, rfl⟩
    · rintro ⟨wrong, rfl, rfl⟩
      exact .wrongSize wrong
  · rw [importImage_eq_error_iff]
    constructor
    · intro verdict
      cases verdict with
      | noText right noText => exact ⟨right, noText⟩
    · rintro ⟨right, noText⟩
      exact .noText right noText
  · intro expected found
    rw [importImage_eq_error_iff]
    constructor
    · intro verdict
      cases verdict with
      | foreign right named different => exact ⟨right, named, different, rfl⟩
    · rintro ⟨right, named, different, rfl⟩
      exact .foreign right named different
  · rw [takeImage_apply]
    cases imported : machine.importImage image with
    | ok after => exact ⟨rfl, (takenOver_of_importImage imported).2⟩
    | error refusal => rfl

end Machine

end ClassroomCpu
