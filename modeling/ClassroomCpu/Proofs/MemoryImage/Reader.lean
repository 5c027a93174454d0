import ClassroomCpu.Proofs.MemoryImage.Shape

/-!
# Memory images from front to back

A memory image can be read piece by piece: the length of the identifier, the
identifier, and two bytes for every cell.  The machine that takes it over is then
changed step by step, and keeps what was done to it before the image is refused.
Both ways of taking over an image give the same: an image of the right length is
always read to its end, and nothing is done before it is known to be good.
-/

namespace ClassroomCpu

namespace MemoryImage

/-- Takes something from the front of a row of bytes and leaves the bytes behind, or fails. -/
def Reader (Result : Type) : Type :=
  List UInt8 → Option (Result × List UInt8)

namespace Reader

variable {First Second Item Result : Type}

def byte : Reader UInt8
  | [] => none
  | first :: rest => some (first, rest)

/-- Takes a number and as many bytes behind it as it says. -/
def counted (number : Reader UInt8) : Reader (List UInt8) := fun bytes =>
  match number bytes with
  | none => none
  | some (length, rest) =>
      if rest.length < length.toNat then none
      else some (rest.take length.toNat, rest.drop length.toNat)

/-- Takes two things, one behind the other. -/
def both (first : Reader First) (second : Reader Second) : Reader (First × Second) := fun bytes =>
  match first bytes with
  | none => none
  | some (one, rest) =>
      match second rest with
      | none => none
      | some (other, rest) => some ((one, other), rest)

/-- Takes the same kind of thing a number of times. -/
def times (item : Reader Item) : Nat → Reader (List Item)
  | 0 => fun bytes => some ([], bytes)
  | count + 1 => fun bytes =>
      match item bytes with
      | none => none
      | some (first, rest) =>
          match times item count rest with
          | none => none
          | some (items, rest) => some (first :: items, rest)

/-- What a reader takes if it leaves no byte behind. -/
def whole (reader : Reader Result) (bytes : List UInt8) : Option Result :=
  match reader bytes with
  | some (result, []) => some result
  | _ => none

/-- Twice as many bytes as there are cells are read to their end. -/
theorem times_both_byte {count : Nat} {bytes : List UInt8} (size : bytes.length = 2 * count) :
    ∃ cells, times (both byte byte) count bytes = some (cells, []) ∧
      cells.map Prod.fst = withoutPadding bytes := by
  induction count generalizing bytes with
  | zero =>
      obtain rfl : bytes = [] := List.length_eq_zero_iff.mp (by omega)
      exact ⟨[], rfl, rfl⟩
  | succ count induction =>
      obtain ⟨value, padding, rest, rfl, behind⟩ := exists_cell size
      obtain ⟨cells, read, values⟩ := induction behind
      refine ⟨(value, padding) :: cells, ?_, ?_⟩
      · simp only [times, both, byte, read]
      · rw [List.map_cons, values, withoutPadding]

end Reader

/-- The bytes of the identifier, and the values of a number of cells with their padding. -/
def read? (cellCount : Nat) : List UInt8 → Option (List UInt8 × List (UInt8 × UInt8)) :=
  Reader.whole (.both (.counted .byte) (.times (.both .byte .byte) cellCount))

/-- An image of the right length is read to its end. -/
theorem read?_of_length {cellCount : Nat} {length : UInt8} {rest : List UInt8}
    (size : rest.length = length.toNat + 2 * cellCount) :
    ∃ cells, read? cellCount (length :: rest) = some (rest.take length.toNat, cells) ∧
      cells.map Prod.fst = withoutPadding (rest.drop length.toNat) := by
  have enough : ¬ rest.length < length.toNat := by omega
  have behind : (rest.drop length.toNat).length = 2 * cellCount := by
    rw [List.length_drop]
    omega
  obtain ⟨cells, read, values⟩ := Reader.times_both_byte behind
  refine ⟨cells, ?_, values⟩
  simp only [read?, Reader.whole, Reader.both, Reader.counted, Reader.byte, if_neg enough, read]

end MemoryImage

namespace Machine

variable {arch : Architecture}

/-- Puts a value into a cell that does not hold it yet, and takes away the label of the cell. -/
def fillCell (address : Nat) (value : UInt8) : EStateM ImportError (Machine arch) Unit := do
  if (← get).peek address ≠ value then
    modify fun machine => machine.poke address value.toNat
  modify fun machine => machine.setLabel (arch.cell address) ""

/-- Fills neighbouring cells; the padding is dropped. -/
def fillCells (address : Nat) : List (UInt8 × UInt8) → EStateM ImportError (Machine arch) Unit
  | [] => pure ()
  | (value, _) :: cells => do
      fillCell address value
      fillCells (address + 1) cells

/-- Takes over a memory image step by step. -/
def takeImage (image : List UInt8) : EStateM ImportError (Machine arch) Unit := do
  let expected := MemoryImage.expectedSize arch image
  if image.length ≠ expected then
    throw (.invalidSize expected image.length)
  match MemoryImage.read? arch.memorySize image with
  | none => throw .malformed
  | some (bytes, cells) =>
      match MemoryImage.text? bytes with
      | none => throw .malformed
      | some identifier =>
          if identifier ≠ arch.identifier then
            throw (.identifierMismatch arch.identifier identifier)
          modify startQueue
          fillCells 0 cells
          modify refreshTexts
          modify flush

/-! ## Both ways give the same -/

theorem fillCell_apply (machine : Machine arch) (address : Nat) (value : UInt8) :
    fillCell address value machine =
      .ok () ((if machine.peek address = value then machine
        else machine.poke address value.toNat).setLabel (arch.cell address) "") := by
  change (if machine.peek address ≠ value then do
      modify (fun machine => machine.poke address value.toNat)
      modify fun machine => machine.setLabel (arch.cell address) ""
    else modify fun machine => machine.setLabel (arch.cell address) "" :
      EStateM ImportError (Machine arch) Unit) machine = _
  by_cases already : machine.peek address = value
  · rw [if_pos already, if_neg (not_not_intro already)]
    rfl
  · rw [if_neg already, if_pos already]
    rfl

theorem fillCells_apply (machine : Machine arch) (address : Nat)
    (cells : List (UInt8 × UInt8)) :
    fillCells address cells machine =
      .ok () (machine.takeCells address (cells.map Prod.fst)) := by
  induction cells generalizing machine address with
  | nil => rfl
  | cons cell cells induction =>
      obtain ⟨value, padding⟩ := cell
      simp only [fillCells, bind, EStateM.bind, fillCell_apply, induction]
      rfl

/--
Step by step an image changes a machine as it does in one go, and one that is refused changes
nothing.
-/
theorem takeImage_apply (image : List UInt8) (machine : Machine arch) :
    takeImage image machine =
      match machine.importImage image with
      | .ok after => .ok () after
      | .error refusal => .error refusal machine := by
  unfold takeImage importImage MemoryImage.cells
  by_cases size : image.length = MemoryImage.expectedSize arch image
  · obtain ⟨length, rest, rfl, behind⟩ := MemoryImage.exists_of_not_wrongSize
      fun wrong => MemoryImage.wrongSize_iff.mp wrong size
    obtain ⟨cells, read, values⟩ := MemoryImage.read?_of_length behind
    simp only [if_neg (not_not_intro size), read]
    cases MemoryImage.text? (rest.take length.toNat) with
    | none => rfl
    | some identifier =>
        by_cases same : identifier = arch.identifier
        · simp only [if_pos same, if_neg (not_not_intro same), ← values]
          have filled := fillCells_apply machine.startQueue 0 cells
          change EStateM.bind (fillCells 0 cells)
            (fun _ => do modify refreshTexts; modify flush) machine.startQueue = _
          rw [EStateM.bind, filled]
          rfl
        · simp only [if_neg same, if_pos same]
          rfl
  · simp only [if_pos size]
    rfl

end Machine

end ClassroomCpu
