/-!
# Cells by position

Memory, stack, registers and tables are vectors that are read and written at
one position at a time.  A fact about one byte follows from finitely many cases.
-/

namespace ClassroomCpu

/-- What a vector holds at a position after a write to another or to the same one. -/
theorem get_set {α : Type} {size : Nat} (cells : Vector α size) (written read : Fin size)
    (value : α) :
    (cells.set written value).get read = if written = read then value else cells.get read := by
  have elements : (cells.set written value)[read.val] =
      if written.val = read.val then value else cells[read.val] :=
    Vector.getElem_set written.isLt read.isLt
  simp only [Fin.val_inj] at elements
  exact elements

@[simp] theorem get_set_self {α : Type} {size : Nat} (cells : Vector α size)
    (position : Fin size) (value : α) : (cells.set position value).get position = value := by
  simp [get_set]

theorem get_set_of_ne {α : Type} {size : Nat} {cells : Vector α size}
    {written read : Fin size} {value : α} (apart : written ≠ read) :
    (cells.set written value).get read = cells.get read := by
  simp [get_set, apart]

@[simp] theorem get_replicate {α : Type} {size : Nat} (value : α) (position : Fin size) :
    (Vector.replicate size value).get position = value := by
  have elements : (Vector.replicate size value)[position.val] = value :=
    Vector.getElem_replicate position.isLt
  exact elements

/-- What holds for every number of eight bits holds for every byte. -/
theorem forall_byte {motive : UInt8 → Prop} (each : ∀ code < 256, motive (UInt8.ofNat code))
    (byte : UInt8) : motive byte := by
  have instanceOf := each byte.toNat byte.toNat_lt
  rwa [UInt8.ofNat_toNat] at instanceOf

end ClassroomCpu
