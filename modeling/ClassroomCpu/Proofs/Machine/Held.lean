import ClassroomCpu.Proofs.ByteOrder
import ClassroomCpu.Proofs.Machine.Frame

/-!
# Bytes in memory

A machine holds bytes at an address if they lie in its cells from that address
on, which wrap around at the end of memory.
-/

namespace ClassroomCpu

namespace Architecture

variable {arch : Architecture}

theorem cell_congr {address other : Nat}
    (same : address % arch.memorySize = other % arch.memorySize) :
    arch.cell address = arch.cell other :=
  Fin.ext same

theorem wrap_natCast (address : Nat) : arch.wrap address = arch.cell address := by
  apply Fin.ext
  have remainder := arch.val_wrap address
  rw [← Int.natCast_emod] at remainder
  exact Int.ofNat_inj.mp remainder

theorem wrap_congr {number other : Int}
    (same : number % arch.memorySize = other % arch.memorySize) :
    arch.wrap number = arch.wrap other := by
  rw [wrap, wrap, same]

end Architecture

namespace Machine

variable {arch : Architecture} (machine : Machine arch)

/-- The bytes lie in memory from an address on. -/
def Holds (address : Nat) (bytes : List UInt8) : Prop :=
  machine.peekBytes address bytes.length = bytes

@[simp] theorem length_peekBytes (address count : Nat) :
    (machine.peekBytes address count).length = count := by
  induction count generalizing address with
  | zero => rfl
  | succ count induction => simp [peekBytes, induction]

variable {machine}

theorem peek_congr {address other : Nat}
    (same : address % arch.memorySize = other % arch.memorySize) :
    machine.peek address = machine.peek other := by
  rw [peek, peek, Architecture.cell_congr same]

@[simp] theorem peek_cell (address : Nat) : machine.peek (arch.cell address) = machine.peek address :=
  peek_congr (Nat.mod_mod address arch.memorySize)

theorem holds_nil (address : Nat) : machine.Holds address [] := rfl

theorem holds_cons {address : Nat} {byte : UInt8} {bytes : List UInt8} :
    machine.Holds address (byte :: bytes) ↔
      machine.peek address = byte ∧ machine.Holds (address + 1) bytes := by
  simp [Holds, peekBytes]

theorem holds_append {address : Nat} {first second : List UInt8} :
    machine.Holds address (first ++ second) ↔
      machine.Holds address first ∧ machine.Holds (address + first.length) second := by
  induction first generalizing address with
  | nil => simp [holds_nil]
  | cons byte first induction =>
      simp only [List.cons_append, holds_cons, induction, List.length_cons, and_assoc]
      rw [Nat.add_right_comm, Nat.add_assoc]

/-- Bytes stay where they are as long as memory does not change. -/
theorem Holds.congr {other : Machine arch} {address place : Nat} {bytes : List UInt8}
    (there : machine.Holds address bytes) (memory : other.memory = machine.memory)
    (same : place % arch.memorySize = address % arch.memorySize) :
    other.Holds place bytes := by
  induction bytes generalizing address place with
  | nil => exact holds_nil place
  | cons byte bytes induction =>
      obtain ⟨here, further⟩ := holds_cons.mp there
      refine holds_cons.mpr ⟨?_, induction further (by rw [Nat.add_mod, same, ← Nat.add_mod])⟩
      rw [← here, peek_congr same, peek, peek, memory]

/-- The number that was encoded can be read where its bytes lie. -/
theorem Holds.peekNumber_eq {order : ByteOrder} {width address : Nat} {value : Int}
    (there : machine.Holds address (order.encode width value)) :
    (machine.peekNumber order width address : Int) = value % 256 ^ width := by
  unfold Holds at there
  rw [ByteOrder.length_encode] at there
  rw [peekNumber, there, ByteOrder.decode_encode]

theorem Holds.peekNumber_of_lt {order : ByteOrder} {width address value : Nat}
    (there : machine.Holds address (order.encode width value)) (small : value < 256 ^ width) :
    machine.peekNumber order width address = value := by
  have number := there.peekNumber_eq
  have power : ((256 ^ width : Nat) : Int) = 256 ^ width := Int.natCast_pow 256 width
  rw [← power, ← Int.natCast_emod, Nat.mod_eq_of_lt small] at number
  exact Int.ofNat_inj.mp number

end Machine

end ClassroomCpu
