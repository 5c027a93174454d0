import ClassroomCpu.Execution.Fetched
import ClassroomCpu.Proofs.Execution.Ends
import ClassroomCpu.Proofs.Machine.Frame

/-!
# Access to memory and registers

What the steps out of which instructions are put together give and change.
Only fetching, and setting it, moves the program counter.
-/

namespace ClassroomCpu

variable {arch : Architecture}

/-- A machine with an index register finds it by its name. -/
theorem Machine.registerNamed_index {index : Fin arch.registers.length}
    (found : arch.registerIndex? indexRegisterName = some index) (machine : Machine arch) :
    machine.registerNamed indexRegisterName = .ok (machine.register index) := by
  have nonempty : indexRegisterName.isEmpty = false := by decide
  simp [registerNamed, findRegister, found, nonempty, Except.map]

namespace Exec

theorem readByte_apply (address : Nat) (machine : Machine arch) :
    readByte address machine = .ok (machine.peek address) machine.countAccess := rfl

theorem counter_apply (machine : Machine arch) :
    counter machine = .ok machine.counter machine := rfl

theorem setCounter_apply (value : Int) (machine : Machine arch) :
    setCounter value machine = .ok () (machine.setCounter value) := rfl

theorem status_apply (machine : Machine arch) : status machine = .ok machine.status machine := rfl

/-- Reading neighbouring cells counts an access for each of them. -/
theorem readBytes_apply (address count : Nat) (machine : Machine arch) :
    readBytes address count machine =
      .ok (machine.peekBytes address count) (machine.countAccesses count) := by
  induction count generalizing address machine with
  | zero => rfl
  | succ count induction =>
      rw [readBytes, bind_of_ok (readByte_apply address machine), bind_of_ok (induction _ _),
        Machine.peekBytes_congr machine.memory_countAccess]
      rfl

theorem readAddress_apply (address : Nat) (machine : Machine arch) :
    readAddress address machine =
      .ok (arch.cell (machine.peekNumber arch.byteOrder arch.addressBytes address))
        (machine.countAccesses arch.addressBytes) := by
  rw [readAddress, bind_of_ok (readBytes_apply _ _ machine)]
  rfl

theorem readWord_apply (address : Nat) (machine : Machine arch) :
    readWord address machine =
      .ok (machine.peekNumber .big 2 address) (machine.countAccesses 2) := by
  rw [readWord, bind_of_ok (readBytes_apply _ _ machine)]
  rfl

theorem fetchByte_apply (machine : Machine arch) :
    fetchByte machine =
      .ok (machine.peek machine.counter)
        (machine.countAccess.setCounter (machine.counter + 1)) := rfl

/-! ## The program counter is kept -/

theorem keeps_readByte (address : Nat) : Keeps (readByte address : Exec arch UInt8) :=
  fun _ => .of_eq rfl rfl

theorem keeps_writeByte (address : Nat) (value : UInt8) :
    Keeps (writeByte address value : Exec arch Unit) :=
  fun _ => .of_eq rfl rfl

theorem keeps_readBytes (address count : Nat) :
    Keeps (readBytes address count : Exec arch (List UInt8)) := by
  induction count generalizing address with
  | zero => exact .of_pure []
  | succ count induction =>
      exact (keeps_readByte address).bind fun byte =>
        (induction (address + 1)).bind fun bytes => .of_pure (byte :: bytes)

theorem keeps_writeBytes (address : Nat) (bytes : List UInt8) :
    Keeps (writeBytes address bytes : Exec arch Unit) := by
  induction bytes generalizing address with
  | nil => exact .of_pure ()
  | cons byte bytes induction =>
      exact (keeps_writeByte address byte).bind fun _ => induction (address + 1)

theorem keeps_readAddress (address : Nat) : Keeps (readAddress address : Exec arch Nat) :=
  (keeps_readBytes address _).bind fun _ => .of_pure _

theorem keeps_writeAddress (address value : Nat) :
    Keeps (writeAddress address value : Exec arch Unit) :=
  keeps_writeBytes address _

theorem keeps_readWord (address : Nat) : Keeps (readWord address : Exec arch Nat) :=
  (keeps_readBytes address _).bind fun _ => .of_pure _

theorem keeps_writeWord (address value : Nat) :
    Keeps (writeWord address value : Exec arch Unit) :=
  keeps_writeBytes address _

theorem keeps_counter : Keeps (counter : Exec arch Nat) :=
  fun _ => .of_eq rfl rfl

theorem keeps_status : Keeps (status : Exec arch Status) :=
  fun _ => .of_eq rfl rfl

theorem keeps_setCode (code : FlagCode) (value : Bool) :
    Keeps (setCode code value : Exec arch Unit) :=
  .of_modify fun machine => machine.counter_setCode code value

theorem keeps_setSignAndZero (width value : Nat) :
    Keeps (setSignAndZero width value : Exec arch Unit) :=
  (keeps_setCode _ _).bind fun _ => keeps_setCode _ _

theorem keeps_setRunning (value : Bool) : Keeps (setRunning value : Exec arch Unit) :=
  fun _ => .of_eq rfl rfl

end Exec

end ClassroomCpu
