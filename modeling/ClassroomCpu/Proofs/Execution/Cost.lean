import ClassroomCpu.Proofs.Execution.Access

/-!
# What computations cost

A computation that ends everywhere costs the accesses to memory that it counts
on the way.  Costs add up along `do`; only reading and writing memory costs
anything, and no computation counts an instruction by itself.
-/

namespace ClassroomCpu

variable {arch : Architecture}

/-- A machine comes from another one that counted some accesses and no instruction meanwhile. -/
structure Machine.Counted (machine after : Machine arch) (accesses : Nat) : Prop where
  accesses : after.accessCount = machine.accessCount + accesses
  instructions : after.instructionCount = machine.instructionCount

namespace Machine.Counted

variable {machine between after : Machine arch} {first second : Nat}

theorem refl (machine : Machine arch) : machine.Counted machine 0 :=
  ⟨rfl, rfl⟩

theorem trans (before : machine.Counted between first) (later : between.Counted after second) :
    machine.Counted after (first + second) where
  accesses := by rw [later.accesses, before.accesses, Nat.add_assoc]
  instructions := later.instructions.trans before.instructions

end Machine.Counted

namespace Machine

variable (machine : Machine arch)

theorem counted_countAccess : machine.Counted machine.countAccess 1 :=
  ⟨rfl, rfl⟩

theorem counted_countAccesses (count : Nat) :
    machine.Counted (machine.countAccesses count) count := by
  induction count generalizing machine with
  | zero => exact .refl machine
  | succ count induction =>
      have counted := machine.counted_countAccess.trans (induction machine.countAccess)
      rwa [Nat.add_comm] at counted

theorem counted_setRegister (index : Fin arch.registers.length) (value : Int) :
    machine.Counted (machine.setRegister index value) 0 :=
  ⟨rfl, rfl⟩

theorem counted_setRegister? (value : Int) (index : Option (Fin arch.registers.length)) :
    machine.Counted (machine.setRegister? value index) 0 := by
  cases index <;> exact ⟨rfl, rfl⟩

theorem counted_setCode (code : FlagCode) (value : Bool) :
    machine.Counted (machine.setCode code value) 0 := by
  unfold setCode
  split <;> exact ⟨rfl, rfl⟩

theorem counted_pokeStack (index : Nat) (value : Int) :
    machine.Counted (machine.pokeStack index value) 0 := by
  unfold pokeStack
  split <;> exact ⟨rfl, rfl⟩

end Machine

namespace Exec

variable {α β : Type}

/-- The computation ends everywhere, and counts the given number of accesses on the way. -/
def Costs (computation : Exec arch α) (accesses : Nat) : Prop :=
  ∀ machine : Machine arch, Ends computation machine fun _ after =>
    machine.Counted after accesses

/-- An instruction goes on with what it found: the costs of both parts add up. -/
theorem Ends.costs_bind {computation : Exec arch α} {next : α → Exec arch β}
    {machine : Machine arch} {first second : Nat}
    (found : Ends computation machine fun _ (after : Machine arch) =>
      machine.Counted after first)
    (further : ∀ result, Costs (next result) second) :
    Ends (computation >>= next) machine fun _ after =>
      machine.Counted after (first + second) := by
  apply found.bind
  intro result between counted
  exact (further result between).mono fun _ _ later => counted.trans later

namespace Costs

variable {computation : Exec arch α} {next : α → Exec arch β} {first second : Nat}

theorem of_pure (result : α) : Costs (pure result : Exec arch α) 0 :=
  fun machine => .of_pure (.refl machine)

theorem of_get : Costs (get : Exec arch (Machine arch)) 0 :=
  fun machine => .of_eq rfl (.refl machine)

theorem of_modify {change : Machine arch → Machine arch} {accesses : Nat}
    (counted : ∀ machine : Machine arch, machine.Counted (change machine) accesses) :
    Costs (modify change : Exec arch PUnit) accesses :=
  fun machine => .of_eq rfl (counted machine)

theorem bind (found : Costs computation first) (further : ∀ result, Costs (next result) second) :
    Costs (computation >>= next) (first + second) :=
  fun machine => (found machine).costs_bind further

/-- What comes behind for nothing does not matter. -/
theorem bind_free (found : Costs computation first) (further : ∀ result, Costs (next result) 0) :
    Costs (computation >>= next) first :=
  found.bind further

/-- What comes before for nothing does not matter. -/
theorem free_bind (found : Costs computation 0) (further : ∀ result, Costs (next result) second) :
    Costs (computation >>= next) second := by
  have costs := found.bind further
  rwa [Nat.zero_add] at costs

end Costs

/-! ## Memory -/

theorem costs_readByte (address : Nat) : Costs (readByte address : Exec arch UInt8) 1 :=
  fun machine => .of_eq (readByte_apply address machine) machine.counted_countAccess

theorem costs_writeByte (address : Nat) (value : UInt8) :
    Costs (writeByte address value : Exec arch Unit) 1 :=
  .of_modify fun _ => ⟨rfl, rfl⟩

theorem costs_writeBytes (address : Nat) (bytes : List UInt8) :
    Costs (writeBytes address bytes : Exec arch Unit) bytes.length := by
  induction bytes generalizing address with
  | nil => exact .of_pure ()
  | cons byte bytes induction =>
      rw [List.length_cons, Nat.add_comm]
      exact (costs_writeByte address byte).bind fun _ => induction (address + 1)

theorem costs_readAddress (address : Nat) :
    Costs (readAddress address : Exec arch Nat) arch.addressBytes :=
  fun machine => .of_eq (readAddress_apply address machine) (machine.counted_countAccesses _)

theorem costs_writeAddress (address value : Nat) :
    Costs (writeAddress address value : Exec arch Unit) arch.addressBytes := by
  have costs : Costs (writeAddress address value : Exec arch Unit) _ :=
    costs_writeBytes address (arch.byteOrder.encode arch.addressBytes value)
  rwa [ByteOrder.length_encode] at costs

theorem costs_readWord (address : Nat) : Costs (readWord address : Exec arch Nat) 2 :=
  fun machine => .of_eq (readWord_apply address machine) (machine.counted_countAccesses 2)

theorem costs_writeWord (address value : Nat) :
    Costs (writeWord address value : Exec arch Unit) 2 :=
  costs_writeBytes address _

/-! ## Registers and flags -/

theorem costs_counter : Costs (counter : Exec arch Nat) 0 :=
  fun machine => .of_eq (counter_apply machine) (.refl machine)

theorem costs_setCounter (value : Int) : Costs (setCounter value : Exec arch Unit) 0 :=
  .of_modify fun machine => machine.counted_setRegister _ value

theorem costs_status : Costs (status : Exec arch Status) 0 :=
  fun machine => .of_eq (status_apply machine) (.refl machine)

theorem costs_setCode (code : FlagCode) (value : Bool) :
    Costs (setCode code value : Exec arch Unit) 0 :=
  .of_modify fun machine => machine.counted_setCode code value

theorem costs_setSignAndZero (width value : Nat) :
    Costs (setSignAndZero width value : Exec arch Unit) 0 :=
  (costs_setCode _ _).bind fun _ => costs_setCode _ _

theorem costs_setRunning (value : Bool) : Costs (setRunning value : Exec arch Unit) 0 :=
  .of_modify fun _ => ⟨rfl, rfl⟩

end Exec

end ClassroomCpu
