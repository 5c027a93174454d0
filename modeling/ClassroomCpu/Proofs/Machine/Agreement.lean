import ClassroomCpu.Proofs.Assembly.SharedBuild
import ClassroomCpu.Proofs.Machine.Frame

/-!
# Machines in the same state

An accumulator machine may have condition codes and instructions that another
one lacks.  The two are in the same state as far as programs for the lesser one
can see if memory, registers, the codes for sign and zero, running state and
counts agree; every single change keeps them so.
-/

namespace ClassroomCpu

/-- An architecture with the registers, operands and shared condition codes of another one. -/
structure Architecture.Emulates (other arch : Architecture) : Prop
    extends other.Understands arch where
  standard : arch.model = .standard
  counter : other.counter.val = arch.counter.val
  accumulatorName : other.accumulatorName = arch.accumulatorName
  direct : ∀ mode ∈ arch.addressingModes, mode.kind = .direct
  negative : (arch.flagWithCode? .negative).isSome = true ∧
    (other.flagWithCode? .negative).isSome = true
  zero : (arch.flagWithCode? .zero).isSome = true ∧ (other.flagWithCode? .zero).isSome = true

namespace Machine

variable {arch other : Architecture}

/-- A code that has a flag is changed by setting this code and no other one. -/
theorem code_setCode (machine : Machine arch) {read : FlagCode}
    (known : (arch.flagWithCode? read).isSome = true) (written : FlagCode) (value : Bool) :
    (machine.setCode written value).code read =
      if written = read then value else machine.code read := by
  obtain ⟨position, found⟩ := Option.isSome_iff_exists.mp known
  split
  · rename_i same
    subst same
    simp only [setCode, code, found]
    exact get_set_self _ _ _
  · rename_i differs
    unfold setCode
    cases foundWritten : arch.flagWithCode? written with
    | none => rfl
    | some place =>
        have apart : place ≠ position := by
          intro same
          subst same
          have ofRead := (List.findFinIdx?_eq_some_iff.mp found).1
          have ofWritten := (List.findFinIdx?_eq_some_iff.mp foundWritten).1
          simp only [decide_eq_true_eq] at ofRead ofWritten
          exact differs (ofWritten.symm.trans ofRead)
        simp only [code, found]
        exact get_set_of_ne apart

/-- Setting a code changes flags, and nothing else but what the listeners know. -/
theorem setCode_eq (machine : Machine arch) (code : FlagCode) (value : Bool) :
    ∃ flags hub, machine.setCode code value = { machine with flags, hub } := by
  unfold setCode
  split
  · exact ⟨_, _, rfl⟩
  · exact ⟨_, _, rfl⟩

/-- What programs for the lesser machine can see is the same on both machines. -/
structure Agrees (machine : Machine arch) (counterpart : Machine other) : Prop where
  memory : counterpart.memory.toList = machine.memory.toList
  /-- All registers, with the accumulator and the program counter among them. -/
  registers : counterpart.registers.toList = machine.registers.toList
  negative : counterpart.code .negative = machine.code .negative
  zero : counterpart.code .zero = machine.code .zero
  running : counterpart.running = machine.running
  instructionCount : counterpart.instructionCount = machine.instructionCount
  accessCount : counterpart.accessCount = machine.accessCount

namespace Agrees

section Reading

variable {machine : Machine arch} {counterpart : Machine other}

theorem register (agrees : machine.Agrees counterpart) {index : Fin arch.registers.length}
    {place : Fin other.registers.length} (same : place.val = index.val) :
    counterpart.register place = machine.register index :=
  get_eq_of_toList agrees.registers same

theorem peek (agrees : machine.Agrees counterpart) (understands : other.Understands arch)
    (address : Nat) : counterpart.peek address = machine.peek address :=
  get_eq_of_toList agrees.memory (understands.val_cell address)

theorem peekBytes (agrees : machine.Agrees counterpart) (understands : other.Understands arch)
    (address count : Nat) :
    counterpart.peekBytes address count = machine.peekBytes address count := by
  induction count generalizing address with
  | zero => rfl
  | succ count induction =>
      rw [Machine.peekBytes, Machine.peekBytes, agrees.peek understands, induction]

end Reading

/-! ## Changes -/

variable {machine : Machine arch} {counterpart : Machine other}
  (agrees : machine.Agrees counterpart)
include agrees

theorem countAccess : machine.countAccess.Agrees counterpart.countAccess where
  memory := agrees.memory
  registers := agrees.registers
  negative := agrees.negative
  zero := agrees.zero
  running := agrees.running
  instructionCount := agrees.instructionCount
  accessCount := congrArg (· + 1) agrees.accessCount

theorem countAccesses (count : Nat) :
    (machine.countAccesses count).Agrees (counterpart.countAccesses count) := by
  induction count generalizing machine counterpart with
  | zero => exact agrees
  | succ count induction => exact induction agrees.countAccess

theorem countInstruction : machine.countInstruction.Agrees counterpart.countInstruction where
  memory := agrees.memory
  registers := agrees.registers
  negative := agrees.negative
  zero := agrees.zero
  running := agrees.running
  instructionCount := congrArg (· + 1) agrees.instructionCount
  accessCount := agrees.accessCount

theorem setRunning (value : Bool) :
    (machine.setRunning value).Agrees (counterpart.setRunning value) where
  memory := agrees.memory
  registers := agrees.registers
  negative := agrees.negative
  zero := agrees.zero
  running := rfl
  instructionCount := agrees.instructionCount
  accessCount := agrees.accessCount

theorem poke (understands : other.Understands arch) (address : Nat) (value : Int) :
    (machine.poke address value).Agrees (counterpart.poke address value) where
  memory := toList_set_eq agrees.memory (understands.val_cell address) (UInt8.ofInt value)
  registers := agrees.registers
  negative := agrees.negative
  zero := agrees.zero
  running := agrees.running
  instructionCount := agrees.instructionCount
  accessCount := agrees.accessCount

theorem setRegister (understands : other.Understands arch) {index : Fin arch.registers.length}
    {place : Fin other.registers.length} (same : place.val = index.val) (value : Int) :
    (machine.setRegister index value).Agrees (counterpart.setRegister place value) where
  memory := agrees.memory
  registers := by
    have spec : other.registers.get place = arch.registers.get index := by
      simp only [List.get_eq_getElem, understands.registers, same]
    have held : (other.registers.get place).hold value =
        (arch.registers.get index).hold value := by rw [spec]
    change (counterpart.registers.set place ((other.registers.get place).hold value)).toList = _
    rw [held]
    exact toList_set_eq agrees.registers same _
  negative := agrees.negative
  zero := agrees.zero
  running := agrees.running
  instructionCount := agrees.instructionCount
  accessCount := agrees.accessCount

theorem setCode (emulates : other.Emulates arch) (code : FlagCode) (value : Bool) :
    (machine.setCode code value).Agrees (counterpart.setCode code value) := by
  have negative : (counterpart.setCode code value).code .negative =
      (machine.setCode code value).code .negative := by
    rw [code_setCode _ emulates.negative.2, code_setCode _ emulates.negative.1, agrees.negative]
  have zero : (counterpart.setCode code value).code .zero =
      (machine.setCode code value).code .zero := by
    rw [code_setCode _ emulates.zero.2, code_setCode _ emulates.zero.1, agrees.zero]
  obtain ⟨flags, hub, here⟩ := machine.setCode_eq code value
  obtain ⟨otherFlags, otherHub, there⟩ := counterpart.setCode_eq code value
  rw [here, there] at negative zero ⊢
  exact { agrees with negative, zero }

end Agrees

end Machine

end ClassroomCpu
