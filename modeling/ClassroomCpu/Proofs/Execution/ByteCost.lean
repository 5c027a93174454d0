import ClassroomCpu.Proofs.Execution.ByteStep
import ClassroomCpu.Proofs.Execution.Cost

/-!
# What the instructions of a byte machine cost

An instruction costs the access to its opcode, the accesses on the way to its
operand, and one for a value that it reads or writes there.  A jump that is not
taken does not go the way to its operand, and a stack apart from memory is free.
-/

namespace ClassroomCpu

variable {arch : Architecture}

/--
The accesses on the way from an operand of a byte machine to its cell, by
addresses of some number of bytes.
-/
def AddressingMode.Kind.wayAccesses (kind : AddressingMode.Kind) (addressBytes : Nat) : Nat :=
  match kind with
  | .immediate => 0
  | .indirect => 2 * addressBytes
  | _ => addressBytes

namespace Instruction

/-- The accesses of an instruction of an accumulator or register machine, behind its opcode. -/
def standardAccesses (instruction : Instruction) (kind : AddressingMode.Kind)
    (machine : Machine arch) : Nat :=
  match instruction.operation with
  | .store | .load | .add | .sub | .or | .and => kind.wayAccesses arch.addressBytes + 1
  | .jump test => if test.holds machine.status then kind.wayAccesses arch.addressBytes else 0
  | .call =>
      if kind = .immediate then 0 else kind.wayAccesses arch.addressBytes + arch.addressBytes
  | .choose => arch.addressBytes
  | _ => 0

/-- The accesses of an instruction of a stack machine, behind its opcode. -/
def stackAccesses (instruction : Instruction) (kind : AddressingMode.Kind)
    (machine : Machine arch) : Nat :=
  match instruction.operation with
  | .push | .pop => kind.wayAccesses arch.addressBytes + 1
  | .jump .always | .call => kind.wayAccesses arch.addressBytes
  | .skip test => if test.holds (Alu.signed 8 machine.stackTop) then 1 else 0
  | _ => 0

/-- The accesses of an instruction of a byte machine, behind its opcode. -/
def byteAccesses (instruction : Instruction) (kind : AddressingMode.Kind)
    (machine : Machine arch) : Nat :=
  match arch.model with
  | .stack => instruction.stackAccesses kind machine
  | _ => instruction.standardAccesses kind machine

theorem byteAccesses_congr (instruction : Instruction) (kind : AddressingMode.Kind)
    {machine other : Machine arch} (status : other.status = machine.status)
    (top : other.stackTop = machine.stackTop) :
    instruction.byteAccesses kind other = instruction.byteAccesses kind machine := by
  simp only [byteAccesses, stackAccesses, standardAccesses, status, top]

end Instruction

namespace Exec

/-! ## Operands -/

theorem costs_effectiveAddress {kind : AddressingMode.Kind} {operandAddress : Nat}
    (indexed : kind = .indexedByX → (arch.registerIndex? indexRegisterName).isSome = true) :
    Costs (OperandAccess.effectiveAddress arch kind operandAddress)
      (kind.wayAccesses arch.addressBytes) := by
  unfold OperandAccess.effectiveAddress AddressingMode.Kind.wayAccesses
  cases kind with
  | immediate => exact .of_pure _
  | indirect =>
      rw [Nat.two_mul]
      exact (costs_readAddress _).bind fun pointer => costs_readAddress pointer
  | indexedByX =>
      obtain ⟨index, found⟩ := Option.isSome_iff_exists.mp (indexed rfl)
      have indexing : ∀ base : Nat, Costs (do
          let index ← ofExcept ((← get).registerNamed indexRegisterName)
          return arch.cell (base + index) : Exec arch Nat) 0 := by
        intro base machine
        exact .of_eq
          (by simp only [bind_of_ok (get_apply machine), machine.registerNamed_index found]; rfl)
          (.refl machine)
      exact (costs_readAddress operandAddress).bind indexing
  | indexedByCounter =>
      exact (costs_readAddress _).bind fun _ => costs_counter.bind fun _ => .of_pure _
  | _ => exact costs_readAddress _

end Exec

namespace Fetched

open Exec

/-- What it costs an instruction to get at its operands. -/
structure Operands (fetched : Fetched arch) : Prop where
  address : Costs fetched.operand.address (fetched.kind.wayAccesses arch.addressBytes)
  value : Costs fetched.operand.value (fetched.kind.wayAccesses arch.addressBytes + 1)
  choice : ∀ first, Costs (fetched.operand.choice first) arch.addressBytes

/-! ## Registers -/

variable (fetched : Fetched arch)

theorem costs_registerValue : Costs fetched.registerValue 0 :=
  Costs.of_get.bind fun _ => .of_pure _

theorem costs_setResult (value : Nat) : Costs (fetched.setResult value) 0 :=
  Costs.bind (.of_modify fun machine => machine.counted_setRegister? _ _) fun _ =>
    costs_setSignAndZero _ _

theorem costs_setOutcome (outcome : Alu.Outcome) (carryCode : FlagCode) :
    Costs (fetched.setOutcome outcome carryCode) 0 :=
  (costs_setResult fetched _).bind fun _ => (costs_setCode _ _).bind fun _ => costs_setCode _ _

theorem costs_computeOnRegister : Costs fetched.computeOnRegister 0 := by
  refine (costs_registerValue fetched).free_bind fun value =>
    costs_status.free_bind fun status => ?_
  split
  · refine (costs_setResult fetched _).free_bind fun _ => ?_
    split
    · exact costs_setCode _ _
    · exact .of_pure ()
  · exact .of_pure ()

variable {fetched} (operands : fetched.Operands)
include operands

theorem costs_jumpIf (condition : Bool) :
    Costs (fetched.jumpIf condition)
      (if condition then fetched.kind.wayAccesses arch.addressBytes else 0) := by
  unfold jumpIf
  cases condition with
  | false => exact .of_pure ()
  | true =>
      by_cases immediate : fetched.kind = .immediate
      · simp only [immediate, AddressingMode.Kind.wayAccesses]
        exact .of_pure ()
      · simp only [bne_iff_ne.mpr immediate, Bool.and_self, if_true]
        exact operands.address.bind fun _ => costs_setCounter _

theorem costs_callInMemory :
    Costs fetched.callInMemory
      (if fetched.kind = .immediate then 0
        else fetched.kind.wayAccesses arch.addressBytes + arch.addressBytes) := by
  unfold callInMemory
  by_cases immediate : fetched.kind = .immediate
  · simp only [immediate]
    exact .of_pure ()
  · simp only [bne_iff_ne.mpr immediate, if_neg immediate, if_true]
    exact operands.address.bind fun _ => costs_counter.free_bind fun _ =>
      (costs_writeAddress _ _).bind fun _ => costs_setCounter _

/-- What the instructions of an accumulator or register machine cost. -/
theorem costs_executeStandard (machine : Machine arch) :
    Ends fetched.executeStandard machine fun _ after =>
      machine.Counted after (fetched.instruction.standardAccesses fetched.kind machine) := by
  have value := costs_registerValue fetched
  unfold executeStandard Instruction.standardAccesses
  cases fetched.instruction.operation with
  | store =>
      exact (operands.address.bind fun _ => value.free_bind fun _ => costs_writeByte _ _) machine
  | load => exact (operands.value.bind fun _ => costs_setResult fetched _) machine
  | add | sub =>
      exact (value.free_bind fun _ => operands.value.bind fun _ =>
        costs_setOutcome fetched _ _) machine
  | or | and =>
      exact (value.free_bind fun _ => operands.value.bind fun _ =>
        costs_setResult fetched _) machine
  | jump test => exact .after (status_apply machine) (costs_jumpIf operands _ machine)
  | call => exact costs_callInMemory operands machine
  | choose =>
      exact (value.free_bind fun _ => (operands.choice _).bind fun _ =>
        costs_setCounter _) machine
  | halt => exact costs_setRunning false machine
  | _ => exact costs_computeOnRegister fetched machine

/-! ## The stack -/

omit operands in
theorem costs_push (value : Nat) : Costs (push value : Exec arch Unit) 0 :=
  Costs.bind (.of_modify fun machine => machine.counted_setRegister? _ _) fun _ =>
    .of_modify fun machine => machine.counted_pokeStack _ _

omit operands in
/-- Taking a number from the stack gives the topmost one. -/
theorem top_pop (machine : Machine arch) :
    Ends pop machine fun value after => value = machine.stackTop ∧ machine.Counted after 0 :=
  .of_eq rfl ⟨rfl, machine.counted_setRegister? _ _⟩

omit operands in
theorem costs_pop : Costs (pop : Exec arch Nat) 0 :=
  fun machine => (top_pop machine).mono fun _ _ popped => popped.2

omit operands in
/-- The opcode behind a skip is looked at in order to pass over its instruction. -/
theorem costs_skipInstruction : Costs (skipInstruction : Exec arch Unit) 1 :=
  costs_counter.free_bind fun _ => (costs_readByte _).bind fun _ => costs_setCounter _

theorem costs_callOnStack :
    Costs fetched.callOnStack (fetched.kind.wayAccesses arch.addressBytes) := by
  unfold callOnStack
  by_cases immediate : fetched.kind = .immediate
  · simp only [immediate, AddressingMode.Kind.wayAccesses]
    exact .of_pure ()
  · simp only [bne_iff_ne.mpr immediate, if_true]
    exact operands.address.bind fun _ => costs_counter.bind fun _ =>
      (costs_push _).bind fun _ => costs_setCounter _

/-- What the instructions of a stack machine cost. -/
theorem costs_executeStack (machine : Machine arch) :
    Ends fetched.executeStack machine fun _ after =>
      machine.Counted after (fetched.instruction.stackAccesses fetched.kind machine) := by
  unfold executeStack Instruction.stackAccesses
  cases fetched.instruction.operation with
  | add | sub | and | or =>
      refine (costs_pop.free_bind fun _ => costs_pop.free_bind fun _ => ?_) machine
      split
      · exact costs_push _
      · exact .of_pure ()
  | clear | not | neg | inc | dec | halve | double | rotateRight | rotateLeft =>
      refine (costs_pop.free_bind fun _ => ?_) machine
      split
      · exact costs_push _
      · exact .of_pure ()
  | skip test =>
      apply (top_pop machine).bind
      rintro top between ⟨rfl, popped⟩
      cases taken : test.holds (Alu.signed 8 machine.stackTop) with
      | true =>
          simp only [taken, if_true]
          exact (costs_skipInstruction between).mono fun _ _ skipped => popped.trans skipped
      | false =>
          simp only [taken]
          exact .of_pure popped
  | push => exact (operands.value.bind fun _ => costs_push _) machine
  | pop =>
      exact (operands.address.bind fun _ => costs_pop.free_bind fun _ =>
        costs_writeByte _ _) machine
  | jump test =>
      cases test with
      | always => exact costs_jumpIf operands true machine
      | _ => exact .of_pure (.refl machine)
  | call => exact costs_callOnStack operands machine
  | ret => exact (costs_pop.bind fun _ => costs_setCounter _) machine
  | halt => exact costs_setRunning false machine
  | _ => exact .of_pure (.refl machine)

omit operands in
/-- What an instruction of a byte machine costs once it is fetched. -/
theorem costs_execute (operands : fetched.Operands) (machine : Machine arch) :
    Ends (match arch.model with
      | .stack => fetched.executeStack
      | _ => fetched.executeStandard) machine fun _ after =>
      machine.Counted after (fetched.instruction.byteAccesses fetched.kind machine) := by
  unfold Instruction.byteAccesses
  cases model : arch.model with
  | stack => exact costs_executeStack operands machine
  | standard | word => exact costs_executeStandard operands machine

end Fetched

namespace Machine

variable (machine : Machine arch)

/-- The accesses of the next step of a byte machine. -/
def byteAccesses : Nat :=
  let opcode := machine.peek machine.counter
  match arch.instruction? opcode with
  | none => 1
  | some instruction => 1 + instruction.byteAccesses (arch.addressingKind opcode) machine

theorem counted_pastFetch (instruction : Instruction) :
    machine.Counted (machine.pastFetch instruction) 1 := by
  unfold pastFetch pastOperand
  split <;> exact ⟨rfl, rfl⟩

theorem operands_fetched (facts : arch.CounterApart) (instruction : Instruction) :
    (machine.fetched instruction).Operands := by
  have address : Exec.Costs (OperandAccess.effectiveAddress arch
      (arch.addressingKind (machine.peek machine.counter)) machine.pastOpcode.counter) _ :=
    Exec.costs_effectiveAddress (facts.index _)
  exact ⟨address, address.bind fun _ => (Exec.costs_readByte _).bind fun _ => .of_pure _,
    fun _ => Exec.costs_readAddress _⟩

end Machine

namespace Exec

/-- What an instruction of a byte machine costs that is fetched and executed. -/
theorem costs_byteInstruction (facts : arch.CounterApart) (machine : Machine arch) :
    Ends byteInstruction machine fun _ after => machine.Counted after machine.byteAccesses := by
  unfold byteInstruction Machine.byteAccesses
  dsimp only
  cases known : arch.instruction? (machine.peek machine.counter) with
  | none => exact .after (fetch_of_none known) (.of_pure ⟨rfl, rfl⟩)
  | some instruction =>
      have same := instruction.byteAccesses_congr (machine.fetched instruction).kind
        (machine.status_pastFetch instruction)
        (machine.stackTop_pastFetch facts.stackPointer instruction)
      apply Ends.after (fetch_of_some known)
      apply (Fetched.costs_execute (machine.operands_fetched facts instruction) _).mono
      intro _ after executed
      have counted := (machine.counted_pastFetch instruction).trans executed
      rwa [show (machine.fetched instruction).instruction = instruction from rfl, same]
        at counted

end Exec

end ClassroomCpu
