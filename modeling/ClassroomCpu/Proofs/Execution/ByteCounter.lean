import ClassroomCpu.Execution.Standard
import ClassroomCpu.Proofs.Execution.Access
import ClassroomCpu.Proofs.Execution.ControlFlow

/-!
# The program counter of a byte machine

While an instruction of a byte machine is executed, the program counter is
moved by jumps, calls, returns and skips only: operands are found and results
are stored without it.
-/

namespace ClassroomCpu

namespace Exec

variable {arch : Architecture}

theorem keeps_effectiveAddress {kind : AddressingMode.Kind} {operandAddress : Nat}
    (indexed : kind = .indexedByX → (arch.registerIndex? indexRegisterName).isSome = true) :
    Keeps (OperandAccess.effectiveAddress arch kind operandAddress) := by
  unfold OperandAccess.effectiveAddress
  split
  · exact .of_pure _
  · exact (keeps_readAddress _).bind fun pointer => keeps_readAddress pointer
  · obtain ⟨index, found⟩ := Option.isSome_iff_exists.mp (indexed rfl)
    apply (keeps_readAddress _).bind
    intro base machine
    exact .of_eq
      (by simp only [bind_of_ok (get_apply machine), machine.registerNamed_index found]; rfl) rfl
  · exact (keeps_readAddress _).bind fun _ => keeps_counter.bind fun _ => .of_pure _
  · exact keeps_readAddress _

end Exec

namespace Fetched

open Exec

variable {arch : Architecture}

/-- The instruction gets at its operands, and keeps its results, apart from the program counter. -/
structure Apart (fetched : Fetched arch) : Prop where
  register : fetched.register ≠ some arch.counter
  address : Keeps fetched.operand.address
  value : Keeps fetched.operand.value
  choice : ∀ first, Keeps (fetched.operand.choice first)
  stackPointer : arch.registerAt? arch.stackPointerName ≠ some arch.counter

variable {fetched : Fetched arch} (apart : fetched.Apart)
include apart

theorem keeps_setRegister (value : Nat) : Keeps (fetched.setRegister value) :=
  .of_modify fun machine => machine.counter_setRegister? apart.register value

theorem keeps_setResult (value : Nat) : Keeps (fetched.setResult value) :=
  (keeps_setRegister apart value).bind fun _ => keeps_setSignAndZero _ _

theorem keeps_setOutcome (outcome : Alu.Outcome) (carryCode : FlagCode) :
    Keeps (fetched.setOutcome outcome carryCode) :=
  (keeps_setResult apart outcome.value).bind fun _ =>
    (keeps_setCode _ _).bind fun _ => keeps_setCode _ _

omit apart in
theorem keeps_registerValue (fetched : Fetched arch) : Keeps fetched.registerValue :=
  Keeps.of_get.bind fun _ => .of_pure _

theorem keeps_computeOnRegister : Keeps fetched.computeOnRegister := by
  apply (keeps_registerValue fetched).bind
  intro value
  apply keeps_status.bind
  intro status
  split
  · apply (keeps_setResult apart _).bind
    intro _
    split
    · exact keeps_setCode _ _
    · exact .of_pure _
  · exact .of_pure _

omit apart in
theorem keeps_jumpIf {condition : Bool}
    (stays : (condition && fetched.kind != .immediate) = false) :
    Keeps (fetched.jumpIf condition) := by
  unfold jumpIf
  rw [stays]
  exact .of_pure ()

omit apart in
theorem keeps_callInMemory (stays : (fetched.kind != .immediate) = false) :
    Keeps fetched.callInMemory := by
  unfold callInMemory
  rw [stays]
  exact .of_pure ()

/-- An instruction of an accumulator machine that goes on behind itself keeps the counter. -/
theorem ends_executeStandard {machine : Machine arch}
    (stays : fetched.instruction.leavesByte fetched.kind machine = false) :
    Ends fetched.executeStandard machine fun _ after => after.counter = machine.counter := by
  unfold executeStandard
  unfold Instruction.leavesByte at stays
  cases operation : fetched.instruction.operation <;> simp only [operation] at stays ⊢
  case store =>
    exact (apart.address.bind fun _ => (keeps_registerValue fetched).bind fun _ =>
      keeps_writeByte _ _) machine
  case load => exact (apart.value.bind fun _ => keeps_setResult apart _) machine
  case add | sub =>
    exact ((keeps_registerValue fetched).bind fun _ => apart.value.bind fun _ =>
      keeps_setOutcome apart _ _) machine
  case or | and =>
    exact ((keeps_registerValue fetched).bind fun _ => apart.value.bind fun _ =>
      keeps_setResult apart _) machine
  case jump test =>
    exact .after (status_apply machine) (keeps_jumpIf stays machine)
  case call => exact keeps_callInMemory stays machine
  case halt => exact keeps_setRunning false machine
  case choose => simp at stays
  all_goals exact keeps_computeOnRegister apart machine

omit apart in
theorem keeps_push (other : arch.registerAt? arch.stackPointerName ≠ some arch.counter)
    (value : Nat) : Keeps (push value : Exec arch Unit) := by
  apply Keeps.bind
  · exact .of_modify fun machine => machine.counter_setRegister? other _
  · exact fun _ => .of_modify fun machine => machine.counter_pokeStack _ _

/-- Taking a number from the stack gives the topmost one and moves the stack pointer. -/
theorem ends_pop (machine : Machine arch) :
    Ends pop machine fun value after =>
      value = machine.stackTop ∧ after.counter = machine.counter ∧
        after.memory = machine.memory :=
  .of_eq rfl ⟨rfl, machine.counter_setRegister? apart.stackPointer _,
    machine.memory_setRegister? _ _⟩

theorem keeps_pop : Keeps (pop : Exec arch Nat) :=
  fun machine => (ends_pop apart machine).mono fun _ _ left => left.2.1

omit apart in
theorem keeps_callOnStack (stays : (fetched.kind != .immediate) = false) :
    Keeps fetched.callOnStack := by
  unfold callOnStack
  rw [stays]
  exact .of_pure ()

/-- An instruction of a stack machine that goes on behind itself keeps the counter. -/
theorem ends_executeStack {machine : Machine arch}
    (stays : fetched.instruction.leavesByte fetched.kind machine = false) :
    Ends fetched.executeStack machine fun _ after => after.counter = machine.counter := by
  unfold executeStack
  unfold Instruction.leavesByte at stays
  cases operation : fetched.instruction.operation <;> simp only [operation] at stays ⊢
  case add | sub | and | or =>
    refine ((keeps_pop apart).bind fun _ => (keeps_pop apart).bind fun _ => ?_) machine
    split
    · exact keeps_push apart.stackPointer _
    · exact .of_pure ()
  case clear | not | neg | inc | dec | halve | double | rotateRight | rotateLeft =>
    refine ((keeps_pop apart).bind fun _ => ?_) machine
    split
    · exact keeps_push apart.stackPointer _
    · exact .of_pure ()
  case skip test =>
    apply (ends_pop apart machine).bind
    rintro top after ⟨rfl, same, _⟩
    simp only [stays]
    exact .of_pure same
  case push =>
    exact (apart.value.bind fun _ => keeps_push apart.stackPointer _) machine
  case pop =>
    exact (apart.address.bind fun _ => (keeps_pop apart).bind fun _ =>
      keeps_writeByte _ _) machine
  case jump test =>
    cases test with
    | always => exact keeps_jumpIf stays machine
    | _ => exact .of_pure rfl
  case call => exact keeps_callOnStack stays machine
  case ret => simp at stays
  case halt => exact keeps_setRunning false machine
  all_goals exact .of_pure rfl

/-- A skip that is taken passes over one more instruction, the one at the counter. -/
theorem ends_executeStack_skip {test : SkipTest}
    (operation : fetched.instruction.operation = .skip test) {machine : Machine arch}
    (taken : test.holds (Alu.signed 8 machine.stackTop) = true) :
    Ends fetched.executeStack machine fun _ after =>
      after.counter =
        (machine.counter + arch.opcodeBytes (machine.peek machine.counter)) %
          arch.counterSize := by
  simp only [executeStack, operation]
  apply (ends_pop apart machine).bind
  rintro top after ⟨rfl, sameCounter, sameMemory⟩
  simp only [taken, if_true]
  refine .of_eq rfl ?_
  change (after.countAccess.setCounter
    ((after.counter + arch.opcodeBytes (after.peek after.counter) : Nat) : Int)).counter = _
  rw [Machine.counter_setCounter_natCast, sameCounter, Machine.peek, sameMemory, ← Machine.peek]

end Fetched

end ClassroomCpu
