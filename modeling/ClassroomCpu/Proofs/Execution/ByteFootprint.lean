import ClassroomCpu.Proofs.Execution.ByteCalls
import ClassroomCpu.Proofs.Execution.Footprint

/-!
# Footprints of byte machines

A step of a byte machine moves its program counter and the register that its
opcode selects.  It writes a single cell of memory, except for a call, which
stores an address where it leads.  On a stack machine it moves the stack pointer
as well and writes a single cell of the stack.
-/

namespace ClassroomCpu

open Assembly (cellsFrom)
open Exec

variable {arch : Architecture} {footprint : Footprint arch}

/-! ## Operands -/

/-- Whatever access to an operand does, it changes no part of the machine. -/
structure OperandAccess.Reads (operand : OperandAccess arch) : Prop where
  address : ∀ (footprint : Footprint arch) machine, Within footprint operand.address machine
  value : ∀ (footprint : Footprint arch) machine, Within footprint operand.value machine
  choice : ∀ (footprint : Footprint arch) first machine,
    Within footprint (operand.choice first) machine

theorem OperandAccess.within_effectiveAddress (kind : AddressingMode.Kind) (operandAddress : Nat)
    (machine : Machine arch) :
    Within footprint (effectiveAddress arch kind operandAddress) machine := by
  have read (address : Nat) (machine : Machine arch) :
      Within footprint (readAddress address) machine := within_readAddress machine address
  cases kind with
  | immediate => exact .of_pure _
  | indirect => exact (read _ _).bind fun _ between _ => read _ between
  | indexedByX =>
      refine (read _ _).bind fun _ _ _ => .bind .of_get fun registers next _ =>
        Within.bind ?_ fun _ _ _ => .of_pure _
      cases registers.registerNamed indexRegisterName with
      | ok index => exact .of_pure index
      | error fault => exact .of_throw fault
  | indexedByCounter =>
      exact (read _ _).bind fun _ between _ => (within_counter between).bind fun _ _ _ => .of_pure _
  | _ => exact read _ _

theorem OperandAccess.reads_inMemory (kind : AddressingMode.Kind) (operandAddress : Nat) :
    (inMemory arch kind operandAddress).Reads where
  address _ machine := within_effectiveAddress kind operandAddress machine
  value _ machine := (within_effectiveAddress kind operandAddress machine).bind
    fun _ between _ => (within_readByte between _).bind fun _ _ _ => .of_pure _
  choice _ _ machine := within_readAddress machine _

/-! ## Instructions -/

namespace Fetched

variable {fetched : Fetched arch} {machine : Machine arch}

theorem within_registerValue : Within footprint fetched.registerValue machine :=
  .bind .of_get fun _ _ _ => .of_pure _

/-- There is room for what an instruction that is executed at a machine may change. -/
structure HasRoom (fetched : Fetched arch) (machine : Machine arch) (footprint : Footprint arch) :
    Prop where
  counter : footprint.registers arch.counter
  working : ∀ index, fetched.register = some index → footprint.registers index
  stores : fetched.instruction.operation = .store ∨ fetched.instruction.operation = .pop →
    ∀ target between, fetched.operand.address machine = .ok target between →
      footprint.memory (arch.cell target)
  halts : fetched.instruction.operation = .halt → footprint.running

theorem HasRoom.pushing (room : fetched.HasRoom machine footprint)
    (cell : Option (Fin arch.stackSize)) : fetched.HasRoom machine (footprint.pushing cell) :=
  ⟨room.counter, room.working, room.stores, room.halts⟩

section Register

variable (working : ∀ index, fetched.register = some index → footprint.registers index)
include working

theorem within_setResult (value : Nat) (machine : Machine arch) :
    Within footprint (fetched.setResult value) machine :=
  .bind (.of_modify (.setRegister? working machine _)) fun _ between _ =>
    within_setSignAndZero between _ _

theorem within_setOutcome (outcome : Alu.Outcome) (carryCode : FlagCode) (machine : Machine arch) :
    Within footprint (fetched.setOutcome outcome carryCode) machine :=
  (within_setResult working _ machine).bind fun _ between _ =>
    (within_setCode between _ _).bind fun _ next _ => within_setCode next _ _

theorem within_computeOnRegister (machine : Machine arch) :
    Within footprint fetched.computeOnRegister machine := by
  refine within_registerValue.bind fun _ between _ =>
    (within_status between).bind fun _ next _ => ?_
  split
  · refine (within_setResult working _ next).bind fun _ last _ => ?_
    split
    · exact within_setCode last _ _
    · exact .of_pure ()
  · exact .of_pure ()

end Register

variable (reads : fetched.operand.Reads)
include reads

theorem within_jumpIf (counter : footprint.registers arch.counter) (condition : Bool)
    (machine : Machine arch) : Within footprint (fetched.jumpIf condition) machine := by
  unfold jumpIf
  split
  · exact (reads.address footprint machine).bind fun _ between _ =>
      within_setCounter between counter _
  · exact .of_pure ()

variable (room : fetched.HasRoom machine footprint)
include room

theorem within_callInMemory
    (links : ∀ target between, fetched.operand.address machine = .ok target between →
      ∀ cell ∈ cellsFrom arch target arch.addressBytes, footprint.memory cell) :
    Within footprint fetched.callInMemory machine := by
  unfold callInMemory
  split
  · refine (reads.address footprint machine).bind fun target between found =>
      (within_counter between).bind fun returnAddress next _ => ?_
    have allowed : ∀ cell ∈ cellsFrom arch target
        (arch.byteOrder.encode arch.addressBytes returnAddress).length, footprint.memory cell := by
      rw [ByteOrder.length_encode]
      exact links target between found
    exact (within_writeBytes next allowed).bind fun _ last _ =>
      within_setCounter last room.counter _
  · exact .of_pure ()

theorem within_executeStandard
    (links : fetched.instruction.operation = .call →
      ∀ target between, fetched.operand.address machine = .ok target between →
        ∀ cell ∈ cellsFrom arch target arch.addressBytes, footprint.memory cell) :
    Within footprint fetched.executeStandard machine := by
  have value (machine : Machine arch) : Within footprint fetched.registerValue machine :=
    within_registerValue
  unfold executeStandard
  cases operation : fetched.instruction.operation with
  | store =>
      exact (reads.address _ _).bind fun target between found => (value between).bind
        fun _ next _ => within_writeByte next (room.stores (.inl operation) target between found) _
  | load =>
      exact (reads.value _ _).bind fun _ between _ => within_setResult room.working _ between
  | add | sub =>
      exact (value _).bind fun _ between _ => (reads.value _ between).bind fun _ next _ =>
        within_setOutcome room.working _ _ next
  | or | and =>
      exact (value _).bind fun _ between _ => (reads.value _ between).bind fun _ next _ =>
        within_setResult room.working _ next
  | jump test =>
      exact (within_status _).bind fun _ between _ => within_jumpIf reads room.counter _ between
  | call => exact within_callInMemory reads room (links operation)
  | choose =>
      exact (value _).bind fun _ between _ => (reads.choice _ _ between).bind fun _ next _ =>
        within_setCounter next room.counter _
  | halt => exact within_setRunning machine (room.halts operation) false
  | _ => exact within_computeOnRegister room.working machine

end Fetched

/-! ## Stack machines -/

namespace Exec

/-- There is room for the stack pointer. -/
def HasPointer (footprint : Footprint arch) : Prop :=
  ∀ index, arch.registerAt? arch.stackPointerName = some index → footprint.registers index

theorem HasPointer.pushing (pointer : HasPointer footprint) (cell : Option (Fin arch.stackSize)) :
    HasPointer (footprint.pushing cell) :=
  pointer

variable (pointer : HasPointer footprint)
include pointer

theorem within_pop (machine : Machine arch) : Within footprint pop machine :=
  .bind .of_get fun _ _ _ => .bind .of_get fun _ next _ =>
    .bind (.of_modify (.setRegister? pointer next _)) fun _ _ _ => .of_pure _

/-- A push writes the cell that the stack pointer means behind it. -/
theorem withinPush_push (value : Nat) (machine : Machine arch) :
    WithinPush footprint (push value) machine := by
  let place := arch.registerAt? arch.stackPointerName
  let moved := machine.setRegister? (machine.register? place + 1) place
  refine ⟨Machine.stackCell? arch (moved.register? place),
    .bind (.of_modify (.setRegister? (pointer.pushing _) machine _)) ?_⟩
  rintro _ between ⟨⟩
  exact .of_modify (.pokeStack rfl moved _)

theorem withinPush_pop {next : Nat → Exec arch Unit} {machine : Machine arch}
    (second : ∀ top between, WithinPush footprint (next top) between) :
    WithinPush footprint (do let top ← pop; next top) machine :=
  .bind_left (fun cell => within_pop (pointer.pushing cell) machine) fun top between _ =>
    second top between

end Exec

namespace Fetched

variable {fetched : Fetched arch} {machine : Machine arch} (reads : fetched.operand.Reads)
  (room : fetched.HasRoom machine footprint) (pointer : HasPointer footprint)
include reads room pointer

theorem withinPush_callOnStack : WithinPush footprint fetched.callOnStack machine := by
  unfold callOnStack
  split
  · refine .bind_left (fun _ => reads.address _ machine) fun _ between _ =>
      .bind_left (fun _ => within_counter between) fun _ next _ => ?_
    exact (withinPush_push pointer _ next).bind fun cell _ last _ =>
      within_setCounter last (room.pushing cell).counter _
  · exact .of_within fun _ => .of_pure ()

theorem withinPush_executeStack : WithinPush footprint fetched.executeStack machine := by
  have push (value : Nat) (machine : Machine arch) : WithinPush footprint (push value) machine :=
    withinPush_push pointer value machine
  have nothing (machine : Machine arch) : WithinPush footprint (pure ()) machine :=
    .of_within fun _ => .of_pure ()
  unfold executeStack
  cases operation : fetched.instruction.operation with
  | add | sub | and | or =>
      refine withinPush_pop pointer fun _ _ => withinPush_pop pointer fun _ next => ?_
      split
      · exact push _ next
      · exact nothing next
  | clear | not | neg | inc | dec | halve | double | rotateRight | rotateLeft =>
      refine withinPush_pop pointer fun _ between => ?_
      split
      · exact push _ between
      · exact nothing between
  | skip test =>
      refine withinPush_pop pointer fun _ between => ?_
      split
      · exact .of_within fun cell => (within_counter between).bind fun _ next _ =>
          (within_readByte next _).bind fun _ last _ =>
            within_setCounter last (room.pushing cell).counter _
      · exact nothing between
  | push =>
      exact .bind_left (fun _ => reads.value _ machine) fun _ between _ => push _ between
  | pop =>
      exact .of_within fun cell => (reads.address _ machine).bind fun target between found =>
        (within_pop (pointer.pushing cell) between).bind fun _ next _ =>
          within_writeByte next ((room.pushing cell).stores (.inr operation) target between found) _
  | jump test =>
      cases test with
      | always =>
          exact .of_within fun cell => within_jumpIf reads (room.pushing cell).counter true machine
      | _ => exact nothing machine
  | call => exact withinPush_callOnStack reads room pointer
  | ret =>
      exact withinPush_pop pointer fun _ between => .of_within fun cell =>
        within_setCounter between (room.pushing cell).counter _
  | halt =>
      exact .of_within fun cell =>
        within_setRunning machine ((room.pushing cell).halts operation) false
  | _ => exact nothing machine

end Fetched

/-! ## Steps -/

namespace Machine

/-- There is room for what the next step of a byte machine may change apart from its stack. -/
structure HasRoom (machine : Machine arch) (footprint : Footprint arch) : Prop where
  counter : footprint.registers arch.counter
  working : ∀ instruction, arch.instruction? (machine.peek machine.counter) = some instruction →
    ∀ index, arch.workingRegister? instruction (machine.peek machine.counter) = some index →
      footprint.registers index
  stores : machine.operationAhead? = some .store ∨ machine.operationAhead? = some .pop →
    footprint.memory (arch.cell machine.target)
  halts : machine.operationAhead? = some .halt → footprint.running

variable {machine : Machine arch} {instruction : Instruction}

theorem HasRoom.pushing (room : machine.HasRoom footprint) (cell : Option (Fin arch.stackSize)) :
    machine.HasRoom (footprint.pushing cell) :=
  ⟨room.counter, room.working, room.stores, room.halts⟩

theorem operationAhead?_eq
    (known : arch.instruction? (machine.peek machine.counter) = some instruction) :
    machine.operationAhead? = some instruction.operation := by
  rw [operationAhead?, operationAt?, known, Option.map_some]

/-- The operand is found at its target. -/
theorem operandAddress_eq (facts : arch.IndexApart)
    (known : arch.instruction? (machine.peek machine.counter) = some instruction)
    {cell : Nat} {between : Machine arch}
    (found : (machine.fetched instruction).operand.address (machine.pastFetch instruction) =
      .ok cell between) : cell = machine.target := by
  obtain ⟨_, _, ends, same, -⟩ := ends_operandAddress facts known
  rw [found] at ends
  cases ends
  exact same

theorem HasRoom.fetched (facts : arch.IndexApart) (room : machine.HasRoom footprint)
    (known : arch.instruction? (machine.peek machine.counter) = some instruction) :
    (machine.fetched instruction).HasRoom (machine.pastFetch instruction) footprint where
  counter := room.counter
  working index found := by
    simp only [Machine.fetched] at found
    exact room.working instruction known index found
  stores operation cell between found := by
    rw [operandAddress_eq facts known found]
    apply room.stores
    rw [operationAhead?_eq known]
    exact operation.imp (congrArg some) (congrArg some)
  halts operation := room.halts ((operationAhead?_eq known).trans (congrArg some operation))

end Machine

namespace Exec

variable {machine : Machine arch}

theorem covers_pastFetch (counter : footprint.registers arch.counter)
    (instruction : Instruction) : footprint.Covers machine (machine.pastFetch instruction) := by
  have opcode : footprint.Covers machine machine.pastOpcode :=
    within_fetchByte machine counter _ _ (fetchByte_apply machine)
  unfold Machine.pastFetch Machine.pastOperand
  split
  · exact opcode.trans (.setRegister counter _ _)
  · exact opcode

/-- Counting the instruction changes no part of the machine. -/
theorem Within.counted {instruction : Exec arch Unit}
    (within : Within footprint instruction machine) :
    Within footprint (do instruction; modify Machine.countInstruction) machine :=
  within.bind fun _ _ _ => .of_modify (.of_same rfl rfl rfl rfl rfl rfl)

/-- An instruction that is fetched changes what its execution changes, and moves past itself. -/
theorem within_byteInstruction (counter : footprint.registers arch.counter)
    (executes : ∀ instruction,
      arch.instruction? (machine.peek machine.counter) = some instruction →
        Within footprint (match arch.model with
          | .stack => (machine.fetched instruction).executeStack
          | _ => (machine.fetched instruction).executeStandard) (machine.pastFetch instruction)) :
    Within footprint byteInstruction machine := by
  intro result after ends
  unfold byteInstruction at ends
  cases known : arch.instruction? (machine.peek machine.counter) with
  | none =>
      rw [bind_of_ok (fetch_of_none known)] at ends
      cases ends
      exact within_fetchByte machine counter _ _ (fetchByte_apply machine)
  | some instruction =>
      rw [bind_of_ok (fetch_of_some known)] at ends
      exact (covers_pastFetch counter instruction).trans
        (executes instruction known result after ends)

section Steps

variable (facts : arch.IndexApart) (room : machine.HasRoom footprint)
include facts room

/-- A step of a machine without a stack apart from memory stays within a footprint with room. -/
theorem within_step_of_standard (standard : arch.model = .standard)
    (links : machine.operationAhead? = some .call →
      ∀ cell ∈ cellsFrom arch machine.target arch.addressBytes, footprint.memory cell) :
    Within footprint step machine := by
  rw [step_of_byte facts.byteMachine]
  refine (within_byteInstruction room.counter fun instruction known => ?_).counted
  simp only [standard]
  refine Fetched.within_executeStandard (OperandAccess.reads_inMemory _ _)
    (room.fetched facts known) fun calls target between found => ?_
  rw [Machine.operandAddress_eq facts known found]
  exact links ((Machine.operationAhead?_eq known).trans (congrArg some calls))

/-- A step of a stack machine stays within a footprint with room, a cell of the stack apart. -/
theorem withinPush_step_of_stack (stack : arch.model = .stack) (pointer : HasPointer footprint) :
    WithinPush footprint step machine := by
  rw [step_of_byte facts.byteMachine]
  cases known : arch.instruction? (machine.peek machine.counter) with
  | none =>
      have counter := (room.pushing none).counter
      refine ⟨none, (within_byteInstruction counter fun instruction other => ?_).counted⟩
      rw [known] at other
      contradiction
  | some instruction =>
      obtain ⟨cell, within⟩ := Fetched.withinPush_executeStack
        (OperandAccess.reads_inMemory _ _) (room.fetched facts known) pointer
      have counter := (room.pushing cell).counter
      refine ⟨cell, (within_byteInstruction counter fun other same => ?_).counted⟩
      rw [known] at same
      cases same
      simp only [stack]
      exact within

end Steps

end Exec

end ClassroomCpu
