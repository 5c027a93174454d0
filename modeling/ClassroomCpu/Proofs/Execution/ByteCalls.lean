import ClassroomCpu.Proofs.Catalog.Registers
import ClassroomCpu.Proofs.Execution.ByteStep
import ClassroomCpu.Proofs.Execution.StackCells
import ClassroomCpu.Proofs.Execution.Storing
import ClassroomCpu.Proofs.Machine.Sound

/-!
# Calls of byte machines

A machine without a stack stores the return address where its call leads and
goes on behind it, so that a jump through this address returns.  Volta keeps
return addresses on its stack.  Both return behind the call.
-/

namespace ClassroomCpu

variable {arch : Architecture}

namespace Machine

variable (machine : Machine arch)

/-! ## The next instruction -/

/-- The operation of the instruction at an address, if there is one. -/
def operationAt? (address : Nat) : Option Operation :=
  (arch.instruction? (machine.peek address)).map (·.operation)

/-- The operation of the next instruction, if there is one. -/
def operationAhead? : Option Operation :=
  machine.operationAt? machine.counter

/-- The kind of addressing of the next instruction of a byte machine. -/
def kindAhead : AddressingMode.Kind :=
  arch.addressingKind (machine.peek machine.counter)

/-- The address behind the next instruction of a byte machine. -/
def behind : Nat :=
  (machine.counter + arch.opcodeBytes (machine.peek machine.counter)) % arch.counterSize

/-- The address that is stored at an address. -/
def storedAddress (address : Nat) : Nat :=
  arch.cell (machine.peekNumber arch.byteOrder arch.addressBytes address)

/--
The cell that the operand of an instruction means whose bytes lie in memory from
`address` on, if the program counter is `next` by then.
-/
def operandCell (kind : AddressingMode.Kind) (address next : Nat) : Nat :=
  match kind with
  | .immediate => arch.cell address
  | .indirect => machine.storedAddress (machine.storedAddress address)
  | .indexedByX =>
      arch.cell (machine.storedAddress address
        + machine.register? (arch.registerIndex? indexRegisterName))
  | .indexedByCounter => arch.cell (machine.storedAddress address + next)
  | _ => machine.storedAddress address

/-- The cell that the operand of the next instruction means, on a byte machine. -/
def target : Nat :=
  machine.operandCell machine.kindAhead (machine.counter + 1) machine.behind

theorem operandCell_lt (kind : AddressingMode.Kind) (address next : Nat) :
    machine.operandCell kind address next < arch.memorySize := by
  unfold operandCell storedAddress
  split <;> exact Fin.isLt _

theorem behind_lt : machine.behind < arch.counterSize :=
  Nat.mod_lt _ (powerOfTwo_pos _)

theorem counter_pastFetch_eq_behind (byteMachine : arch.model ≠ .word) {instruction : Instruction}
    (known : arch.instruction? (machine.peek machine.counter) = some instruction) :
    (machine.pastFetch instruction).counter = machine.behind := by
  rw [machine.counter_pastFetch byteMachine, behind, Architecture.opcodeBytes, known]

/-! ## What is read again -/

/-- Memory, registers and stack are as they were. -/
structure SameCells (machine after : Machine arch) : Prop where
  memory : after.memory = machine.memory
  registers : after.registers = machine.registers
  stack : after.stack = machine.stack

variable {machine} {between after : Machine arch}

theorem SameCells.trans (first : machine.SameCells between) (second : between.SameCells after) :
    machine.SameCells after :=
  ⟨second.memory.trans first.memory, second.registers.trans first.registers,
    second.stack.trans first.stack⟩

theorem SameCells.counter (same : machine.SameCells after) : after.counter = machine.counter := by
  rw [Machine.counter, register, same.registers]
  rfl

theorem sameCells_countAccesses (machine : Machine arch) (count : Nat) :
    machine.SameCells (machine.countAccesses count) := by
  induction count generalizing machine with
  | zero => exact ⟨rfl, rfl, rfl⟩
  | succ count induction =>
      have counted : machine.SameCells machine.countAccess := ⟨rfl, rfl, rfl⟩
      exact counted.trans (induction machine.countAccess)

theorem storedAddress_congr (memory : after.memory = machine.memory) {address place : Nat}
    (same : place % arch.memorySize = address % arch.memorySize) :
    after.storedAddress place = machine.storedAddress address := by
  have there : machine.Holds address (machine.peekBytes address arch.addressBytes) := by
    rw [Holds, length_peekBytes]
  have moved := there.congr memory same
  rw [Holds, length_peekBytes] at moved
  rw [storedAddress, storedAddress, peekNumber, peekNumber, moved]

theorem operandCell_congr (memory : after.memory = machine.memory)
    (indexed : after.register? (arch.registerIndex? indexRegisterName) =
      machine.register? (arch.registerIndex? indexRegisterName))
    {address place : Nat} (same : place % arch.memorySize = address % arch.memorySize)
    (kind : AddressingMode.Kind) (next : Nat) :
    after.operandCell kind place next = machine.operandCell kind address next := by
  unfold operandCell
  rw [storedAddress_congr memory same, indexed, storedAddress_congr memory rfl,
    Architecture.cell_congr same]

/-- An address that was stored is read again. -/
theorem Holds.storedAddress_eq {address value : Nat}
    (there : machine.Holds address (arch.byteOrder.encode arch.addressBytes value))
    (inside : value < arch.memorySize) (fits : arch.memorySize ≤ 256 ^ arch.addressBytes) :
    machine.storedAddress address = value := by
  rw [storedAddress, there.peekNumber_of_lt (Nat.lt_of_lt_of_le inside fits)]
  exact Nat.mod_eq_of_lt inside

end Machine

/-! ## Going to an operand -/

/-- A byte machine whose index register, if it has one, is not the program counter. -/
structure Architecture.IndexApart (arch : Architecture) : Prop extends arch.CounterApart where
  byteMachine : arch.model ≠ .word
  indexApart : arch.registerIndex? indexRegisterName ≠ some arch.counter

theorem Catalog.indexApart_of_byte : ∀ arch ∈ machines, arch.model ≠ .word → arch.IndexApart := by
  have named : ∀ arch ∈ machines, arch.model ≠ .word →
      arch.registerIndex? indexRegisterName ≠ some arch.counter :=
    forall_byteMachine (by decide +kernel) (by decide +kernel) (by decide +kernel)
      (by decide +kernel) (by decide +kernel) (by decide +kernel)
  intro arch member byteMachine
  exact ⟨counterApart_of_byte arch member byteMachine, byteMachine, named arch member byteMachine⟩

namespace Exec

theorem ends_effectiveAddress {kind : AddressingMode.Kind}
    (indexed : kind = .indexedByX → (arch.registerIndex? indexRegisterName).isSome = true)
    (address : Nat) (machine : Machine arch) :
    Ends (OperandAccess.effectiveAddress arch kind address) machine fun cell after =>
      cell = machine.operandCell kind address machine.counter ∧ machine.SameCells after := by
  have read (place : Nat) (machine : Machine arch) :
      readAddress place machine =
        .ok (machine.storedAddress place) (machine.countAccesses arch.addressBytes) :=
    readAddress_apply place machine
  have same (machine : Machine arch) := machine.sameCells_countAccesses arch.addressBytes
  unfold OperandAccess.effectiveAddress Machine.operandCell
  cases kind with
  | immediate => exact .of_pure ⟨rfl, rfl, rfl, rfl⟩
  | indirect =>
      apply Ends.after (read address machine)
      exact .of_eq (read _ _)
        ⟨Machine.storedAddress_congr (same machine).memory rfl, (same machine).trans (same _)⟩
  | indexedByX =>
      obtain ⟨index, found⟩ := Option.isSome_iff_exists.mp (indexed rfl)
      apply Ends.after (read address machine)
      rw [found]
      apply Ends.after (get_apply _)
      rw [Machine.registerNamed_index found, Machine.register_countAccesses]
      exact .of_eq rfl ⟨rfl, same machine⟩
  | indexedByCounter =>
      apply Ends.after (read address machine)
      apply Ends.after (counter_apply _)
      rw [(same machine).counter]
      exact .of_pure ⟨rfl, same machine⟩
  | _ => exact .of_eq (read address machine) ⟨rfl, same machine⟩

section Known

variable (facts : arch.IndexApart) {machine : Machine arch} {instruction : Instruction}
  (known : arch.instruction? (machine.peek machine.counter) = some instruction)
include facts known

/-- An instruction that is fetched finds the cell of its operand. -/
theorem ends_operandAddress :
    Ends (machine.fetched instruction).operand.address (machine.pastFetch instruction)
      fun cell after =>
        cell = machine.target ∧ (machine.pastFetch instruction).SameCells after := by
  have same : (machine.pastFetch instruction).operandCell machine.kindAhead
      machine.pastOpcode.counter (machine.pastFetch instruction).counter = machine.target := by
    rw [machine.counter_pastFetch_eq_behind facts.byteMachine known]
    apply Machine.operandCell_congr (machine.memory_pastFetch instruction)
      (machine.register?_pastFetch facts.indexApart instruction)
    rw [machine.counter_pastOpcode, facts.size, Nat.mod_mod]
  rw [← same]
  exact ends_effectiveAddress (facts.index _) _ _

/-- A jump that is not conditional goes on at its operand. -/
theorem ends_jumpIf (notImmediate : machine.kindAhead ≠ .immediate) :
    Ends ((machine.fetched instruction).jumpIf true) (machine.pastFetch instruction)
      fun _ after => after.counter = machine.target := by
  have jumps : ((machine.fetched instruction).kind != .immediate) = true :=
    bne_iff_ne.mpr notImmediate
  unfold Fetched.jumpIf
  rw [Bool.true_and, if_pos jumps]
  apply (ends_operandAddress facts known).bind
  rintro cell between ⟨rfl, -⟩
  refine .of_eq (setCounter_apply _ between) ?_
  rw [between.counter_setCounter_natCast, facts.size]
  exact Nat.mod_eq_of_lt (machine.operandCell_lt _ _ _)

end Known

end Exec

/-! ## Calls that store the return address -/

/--
The return address is stored at the operand of a call and nothing else in
memory is changed; the machine goes on behind it, and a jump there through this
address goes on behind the call.
-/
structure Machine.LinkedInMemory (machine after : Machine arch) : Prop where
  stored : machine.Stored machine.target (arch.byteOrder.encode arch.addressBytes machine.behind)
    after
  counter : after.counter = (machine.target + arch.addressBytes) % arch.counterSize
  returns : after.operationAhead? = some (.jump .always) → after.kindAhead = .indirect →
    after.storedAddress (after.counter + 1) = machine.target →
      Exec.Ends Exec.step after fun _ last => last.counter = machine.behind

namespace Exec

section Standard

variable (standard : arch.model = .standard)
include standard

theorem ends_step_of_standard {machine : Machine arch} {instruction : Instruction}
    (known : arch.instruction? (machine.peek machine.counter) = some instruction)
    {described : Unit → Machine arch → Prop}
    (ends : Ends (machine.fetched instruction).executeStandard (machine.pastFetch instruction)
      fun result after => described result after.countInstruction) :
    Ends step machine described := by
  obtain ⟨_, after, executed, holds⟩ := ends
  have fetches : (byteInstruction : Exec arch Unit) machine = .ok () after := by
    unfold byteInstruction
    rw [bind_of_ok (fetch_of_some known)]
    simp only [standard]
    exact executed
  rw [step_of_byte (by simp [standard])]
  exact .of_eq (bind_of_ok fetches) holds

variable (facts : arch.IndexApart) (fits : arch.memorySize ≤ 256 ^ arch.addressBytes)
  {machine : Machine arch}
include facts

theorem ends_step_of_jump (jumps : machine.operationAhead? = some (.jump .always))
    (notImmediate : machine.kindAhead ≠ .immediate) :
    Ends step machine fun _ after => after.counter = machine.target := by
  obtain ⟨instruction, known, operation⟩ := Option.map_eq_some_iff.mp jumps
  apply ends_step_of_standard standard known
  have executes : (machine.fetched instruction).executeStandard = (do
      let status ← Exec.status
      (machine.fetched instruction).jumpIf (JumpTest.always.holds status)) := by
    unfold Fetched.executeStandard
    rw [show (machine.fetched instruction).instruction.operation = _ from operation]
  rw [executes]
  exact .after (status_apply _) (ends_jumpIf facts known notImmediate)

include fits

theorem linkedInMemory_step (inside : arch.addressBytes ≤ arch.memorySize)
    (calls : machine.operationAhead? = some .call) (notImmediate : machine.kindAhead ≠ .immediate) :
    Ends step machine fun _ => machine.LinkedInMemory := by
  obtain ⟨instruction, known, operation⟩ := Option.map_eq_some_iff.mp calls
  apply ends_step_of_standard standard known
  have executes : (machine.fetched instruction).executeStandard =
      (machine.fetched instruction).callInMemory := by
    unfold Fetched.executeStandard
    rw [show (machine.fetched instruction).instruction.operation = _ from operation]
  have taken : ((machine.fetched instruction).kind != .immediate) = true :=
    bne_iff_ne.mpr notImmediate
  rw [executes, Fetched.callInMemory, if_pos taken]
  apply (ends_operandAddress facts known).bind
  rintro cell found ⟨rfl, same⟩
  apply Ends.after (counter_apply found)
  rw [same.counter, machine.counter_pastFetch_eq_behind facts.byteMachine known]
  apply (stored_writeBytes machine.target (arch.byteOrder.encode arch.addressBytes machine.behind)
    (by rwa [ByteOrder.length_encode]) found).bind
  rintro _ between ⟨stored, -⟩
  let after := (between.setCounter (machine.target + arch.addressBytes)).countInstruction
  have linked : machine.Stored machine.target
      (arch.byteOrder.encode arch.addressBytes machine.behind) after :=
    stored.congr (same.memory.trans (machine.memory_pastFetch instruction)) rfl
  refine .of_eq (setCounter_apply _ between) ⟨linked, ?_, fun jumps indirect through => ?_⟩
  · exact between.counter_setCounter_natCast (machine.target + arch.addressBytes)
  · apply (ends_step_of_jump standard facts jumps (by simp [indirect])).mono
    rintro _ last goes
    rw [goes, Machine.target, indirect, Machine.operandCell, through]
    exact linked.there.storedAddress_eq (facts.size ▸ machine.behind_lt) fits

end Standard

end Exec

/-! ## Calls on the stack -/

section Stack

open Catalog (volta)

variable {machine : Machine volta}

namespace Exec

/-- A call of Volta leaves memory as it is, and the return address on the stack. -/
theorem ends_step_of_call_volta (calls : machine.operationAhead? = some .call)
    (notImmediate : machine.kindAhead ≠ .immediate) :
    Ends step machine fun _ after =>
      after.counter = machine.target ∧ after.memory = machine.memory ∧
        after.stackPointer = (machine.stackPointer + 1) % 64 ∧
          after.peekStack after.stackPointer = UInt8.ofNat machine.behind := by
  have facts := Catalog.indexApart_of_byte volta (by simp [Catalog.machines]) (by decide)
  obtain ⟨instruction, known, operation⟩ := Option.map_eq_some_iff.mp calls
  obtain ⟨_, found, finds, rfl, same⟩ := ends_operandAddress facts known
  have taken : ((machine.fetched instruction).kind != .immediate) = true :=
    bne_iff_ne.mpr notImmediate
  let after := (found.pushed machine.behind).setCounter machine.target
  have ends : (machine.fetched instruction).executeStack (machine.pastFetch instruction) =
      .ok () after := by
    have executes : (machine.fetched instruction).executeStack =
        (machine.fetched instruction).callOnStack := by
      unfold Fetched.executeStack
      rw [show (machine.fetched instruction).instruction.operation = _ from operation]
    rw [executes, Fetched.callOnStack, if_pos taken, bind_of_ok finds,
      bind_of_ok (counter_apply found), same.counter,
      machine.counter_pastFetch_eq_behind facts.byteMachine known,
      bind_of_ok (push_volta found machine.behind)]
    rfl
  have pointer : found.stackPointer = machine.stackPointer := by
    rw [Machine.stackPointer, Machine.register, same.registers]
    exact machine.stackPointer_pastFetch instruction
  refine .of_eq (step_volta known ends) ⟨?_, ?_, ?_, ?_⟩
  · rw [Machine.counter_countInstruction, Machine.counter_setCounter_natCast, facts.size]
    exact Nat.mod_eq_of_lt (machine.operandCell_lt _ _ _)
  · change (found.pushed machine.behind).memory = _
    rw [Machine.memory_pushed, same.memory, machine.memory_pastFetch]
  · rw [Machine.stackPointer_countInstruction, Machine.stackPointer_setCounter,
      Machine.stackPointer_pushed, pointer]
  · rw [Machine.peekStack_countInstruction, Machine.stackPointer_countInstruction,
      Machine.stackPointer_setCounter, Machine.stackPointer_pushed]
    change (found.pushed machine.behind).peekStack _ = _
    rw [Machine.peekStack_pushed, if_pos (Nat.mod_mod _ _)]

theorem ends_step_of_ret_volta (returns : machine.operationAhead? = some .ret) :
    Ends step machine fun _ after =>
      after.counter = (machine.peekStack machine.stackPointer).toNat ∧
        after.stackPointer = (machine.stackPointer + 63) % 64 := by
  obtain ⟨instruction, known, operation⟩ := Option.map_eq_some_iff.mp returns
  let popped := (machine.pastFetch instruction).popped
  let address := (machine.peekStack machine.stackPointer).toNat
  have ends : (machine.fetched instruction).executeStack (machine.pastFetch instruction) =
      .ok () (popped.setCounter address) := by
    have executes : (machine.fetched instruction).executeStack = (do
        let address ← Exec.pop
        Exec.setCounter address) := by
      unfold Fetched.executeStack
      rw [show (machine.fetched instruction).instruction.operation = _ from operation]
    rw [executes, bind_of_ok (pop_volta _), Machine.stackPointer_pastFetch,
      Machine.peekStack_pastFetch]
    rfl
  refine .of_eq (step_volta known ends) ⟨?_, ?_⟩
  · rw [Machine.counter_countInstruction, Machine.counter_setCounter_natCast]
    exact Nat.mod_eq_of_lt (UInt8.toNat_lt _)
  · rw [Machine.stackPointer_countInstruction, Machine.stackPointer_setCounter,
      Machine.stackPointer_popped, Machine.stackPointer_pastFetch]

/-- A return where a call of Volta leads goes on behind the call and restores the stack pointer. -/
theorem returns_step_volta (sound : machine.Sound) (calls : machine.operationAhead? = some .call)
    (notImmediate : machine.kindAhead ≠ .immediate)
    (returns : machine.operationAt? machine.target = some .ret) :
    Ends step machine fun _ after =>
      after.counter = machine.target ∧
        Ends step after fun _ last =>
          last.counter = machine.behind ∧ last.stackPointer = machine.stackPointer := by
  apply (ends_step_of_call_volta calls notImmediate).mono
  rintro _ after ⟨counter, memory, pointer, top⟩
  have ahead : after.operationAhead? = some .ret := by
    rw [Machine.operationAhead?, counter, ← returns, Machine.operationAt?, Machine.operationAt?,
      Machine.peek, memory]
    rfl
  refine ⟨counter, (ends_step_of_ret_volta ahead).mono ?_⟩
  rintro _ last ⟨goes, restores⟩
  have small : machine.behind < 256 := machine.behind_lt
  have bounded : machine.stackPointer < 64 := sound.registers ⟨1, by decide⟩
  rw [goes, top, restores, pointer]
  exact ⟨UInt8.toNat_ofNat_of_lt' small, by omega⟩

end Exec

end Stack

end ClassroomCpu
