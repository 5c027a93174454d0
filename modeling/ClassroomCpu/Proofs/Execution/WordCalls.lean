import ClassroomCpu.Proofs.Execution.ByteCalls
import ClassroomCpu.Proofs.Execution.Total
import ClassroomCpu.Proofs.Execution.WordReference
import ClassroomCpu.Proofs.Execution.Write

/-!
# Calls of word machines

A call puts a register onto the stack in memory and the return address into the
register, which may be the program counter itself; a return undoes both.  What
finding the operand of the call has done to the registers stays, even if it has
moved the stack pointer, or has moved the program counter back.
-/

namespace ClassroomCpu

open Exec

variable {arch : Architecture}

/-- What ends at a sound machine leaves a sound machine, if it is put together from parts. -/
theorem Machine.Sound.of_composed {α : Type} {computation : Exec arch α}
    {machine after : Machine arch} (sound : machine.Sound) (composed : Composed computation)
    {result : α} (ends : computation machine = .ok result after) : after.Sound := by
  have writes := composed.writes machine
  rw [Exec.after, ends] at writes
  exact sound.of_changes writes.changes

theorem Machine.Sound.pastOpcode {machine : Machine arch} (sound : machine.Sound) :
    machine.pastOpcode.Sound :=
  (sound.of_same (rfl : machine.countAccess.registers = _)).setRegister _ _

/--
Where the program counter of a word machine is once the operand of the next
instruction was found that has the given bits: behind its word, or at the
opcode again if it was moved back.
-/
def Machine.resolvedCounter (machine : Machine arch) (bits : UInt8) : Nat :=
  if Instruction.movesBack arch bits then machine.counter
  else (machine.counter + 2 + arch.operandBytes (operandKind arch bits)) % arch.counterSize

namespace Architecture.WordRegular

variable (regular : arch.WordRegular)
include regular

theorem counterSize_eq : arch.counterSize = 65536 :=
  regular.size.trans (WordOperand.memorySize_eq regular)

theorem register_lt {machine : Machine arch} (sound : machine.Sound)
    (index : Fin arch.registers.length) : machine.register index < 65536 := by
  have bounded := sound.registers index
  rwa [regular.wide] at bounded

/-- A register keeps sixteen bits of what is put into it. -/
theorem register_setRegister (machine : Machine arch) (written read : Fin arch.registers.length)
    (value : Int) :
    (machine.setRegister written value).register read =
      if written = read then (value % 65536).toNat else machine.register read := by
  rw [Machine.register_setRegister, RegisterSpec.hold, regular.wide]
  rfl

/-! ## Finding the operand of a call -/

/-- An operand that is found by moving the program counter back is in memory. -/
theorem ends_locate_back {bits : UInt8} (back : Instruction.movesBack arch bits = true)
    (machine : Machine arch) :
    Ends (WordOperand.ofBits arch bits).locate machine fun location after =>
      (∃ target, location = .memory target) ∧ after.memory = machine.memory ∧
        after.counter = (((machine.counter : Int) - 2) % 65536).toNat := by
  simp only [Instruction.movesBack, Bool.and_eq_true, Bool.or_eq_true, beq_iff_eq] at back
  obtain ⟨number, kind⟩ := back
  have moved : (machine.setRegister arch.counter ((machine.counter : Int) - 2)).counter =
      (((machine.counter : Int) - 2) % 65536).toNat := by
    rw [Machine.counter, regular.register_setRegister, if_pos rfl]
  have read := readRegister_apply arch.counter machine
  have write (value : Int) := writeRegister_apply arch.counter value machine
  unfold WordOperand.ofBits locate
  dsimp only
  rw [number]
  rcases kind with kind | kind
  · rw [kind]
    exact .after read (.after (write _) (.of_pure ⟨⟨_, rfl⟩, rfl, moved⟩))
  · rw [kind]
    refine .after read (.after (write _) (.of_eq (follow_apply _ _) ⟨⟨_, rfl⟩, ?_, ?_⟩))
    · rw [Machine.memory_countAccesses, Machine.memory_setRegister]
    · rw [Machine.counter_countAccesses]
      exact moved

/-- An operand that is not in a register is found in memory. -/
theorem ends_locate_memory {bits : UInt8} (inMemory : operandKind arch bits ≠ .register)
    {machine : Machine arch} (bounded : machine.counter < arch.counterSize) :
    Ends (WordOperand.ofBits arch bits).locate machine fun location after =>
      (∃ target, location = .memory target) ∧ after.memory = machine.memory ∧
        after.counter = if Instruction.movesBack arch bits then
            (((machine.counter : Int) - 2) % 65536).toNat
          else (machine.counter + arch.operandBytes (operandKind arch bits)) % 65536 := by
  by_cases back : Instruction.movesBack arch bits = true
  · simp only [back, if_true]
    exact regular.ends_locate_back back machine
  · simp only [back, Bool.false_eq_true, if_false]
    apply (regular.ends_locate (Bool.eq_false_iff.mpr back) bounded).mono
    rintro location after ⟨counter, memory, found⟩
    refine ⟨?_, memory, by rw [counter, regular.counterSize_eq]⟩
    cases location with
    | register number => exact absurd found.2 inMemory
    | memory target => exact ⟨target, rfl⟩

end Architecture.WordRegular

/-! ## The stack in memory -/

section Stack

variable {pointer : Fin arch.registers.length}
  (points : (wordStackPointer : Exec arch (Fin arch.registers.length)) = pure pointer)
include points

theorem stored_pushWord (regular : arch.WordRegular) (value : Nat) (machine : Machine arch) :
    Ends (pushWord value) machine fun _ after =>
      machine.Stored (arch.wrap (machine.register pointer - 2)) (ByteOrder.big.encode 2 value)
          after ∧
        after.registers =
          (machine.setRegister pointer ((machine.register pointer : Int) - 2)).registers := by
  have fits : (ByteOrder.big.encode 2 value).length ≤ arch.memorySize := by
    rw [ByteOrder.length_encode, WordOperand.memorySize_eq regular]
    decide
  unfold pushWord
  rw [points]
  apply Ends.after (pure_apply pointer machine)
  apply Ends.after (get_apply machine)
  let moved := machine.setRegister pointer ((machine.register pointer : Int) - 2)
  have moves : (modify fun other => other.setRegister pointer ((machine.register pointer : Int) - 2) :
      Exec arch PUnit) machine = .ok () moved := rfl
  apply Ends.after moves
  apply (stored_writeBytes _ _ fits moved).mono
  rintro _ after ⟨stored, registers⟩
  exact ⟨stored.congr rfl rfl, registers⟩

theorem popWord_apply (machine : Machine arch) :
    popWord machine =
      .ok (machine.peekNumber .big 2 (arch.cell (machine.register pointer)))
        ((machine.countAccesses 2).setRegister pointer (machine.register pointer + 2)) := by
  unfold popWord
  rw [points, bind_of_ok (pure_apply pointer machine), bind_of_ok (get_apply machine),
    bind_of_ok (readWord_apply _ machine)]
  rfl

end Stack

/-! ## Calls and returns -/

/--
What a call leaves that found its operand at a machine: a register is put onto
the stack, and the return address takes its place.
-/
structure Machine.Linked (found : Machine arch) (number pointer : Fin arch.registers.length)
    (after : Machine arch) : Prop where
  stored : found.Stored (arch.wrap (found.register pointer - 2))
    (ByteOrder.big.encode 2 (found.register number)) after
  link : number ≠ arch.counter → after.register number = found.counter
  moved : after.register pointer = (((found.register pointer : Int) - 2) % 65536).toNat
  others : ∀ index, index ≠ arch.counter → index ≠ number → index ≠ pointer →
    after.register index = found.register index

/--
What a return leaves, from the machine that found the operand of its call: the
program counter and all other registers are as they were then, and memory
differs by a word below the stack.
-/
structure Machine.Returned (found : Machine arch) (number pointer : Fin arch.registers.length)
    (last : Machine arch) : Prop where
  registers : ∀ index, last.register index = found.register index
  stored : found.Stored (arch.wrap (found.register pointer - 2))
    (ByteOrder.big.encode 2 (found.register number)) last

theorem Machine.Linked.pastOpcode {found machine : Machine arch}
    {number pointer : Fin arch.registers.length} (apart : pointer ≠ arch.counter)
    (linked : found.Linked number pointer machine) :
    found.Linked number pointer machine.pastOpcode := by
  refine ⟨linked.stored.congr rfl rfl, fun link => ?_, ?_, fun index notCounter other below => ?_⟩
  · rw [machine.register_pastOpcode link, linked.link link]
  · rw [machine.register_pastOpcode apart, linked.moved]
  · rw [machine.register_pastOpcode notCounter, linked.others index notCounter other below]

/-- The word that a call put onto the stack is on top. -/
theorem Machine.Linked.top (regular : arch.WordRegular) {found machine : Machine arch}
    (sound : found.Sound) {number pointer : Fin arch.registers.length}
    (linked : found.Linked number pointer machine) :
    machine.peekNumber .big 2 (arch.cell (machine.register pointer)) = found.register number := by
  have cell : arch.cell (machine.register pointer) =
      arch.wrap ((found.register pointer : Int) - 2) := by
    rw [← Architecture.wrap_natCast]
    apply Architecture.wrap_congr
    rw [linked.moved, WordOperand.memorySize_eq regular]
    omega
  rw [cell]
  exact linked.stored.there.peekNumber_of_lt (regular.register_lt sound number)

section Calls

variable (regular : arch.WordRegular) {pointer : Fin arch.registers.length}
  (points : (wordStackPointer : Exec arch (Fin arch.registers.length)) = pure pointer)
  (apart : pointer ≠ arch.counter)
include regular points apart

/-- A call goes on at its operand, behind which the machine is linked. -/
theorem FetchedWord.linked_call {fetched : FetchedWord arch}
    {number : Fin arch.registers.length} (selected : fetched.number = number)
    (other : number ≠ pointer) (inMemory : fetched.operand.kind ≠ .register)
    {machine found : Machine arch} (sound : found.Sound) {target : Nat}
    (finds : fetched.operand.locate machine = .ok (.memory target) found) :
    Ends fetched.call machine fun _ after =>
      after.counter = target % 65536 ∧ found.Linked number pointer after := by
  have taken : (fetched.operand.kind != .register) = true := bne_iff_ne.mpr inMemory
  have small := regular.register_lt sound arch.counter
  unfold call
  rw [if_pos taken, selected]
  apply Ends.after finds
  apply Ends.after (readRegister_apply number found)
  apply (stored_pushWord points regular (found.register number) found).bind
  rintro _ between ⟨stored, registers⟩
  have pushed (index : Fin arch.registers.length) : between.register index =
      if pointer = index then (((found.register pointer : Int) - 2) % 65536).toNat
      else found.register index := by
    rw [← regular.register_setRegister, Machine.register, registers]
    rfl
  have counter : between.counter = found.counter := by
    rw [Machine.counter, pushed, if_neg apart]
    rfl
  apply Ends.after (counter_apply between)
  rw [counter]
  apply Ends.after (writeRegister_apply number found.counter between)
  let linked := between.setRegister number found.counter
  have held (index : Fin arch.registers.length) : (linked.setCounter target).register index =
      if arch.counter = index then target % 65536
      else if number = index then found.counter else between.register index := by
    rw [Machine.setCounter, regular.register_setRegister, regular.register_setRegister]
    have kept : ((found.counter : Int) % 65536).toNat = found.counter := by
      rw [Machine.counter]
      omega
    rw [kept, show ((target : Int) % 65536).toNat = target % 65536 by omega]
  refine .of_eq (setCounter_apply target linked) ⟨?_, stored.congr rfl rfl, fun link => ?_, ?_,
    fun index notCounter notNumber notPointer => ?_⟩
  · rw [Machine.counter, held, if_pos rfl]
  · rw [held, if_neg link.symm, if_pos rfl]
  · rw [held, if_neg apart.symm, if_neg other, pushed, if_pos rfl]
  · rw [held, if_neg notCounter.symm, if_neg notNumber.symm, pushed, if_neg notPointer.symm]

/-- A return gives a linked machine its registers back. -/
theorem FetchedWord.returned_ret {fetched : FetchedWord arch}
    {number : Fin arch.registers.length} (selected : fetched.number = number)
    {found machine : Machine arch} (sound : found.Sound)
    (linked : found.Linked number pointer machine) :
    Ends fetched.ret machine fun _ last => found.Returned number pointer last := by
  have small := regular.register_lt sound
  let back := machine.setRegister arch.counter (machine.register number)
  have backPointer : back.register pointer = machine.register pointer := by
    rw [regular.register_setRegister, if_neg apart.symm]
  have saved : back.peekNumber .big 2 (arch.cell (back.register pointer)) =
      found.register number := by
    rw [backPointer, ← linked.top regular sound]
    exact Machine.peekNumber_of_memory (machine.memory_setRegister _ _) _ _ _
  unfold ret
  rw [selected]
  apply Ends.after (readRegister_apply number machine)
  apply Ends.after (setCounter_apply _ machine)
  apply Ends.after (popWord_apply points back)
  rw [saved]
  refine .of_eq (writeRegister_apply number _ _) ⟨fun index => ?_, linked.stored.congr rfl ?_⟩
  · rw [regular.register_setRegister, regular.register_setRegister,
      Machine.register_countAccesses, backPointer, linked.moved, regular.register_setRegister]
    have bounded := small index
    have boundedPointer := small pointer
    by_cases isNumber : number = index
    · rw [if_pos isNumber, isNumber]
      omega
    rw [if_neg isNumber]
    by_cases isPointer : pointer = index
    · rw [if_pos isPointer, isPointer]
      omega
    rw [if_neg isPointer]
    by_cases isCounter : arch.counter = index
    · rw [if_pos isCounter, linked.link fun same => isNumber (same.trans isCounter), ← isCounter]
      have boundedCounter := small arch.counter
      rw [Machine.counter]
      omega
    · rw [if_neg isCounter]
      exact linked.others index (Ne.symm isCounter) (Ne.symm isNumber) (Ne.symm isPointer)
  · rw [Machine.memory_setRegister, Machine.memory_setRegister, Machine.memory_countAccesses,
      Machine.memory_setRegister]

namespace Exec

/-- A return through the register in which a call has left the return address undoes the call. -/
theorem returned_step {number : Fin arch.registers.length} {found machine : Machine arch}
    (sound : found.Sound) (linked : found.Linked number pointer machine)
    (returns : machine.operationAhead? = some .ret)
    (selects : FetchedWord.registerNumber (machine.peek machine.counter) = number) :
    Ends step machine fun _ last => found.Returned number pointer last := by
  obtain ⟨instruction, known, operation⟩ := Option.map_eq_some_iff.mp returns
  let fetched := FetchedWord.ofBytes arch instruction (machine.peek machine.counter) 0
  have single : instruction.size = 1 := by
    have shape := regular.shapes instruction (List.mem_of_find?_eq_some known)
    simpa [Instruction.hasWordShape, operation] using shape
  have executes : fetched.execute = fetched.ret := by
    unfold FetchedWord.execute
    rw [show fetched.instruction.operation = .ret from operation]
  have selected : fetched.number = number := selects
  obtain ⟨_, last, ends, returned⟩ :=
    FetchedWord.returned_ret regular points apart selected sound (linked.pastOpcode apart)
  have fetches : wordInstruction machine = fetched.ret machine.pastOpcode := by
    rw [wordInstruction_of_some regular.size known, machine.fetchedWord_of_single single,
      machine.pastWordFetch_of_single single, executes]
  rw [step_of_word regular.model]
  exact .of_eq (bind_of_ok (fetches.trans ends)) ⟨returned.registers, returned.stored.congr rfl rfl⟩

/-- A call finds its operand, goes on there, and leaves the machine linked. -/
theorem linked_step {machine : Machine arch} (sound : machine.Sound)
    (calls : machine.operationAhead? = some .call)
    (inMemory : operandKind arch (machine.peek (machine.counter + 1)) ≠ .register)
    (other : regular.selected (machine.peek machine.counter) ≠ pointer) :
    Ends (WordOperand.ofBits arch (machine.peek (machine.counter + 1))).locate
      machine.pastOpcode.pastOpcode fun location found =>
        found.Sound ∧ found.memory = machine.memory ∧
          found.counter = machine.resolvedCounter (machine.peek (machine.counter + 1)) ∧
            Ends step machine fun _ after =>
              (∃ target, location = .memory target ∧ after.counter = target % 65536) ∧
                found.Linked (regular.selected (machine.peek machine.counter)) pointer after := by
  obtain ⟨instruction, known, operation⟩ := Option.map_eq_some_iff.mp calls
  let fetched := FetchedWord.ofBytes arch instruction (machine.peek machine.counter)
    (machine.peek (machine.counter + 1))
  have double : instruction.size ≠ 1 := by
    have shape := regular.shapes instruction (List.mem_of_find?_eq_some known)
    simp only [Instruction.hasWordShape, operation, Bool.and_eq_true, beq_iff_eq] at shape
    omega
  have size := regular.counterSize_eq
  have past := machine.counter_pastTwo
  rw [size] at past
  have bounded : machine.counter < 65536 := regular.register_lt sound arch.counter
  have boundedPast : machine.pastOpcode.pastOpcode.counter < arch.counterSize := by
    rw [past, size]
    exact Nat.mod_lt _ (by decide)
  obtain ⟨_, found, finds, ⟨target, rfl⟩, memory, counter⟩ :=
    regular.ends_locate_memory inMemory boundedPast
  have foundSound : found.Sound :=
    sound.pastOpcode.pastOpcode.of_composed (composed_locate _ _) finds
  refine .of_eq finds ⟨foundSound, memory, ?_, ?_⟩
  · rw [counter, past, Machine.resolvedCounter, size]
    split
    · omega
    · rw [Nat.mod_add_mod]
  · have executes : fetched.execute = fetched.call := by
      unfold FetchedWord.execute
      rw [show fetched.instruction.operation = .call from operation]
    have selected : fetched.number = regular.selected (machine.peek machine.counter) := rfl
    obtain ⟨_, after, ends, goes, linked⟩ :=
      FetchedWord.linked_call regular points apart selected other inMemory foundSound finds
    have fetches : wordInstruction machine = fetched.call machine.pastOpcode.pastOpcode := by
      rw [wordInstruction_of_some regular.size known, machine.fetchedWord_of_double double,
        machine.pastWordFetch_of_double double, executes]
    rw [step_of_word regular.model]
    exact .of_eq (bind_of_ok (fetches.trans ends))
      ⟨⟨target, rfl, goes⟩, linked.stored.congr rfl rfl, linked.link, linked.moved, linked.others⟩

end Exec

end Calls

end ClassroomCpu
