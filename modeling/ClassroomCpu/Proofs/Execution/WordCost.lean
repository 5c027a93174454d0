import ClassroomCpu.Proofs.Execution.Cost
import ClassroomCpu.Proofs.Execution.Total
import ClassroomCpu.Proofs.Execution.WordFetch

/-!
# What the instructions of a word machine cost

An instruction costs the accesses to its bytes, those on the way to its
operands, and two for every word of memory that it loads or stores there.  A
result is stored without a load by some instructions, and some only load.
-/

namespace ClassroomCpu

variable {arch : Architecture}

namespace AddressingMode.Kind

/-- The accesses on the way to an operand of a word machine. -/
def wordWayAccesses : AddressingMode.Kind → Nat
  | .direct | .indexed | .postIncrementIndirect | .preDecrementIndirect => 2
  | .indexedIndirect => 4
  | _ => 0

/-- The accesses to the word of an operand of a word machine; none if it is in a register. -/
def wordAccesses : AddressingMode.Kind → Nat
  | .register | .indirect | .indexedByX | .indexedByCounter => 0
  | _ => 2

end AddressingMode.Kind

/--
How often an operation of a word machine loads or stores its last operand: clearing and moving
only store a word, testing and comparing only load one.
-/
def Operation.wordUses : Operation → Nat
  | .clear | .move | .test | .compare => 1
  | .not | .inc | .dec | .neg | .rotateRight | .rotateLeft | .halve | .double | .addCarry
  | .subCarry | .add | .sub | .and | .or => 2
  | _ => 0

/-- The accesses of an instruction of a word machine, behind its first bytes. -/
def Instruction.wordAccesses (instruction : Instruction) (arch : Architecture)
    (opcode second : UInt8) : Nat :=
  let operation := instruction.operation
  let operand := Exec.operandKind arch second
  let source := Exec.operandKind arch (FetchedWord.sourceBits opcode second)
  let destination := Exec.operandKind arch (FetchedWord.destinationBits opcode second)
  match operation with
  | .clear | .test | .not | .inc | .dec | .neg | .rotateRight | .rotateLeft | .halve | .double
  | .addCarry | .subCarry =>
      operand.wordWayAccesses + operation.wordUses * operand.wordAccesses
  | .move | .compare | .add | .sub | .and | .or =>
      source.wordWayAccesses + source.wordAccesses
        + (destination.wordWayAccesses + operation.wordUses * destination.wordAccesses)
  | .jump .always => operand.wordWayAccesses
  -- A call stores a word on the stack, and a return loads one.
  | .call => if operand = .register then 0 else operand.wordWayAccesses + 2
  | .ret => 2
  | _ => 0

/-- The accesses to the word at a location. -/
def Location.accesses : Location → Nat
  | .register _ => 0
  | .memory _ => 2

namespace Exec

/-! ## Registers and operands -/

theorem costs_readRegister (index : Fin arch.registers.length) :
    Costs (readRegister index : Exec arch Nat) 0 :=
  fun machine => .of_eq (readRegister_apply index machine) (.refl machine)

theorem costs_writeRegister (index : Fin arch.registers.length) (value : Int) :
    Costs (writeRegister index value : Exec arch Unit) 0 :=
  fun machine => .of_eq (writeRegister_apply index value machine)
    (machine.counted_setRegister index value)

theorem costs_nextWord : Costs (nextWord : Exec arch Nat) 2 :=
  costs_counter.free_bind fun _ => (costs_readWord _).bind fun _ =>
    (costs_setCounter _).bind fun _ => .of_pure _

theorem costs_follow (pointer : Nat) (machine : Machine arch) :
    Ends (follow pointer) machine fun location after =>
      location.Inside arch ∧ location.accesses = 2 ∧ machine.Counted after 2 :=
  .of_eq (follow_apply pointer machine) ⟨trivial, rfl, machine.counted_countAccesses 2⟩

/-- What it costs to find an operand through a register, and what its word will cost. -/
theorem found_locate (kind : AddressingMode.Kind) (index : Fin arch.registers.length)
    (machine : Machine arch) :
    Ends (locate kind index) machine fun location after =>
      location.Inside arch ∧ location.accesses = kind.wordAccesses ∧
        machine.Counted after kind.wordWayAccesses := by
  have read (machine : Machine arch) := readRegister_apply index machine
  have moved (value : Int) := machine.counted_setRegister index value
  unfold locate
  cases kind with
  | postIncrement | immediate | preDecrement =>
      apply Ends.after (read machine)
      apply Ends.after (writeRegister_apply index _ machine)
      exact .of_pure ⟨trivial, rfl, moved _⟩
  | indexed =>
      apply (costs_nextWord machine).bind
      intro offset between counted
      apply Ends.after (read between)
      exact .of_pure ⟨trivial, rfl, counted⟩
  | registerIndirect =>
      apply Ends.after (read machine)
      exact .of_pure ⟨trivial, rfl, .refl machine⟩
  | postIncrementIndirect | direct | preDecrementIndirect =>
      apply Ends.after (read machine)
      apply Ends.after (writeRegister_apply index _ machine)
      apply (costs_follow _ _).mono
      rintro location after ⟨inside, same, counted⟩
      exact ⟨inside, same, (moved _).trans counted⟩
  | indexedIndirect =>
      apply (costs_nextWord machine).bind
      intro offset between fetched
      apply Ends.after (read between)
      apply (costs_follow _ _).mono
      rintro location after ⟨inside, same, counted⟩
      exact ⟨inside, same, fetched.trans counted⟩
  | _ => exact .of_pure ⟨index.isLt, rfl, .refl machine⟩

/-- A computation goes on with an operand that is found through a register. -/
theorem costs_locate_bind {β : Type} (kind : AddressingMode.Kind)
    (index : Fin arch.registers.length) {next : Location → Exec arch β} {accesses : Nat}
    (further : ∀ location : Location, location.Inside arch →
      location.accesses = kind.wordAccesses → Costs (next location) accesses) :
    Costs (locate kind index >>= next) (kind.wordWayAccesses + accesses) := by
  intro machine
  apply (found_locate kind index machine).bind
  rintro location between ⟨inside, same, counted⟩
  exact (further location inside same between).mono fun _ _ later => counted.trans later

theorem costs_load {location : Location} (inside : location.Inside arch) :
    Costs (load location : Exec arch Nat) location.accesses := by
  cases location with
  | register number => exact costs_readRegister ⟨number, inside⟩
  | memory address => exact costs_readWord address

theorem costs_store {location : Location} (inside : location.Inside arch) (value : Nat) :
    Costs (store value location : Exec arch Unit) location.accesses := by
  cases location with
  | register number => exact costs_writeRegister ⟨number, inside⟩ _
  | memory address => exact costs_writeWord address _

/-! ## The stack in memory -/

theorem costs_pushWord (pointer : arch.HasStackPointer) (value : Nat) :
    Costs (pushWord value : Exec arch Unit) 2 := by
  obtain ⟨index, found⟩ := pointer
  unfold pushWord
  rw [found]
  exact (Costs.of_pure index).free_bind fun _ => Costs.of_get.free_bind fun _ =>
    (Costs.of_modify fun machine => machine.counted_setRegister _ _).free_bind fun _ =>
      costs_writeWord _ _

theorem costs_popWord (pointer : arch.HasStackPointer) : Costs (popWord : Exec arch Nat) 2 := by
  obtain ⟨index, found⟩ := pointer
  unfold popWord
  rw [found]
  exact (Costs.of_pure index).free_bind fun _ => Costs.of_get.free_bind fun _ =>
    (costs_readWord _).bind fun _ =>
      (Costs.of_modify fun machine => machine.counted_setRegister _ _).bind fun _ => .of_pure _

/-! ## Results -/

theorem costs_setWordCodes (value : Nat) (overflow carry : Bool) :
    Costs (setWordCodes value overflow carry : Exec arch Unit) 0 :=
  (costs_setSignAndZero _ _).bind fun _ => (costs_setCode _ _).bind fun _ => costs_setCode _ _

theorem costs_setLogicCodes (value : Nat) : Costs (setLogicCodes value : Exec arch Unit) 0 :=
  (costs_setSignAndZero _ _).bind fun _ => costs_setCode _ _

theorem costs_forM_setCode (codes : List FlagCode) (value : Bool) :
    Costs (codes.forM (fun code => setCode code value) : Exec arch PUnit) 0 := by
  induction codes with
  | nil => exact .of_pure ()
  | cons code codes induction => exact (costs_setCode code value).bind fun _ => induction

end Exec

namespace FetchedWord

open Exec

variable (regular : arch.WordRegular) (pointer : arch.HasStackPointer)
  (instruction : Instruction) (opcode second : UInt8)
include regular

/-- What an operation on one word costs. -/
theorem costs_computeOnWord
    (one : instruction.operation ∈ [Operation.not, .inc, .dec, .neg, .test, .rotateRight,
      .rotateLeft, .halve, .double, .addCarry, .subCarry]) :
    Costs (ofBytes arch instruction opcode second).computeOnWord
      ((operandKind arch second).wordWayAccesses
        + instruction.operation.wordUses * (operandKind arch second).wordAccesses) := by
  have computes : ∀ value carry, (instruction.operation.onWord? value carry).isSome = true := by
    intro value carry
    simp only [List.mem_cons, List.not_mem_nil, or_false] at one
    rcases one with same | same | same | same | same | same | same | same | same | same | same <;>
      rw [same] <;> rfl
  refine costs_locate_bind _ (regular.selected second) fun location inside same => ?_
  have load := costs_load inside
  have store := fun value => costs_store inside value
  rw [← same]
  by_cases tests : instruction.operation = .test
  · rw [tests, Operation.wordUses, Nat.one_mul]
    refine load.bind_free fun value => costs_status.free_bind fun status => ?_
    obtain ⟨result, computed⟩ := Option.isSome_iff_exists.mp (computes value status.carry)
    rw [tests] at computed
    simp only [ofBytes, tests, computed, ne_eq, not_true_eq_false, if_false]
    exact costs_setWordCodes _ _ _
  · have twice : instruction.operation.wordUses = 2 := by
      simp only [List.mem_cons, List.not_mem_nil, or_false, tests, false_or] at one
      rcases one with same | same | same | same | same | same | same | same | same | same <;>
        rw [same] <;> rfl
    rw [twice, Nat.two_mul]
    refine load.bind fun value => costs_status.free_bind fun status => ?_
    obtain ⟨result, computed⟩ := Option.isSome_iff_exists.mp (computes value status.carry)
    simp only [ofBytes, computed, ne_eq, tests, not_false_eq_true, if_true]
    exact (store _).bind_free fun _ => costs_setWordCodes _ _ _

/-- What an operation on two words costs; the first one is loaded. -/
theorem costs_computeOnWords
    (two : instruction.operation ∈ [Operation.move, .add, .sub, .compare, .and, .or]) :
    Costs (ofBytes arch instruction opcode second).computeOnWords
      ((operandKind arch (sourceBits opcode second)).wordWayAccesses
        + (operandKind arch (sourceBits opcode second)).wordAccesses
        + ((operandKind arch (destinationBits opcode second)).wordWayAccesses
          + instruction.operation.wordUses
            * (operandKind arch (destinationBits opcode second)).wordAccesses)) := by
  rw [Nat.add_assoc]
  refine costs_locate_bind _ (regular.selected (sourceBits opcode second))
    fun place insidePlace samePlace => ?_
  rw [← samePlace]
  refine (costs_load insidePlace).bind fun source => ?_
  refine costs_locate_bind _ (regular.selected (destinationBits opcode second))
    fun location inside same => ?_
  rw [← same]
  have load := costs_load inside
  have store := fun value => costs_store inside value
  simp only [List.mem_cons, List.not_mem_nil, or_false] at two
  rcases two with move | add | sub | compare | and | or
  · simp only [ofBytes, move, Operation.wordUses, Nat.one_mul]
    exact (store _).bind_free fun _ => costs_setLogicCodes _
  · simp only [ofBytes, add, Operation.wordUses, Nat.two_mul]
    exact load.bind fun _ => (store _).bind_free fun _ => costs_setWordCodes _ _ _
  · simp only [ofBytes, sub, Operation.wordUses, Nat.two_mul]
    exact load.bind fun _ => (store _).bind_free fun _ => costs_setWordCodes _ _ _
  · simp only [ofBytes, compare, Operation.wordUses, Nat.one_mul]
    exact load.bind_free fun _ => costs_setWordCodes _ _ _
  · simp only [ofBytes, and, Operation.wordUses, Nat.two_mul]
    exact load.bind fun _ => (store _).bind_free fun _ => costs_setLogicCodes _
  · simp only [ofBytes, or, Operation.wordUses, Nat.two_mul]
    exact load.bind fun _ => (store _).bind_free fun _ => costs_setLogicCodes _

theorem costs_jump :
    Costs (ofBytes arch instruction opcode second).jump
      (operandKind arch second).wordWayAccesses := by
  unfold jump
  by_cases inRegister : operandKind arch second = .register
  · simp only [ofBytes, WordOperand.ofBits, inRegister]
    exact .of_pure ()
  · simp only [ofBytes, WordOperand.ofBits, bne_iff_ne.mpr inRegister, if_true]
    change Costs _ ((operandKind arch second).wordWayAccesses + 0)
    refine costs_locate_bind _ (regular.selected second) fun location _ _ => ?_
    cases location with
    | memory target => exact costs_setCounter _
    | register number => exact .of_pure ()

theorem costs_loop : Costs (ofBytes arch instruction opcode second).loop 0 := by
  have read := costs_readRegister (regular.selected opcode)
  refine read.free_bind fun _ =>
    (costs_writeRegister (regular.selected opcode) _).free_bind fun _ =>
      read.free_bind fun _ => ?_
  split
  · exact costs_counter.bind fun _ => costs_setCounter _
  · exact .of_pure ()

omit regular in
theorem costs_branch (fetched : FetchedWord arch) (condition : Condition) :
    Costs (fetched.branch condition) 0 := by
  refine costs_status.free_bind fun _ => ?_
  split
  · exact costs_counter.bind fun _ => costs_setCounter _
  · exact .of_pure ()

include pointer

theorem costs_call :
    Costs (ofBytes arch instruction opcode second).call
      (if operandKind arch second = .register then 0
        else (operandKind arch second).wordWayAccesses + 2) := by
  unfold call
  by_cases inRegister : operandKind arch second = .register
  · simp only [ofBytes, WordOperand.ofBits, inRegister]
    exact .of_pure ()
  · simp only [ofBytes, WordOperand.ofBits, bne_iff_ne.mpr inRegister, if_neg inRegister, if_true]
    refine costs_locate_bind _ (regular.selected second) fun location inside same => ?_
    cases location with
    | memory target =>
        exact (costs_readRegister (regular.selected opcode)).free_bind fun _ =>
          (costs_pushWord pointer _).bind_free fun _ => costs_counter.free_bind fun _ =>
            (costs_writeRegister (regular.selected opcode) _).bind_free fun _ =>
              costs_setCounter _
    | register number =>
        -- An operand of another kind is never in a register.
        have wordKind := regular.isWordKind second
        revert same wordKind inRegister
        cases operandKind arch second <;> simp [Location.accesses, AddressingMode.Kind.wordAccesses]

/-- What the instructions of a word machine cost. -/
theorem costs_execute :
    Costs (ofBytes arch instruction opcode second).execute
      (instruction.wordAccesses arch opcode second) := by
  have same : (ofBytes arch instruction opcode second).instruction = instruction := rfl
  unfold execute Instruction.wordAccesses
  rw [same]
  cases operation : instruction.operation with
  | clearFlags | setFlags => exact costs_forM_setCode _ _
  | branch condition => exact costs_branch _ condition
  | loop => exact costs_loop regular instruction opcode second
  | jump test =>
      cases test with
      | always => exact costs_jump regular instruction opcode second
      | _ => exact .of_pure ()
  | call => exact costs_call regular pointer instruction opcode second
  | ret =>
      exact (costs_readRegister (regular.selected opcode)).free_bind fun _ =>
        (costs_setCounter _).free_bind fun _ => (costs_popWord pointer).bind_free fun _ =>
          costs_writeRegister (regular.selected opcode) _
  | clear =>
      simp only [Operation.wordUses, Nat.one_mul]
      refine costs_locate_bind _ (regular.selected second) fun location inside same => ?_
      rw [← same]
      exact (costs_store inside 0).bind_free fun _ => costs_setWordCodes _ _ _
  | not | inc | dec | neg | test | rotateRight | rotateLeft | halve | double | addCarry
  | subCarry =>
      have computed := costs_computeOnWord regular instruction opcode second (by simp [operation])
      rwa [operation] at computed
  | move | add | sub | compare | and | or =>
      have computed := costs_computeOnWords regular instruction opcode second (by simp [operation])
      rwa [operation] at computed
  | halt => exact costs_setRunning false
  | _ => exact .of_pure ()

end FetchedWord

namespace Machine

/-- Fetching counts an access for each byte that is read. -/
theorem counted_pastWordFetch (machine : Machine arch) (instruction : Instruction) :
    machine.Counted (machine.pastWordFetch instruction)
      (if instruction.size = 1 then 1 else 2) := by
  unfold pastWordFetch
  split <;> exact ⟨rfl, rfl⟩

/-- The accesses of the next step of a word machine. -/
def wordAccesses (machine : Machine arch) : Nat :=
  let opcode := machine.peek machine.counter
  match arch.instruction? opcode with
  | none => 1
  | some instruction =>
      (if instruction.size = 1 then 1 else 2)
        + instruction.wordAccesses arch opcode (machine.secondByte instruction)

end Machine

namespace Exec

/-- What an instruction of a word machine costs that is fetched and executed. -/
theorem costs_wordInstruction (regular : arch.WordRegular) (pointer : arch.HasStackPointer)
    (machine : Machine arch) :
    Ends wordInstruction machine fun _ after => machine.Counted after machine.wordAccesses := by
  unfold Machine.wordAccesses
  dsimp only
  cases known : arch.instruction? (machine.peek machine.counter) with
  | none => exact .of_eq (wordInstruction_of_none known) ⟨rfl, rfl⟩
  | some instruction =>
      apply Ends.fetched regular.size known
      exact (FetchedWord.costs_execute regular pointer instruction _ _ _).mono
        fun _ _ executed => (machine.counted_pastWordFetch instruction).trans executed

end Exec

end ClassroomCpu
