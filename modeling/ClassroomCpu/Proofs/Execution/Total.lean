import ClassroomCpu.Proofs.Execution.ByteStep
import ClassroomCpu.Proofs.Execution.WordStep

/-!
# Steps without faults

No step meets a fault on a machine whose datasheet has the registers that its
instructions use, whatever its memory holds.
-/

namespace ClassroomCpu

variable {arch : Architecture}

namespace Exec

variable {α β : Type}

/-- The computation meets no fault at any machine. -/
def Total (computation : Exec arch α) : Prop :=
  ∀ machine, Ends computation machine fun _ _ => True

namespace Total

theorem of_keeps {computation : Exec arch α} (keeps : Keeps computation) : Total computation :=
  fun machine => (keeps machine).mono fun _ _ _ => trivial

theorem of_pure (result : α) : Total (pure result : Exec arch α) :=
  fun _ => .of_pure trivial

theorem of_modify (change : Machine arch → Machine arch) :
    Total (modify change : Exec arch PUnit) :=
  fun _ => .of_eq rfl trivial

theorem bind {computation : Exec arch α} {next : α → Exec arch β}
    (first : Total computation) (second : ∀ result, Total (next result)) :
    Total (computation >>= next) :=
  fun machine => (first machine).bind fun result after _ => second result after

end Total

theorem total_setCounter (value : Int) : Total (setCounter value : Exec arch Unit) :=
  .of_modify _

end Exec

open Exec

/-! ## Byte machines -/

namespace Fetched

variable {fetched : Fetched arch} (apart : fetched.Apart)
include apart

theorem total_jumpIf (condition : Bool) : Total (fetched.jumpIf condition) := by
  unfold jumpIf
  split
  · exact (Total.of_keeps apart.address).bind fun _ => total_setCounter _
  · exact .of_pure ()

theorem total_executeStandard : Total fetched.executeStandard := by
  have value := Total.of_keeps (keeps_registerValue fetched)
  have operand := Total.of_keeps apart.value
  unfold executeStandard
  cases fetched.instruction.operation with
  | store =>
      exact (Total.of_keeps apart.address).bind fun _ => value.bind fun _ =>
        .of_keeps (keeps_writeByte _ _)
  | load => exact operand.bind fun _ => .of_keeps (keeps_setResult apart _)
  | add | sub =>
      exact value.bind fun _ => operand.bind fun _ => .of_keeps (keeps_setOutcome apart _ _)
  | or | and =>
      exact value.bind fun _ => operand.bind fun _ => .of_keeps (keeps_setResult apart _)
  | jump test => exact (Total.of_keeps keeps_status).bind fun _ => total_jumpIf apart _
  | call =>
      unfold callInMemory
      dsimp only
      split
      · exact (Total.of_keeps apart.address).bind fun _ =>
          (Total.of_keeps keeps_counter).bind fun _ =>
            (Total.of_keeps (keeps_writeAddress _ _)).bind fun _ => total_setCounter _
      · exact .of_pure ()
  | choose =>
      exact value.bind fun _ => (Total.of_keeps (apart.choice _)).bind fun _ =>
        total_setCounter _
  | halt => exact .of_keeps (keeps_setRunning false)
  | _ => exact .of_keeps (keeps_computeOnRegister apart)

theorem total_executeStack : Total fetched.executeStack := by
  have pop := Total.of_keeps (keeps_pop apart)
  have push := fun value => Total.of_keeps (keeps_push apart.stackPointer value)
  unfold executeStack
  cases fetched.instruction.operation with
  | add | sub | and | or =>
      refine pop.bind fun _ => pop.bind fun _ => ?_
      split
      · exact push _
      · exact .of_pure ()
  | clear | not | neg | inc | dec | halve | double | rotateRight | rotateLeft =>
      refine pop.bind fun _ => ?_
      split
      · exact push _
      · exact .of_pure ()
  | skip test =>
      refine pop.bind fun _ => ?_
      split
      · exact (Total.of_keeps keeps_counter).bind fun _ =>
          (Total.of_keeps (keeps_readByte _)).bind fun _ => total_setCounter _
      · exact .of_pure ()
  | push => exact (Total.of_keeps apart.value).bind fun _ => push _
  | pop =>
      exact (Total.of_keeps apart.address).bind fun _ => pop.bind fun _ =>
        .of_keeps (keeps_writeByte _ _)
  | jump test =>
      cases test with
      | always => exact total_jumpIf apart true
      | _ => exact .of_pure ()
  | call =>
      unfold callOnStack
      dsimp only
      split
      · exact (Total.of_keeps apart.address).bind fun _ =>
          (Total.of_keeps keeps_counter).bind fun _ => (push _).bind fun _ => total_setCounter _
      · exact .of_pure ()
  | ret => exact pop.bind fun _ => total_setCounter _
  | halt => exact .of_keeps (keeps_setRunning false)
  | _ => exact .of_pure ()

end Fetched

namespace Exec

theorem total_byteInstruction (facts : arch.CounterApart) :
    Total (byteInstruction : Exec arch Unit) := by
  intro machine
  unfold byteInstruction
  cases known : arch.instruction? (machine.peek machine.counter) with
  | none => exact .after (fetch_of_none known) (.of_pure trivial)
  | some instruction =>
      apply Ends.after (fetch_of_some known)
      dsimp only
      split
      · exact Fetched.total_executeStack (apart_fetched facts known) _
      · exact Fetched.total_executeStandard (apart_fetched facts known) _

end Exec

/-! ## Word machines -/

/-- A location that is a register is one of the machine. -/
def Location.Inside (arch : Architecture) : Location → Prop
  | .register number => number < arch.registers.length
  | .memory _ => True

namespace Exec

theorem total_readRegister (index : Fin arch.registers.length) :
    Total (readRegister index : Exec arch Nat) :=
  .of_keeps (keeps_readRegister index)

theorem total_writeRegister (index : Fin arch.registers.length) (value : Int) :
    Total (writeRegister index value : Exec arch Unit) :=
  fun machine => .of_eq (writeRegister_apply index value machine) trivial

theorem total_nextWord : Total (nextWord : Exec arch Nat) :=
  fun machine => .of_eq (nextWord_apply machine) trivial

theorem inside_follow (pointer : Nat) (machine : Machine arch) :
    Ends (follow pointer) machine fun location _ => location.Inside arch :=
  .of_eq (follow_apply pointer machine) trivial

/-- Every way to an operand through a register of the machine leads to a location. -/
theorem inside_locate (kind : AddressingMode.Kind) (index : Fin arch.registers.length)
    (machine : Machine arch) :
    Ends (locate kind index) machine fun location _ => location.Inside arch := by
  have read : Total (readRegister index : Exec arch Nat) := total_readRegister index
  unfold locate
  cases kind with
  | postIncrement | immediate =>
      exact (read machine).bind fun _ between _ =>
        (total_writeRegister index _ between).bind fun _ _ _ => .of_pure trivial
  | preDecrement =>
      exact (read machine).bind fun _ between _ =>
        (total_writeRegister index _ between).bind fun _ _ _ => .of_pure trivial
  | indexed =>
      exact (total_nextWord machine).bind fun _ between _ =>
        (read between).bind fun _ _ _ => .of_pure trivial
  | registerIndirect => exact (read machine).bind fun _ _ _ => .of_pure trivial
  | postIncrementIndirect | direct =>
      exact (read machine).bind fun _ between _ =>
        (total_writeRegister index _ between).bind fun _ after _ => inside_follow _ after
  | preDecrementIndirect =>
      exact (read machine).bind fun _ between _ =>
        (total_writeRegister index _ between).bind fun _ after _ => inside_follow _ after
  | indexedIndirect =>
      exact (total_nextWord machine).bind fun _ between _ =>
        (read between).bind fun _ after _ => inside_follow _ after
  | _ => exact .of_pure index.isLt

theorem total_load {location : Location} (inside : location.Inside arch) :
    Total (load location : Exec arch Nat) := by
  cases location with
  | register number => exact total_readRegister ⟨number, inside⟩
  | memory address => exact .of_keeps (keeps_readWord address)

theorem total_store {location : Location} (inside : location.Inside arch) (value : Nat) :
    Total (store value location : Exec arch Unit) := by
  cases location with
  | register number => exact total_writeRegister ⟨number, inside⟩ _
  | memory address => exact .of_keeps (keeps_writeWord address _)

/-- A computation on a located operand is total if it is at every location. -/
theorem total_locate_bind {β : Type} (kind : AddressingMode.Kind)
    (index : Fin arch.registers.length) {next : Location → Exec arch β}
    (further : ∀ location, location.Inside arch → Total (next location)) :
    Total (locate kind index >>= next) :=
  fun machine => (inside_locate kind index machine).bind fun location after inside =>
    further location inside after

end Exec

/-- A word machine with the stack pointer that it names. -/
def Architecture.HasStackPointer (arch : Architecture) : Prop :=
  ∃ index : Fin arch.registers.length,
    (wordStackPointer : Exec arch (Fin arch.registers.length)) = pure index

namespace Exec

theorem total_pushWord (pointer : arch.HasStackPointer) (value : Nat) :
    Total (pushWord value : Exec arch Unit) := by
  obtain ⟨index, found⟩ := pointer
  unfold pushWord
  rw [found]
  exact (Total.of_pure index).bind fun _ => (Total.of_keeps .of_get).bind fun _ =>
    (Total.of_modify _).bind fun _ => .of_keeps (keeps_writeWord _ _)

theorem total_popWord (pointer : arch.HasStackPointer) : Total (popWord : Exec arch Nat) := by
  obtain ⟨index, found⟩ := pointer
  unfold popWord
  rw [found]
  exact (Total.of_pure index).bind fun _ => (Total.of_keeps .of_get).bind fun _ =>
    (Total.of_keeps (keeps_readWord _)).bind fun _ => (Total.of_modify _).bind fun _ =>
      .of_pure _

end Exec

namespace FetchedWord

variable (regular : arch.WordRegular) (pointer : arch.HasStackPointer)
  (instruction : Instruction) (opcode second : UInt8)
include regular

theorem total_computeOnWord : Total (ofBytes arch instruction opcode second).computeOnWord := by
  refine total_locate_bind _ (regular.selected second) fun location inside => ?_
  refine (total_load inside).bind fun value => (Total.of_keeps keeps_status).bind fun status => ?_
  split
  · split
    · exact (total_store inside _).bind fun _ => .of_keeps (keeps_setWordCodes _ _ _)
    · exact .of_keeps (keeps_setWordCodes _ _ _)
  · exact .of_pure ()

theorem total_computeOnWords :
    Total (ofBytes arch instruction opcode second).computeOnWords := by
  refine total_locate_bind _ (regular.selected (sourceBits opcode second)) fun place insidePlace => ?_
  refine (total_load insidePlace).bind fun source => ?_
  refine total_locate_bind _ (regular.selected (destinationBits opcode second))
    fun location inside => ?_
  dsimp only
  split
  · exact (total_store inside _).bind fun _ => .of_keeps (keeps_setLogicCodes _)
  · exact (total_load inside).bind fun _ => (total_store inside _).bind fun _ =>
      .of_keeps (keeps_setWordCodes _ _ _)
  · exact (total_load inside).bind fun _ => (total_store inside _).bind fun _ =>
      .of_keeps (keeps_setWordCodes _ _ _)
  · exact (total_load inside).bind fun _ => .of_keeps (keeps_setWordCodes _ _ _)
  · exact (total_load inside).bind fun _ => (total_store inside _).bind fun _ =>
      .of_keeps (keeps_setLogicCodes _)
  · exact (total_load inside).bind fun _ => (total_store inside _).bind fun _ =>
      .of_keeps (keeps_setLogicCodes _)
  · exact .of_pure ()

theorem total_jump : Total (ofBytes arch instruction opcode second).jump := by
  unfold jump
  split
  · refine total_locate_bind _ (regular.selected second) fun location inside => ?_
    cases location with
    | memory target => exact total_setCounter _
    | register number => exact .of_pure ()
  · exact .of_pure ()

theorem total_loop : Total (ofBytes arch instruction opcode second).loop := by
  have read := total_readRegister (regular.selected opcode)
  refine read.bind fun _ => (total_writeRegister (regular.selected opcode) _).bind fun _ =>
    read.bind fun _ => ?_
  split
  · exact (Total.of_keeps keeps_counter).bind fun _ => total_setCounter _
  · exact .of_pure ()

omit regular in
theorem total_branch (fetched : FetchedWord arch) (condition : Condition) :
    Total (fetched.branch condition) := by
  refine (Total.of_keeps keeps_status).bind fun _ => ?_
  split
  · exact (Total.of_keeps keeps_counter).bind fun _ => total_setCounter _
  · exact .of_pure ()

include pointer

theorem total_call : Total (ofBytes arch instruction opcode second).call := by
  unfold call
  split
  · refine total_locate_bind _ (regular.selected second) fun location inside => ?_
    cases location with
    | memory target =>
        exact (total_readRegister (regular.selected opcode)).bind fun _ =>
          (total_pushWord pointer _).bind fun _ => (Total.of_keeps keeps_counter).bind fun _ =>
            (total_writeRegister (regular.selected opcode) _).bind fun _ => total_setCounter _
    | register number => exact .of_pure ()
  · exact .of_pure ()

theorem total_execute : Total (ofBytes arch instruction opcode second).execute := by
  unfold execute
  cases (ofBytes arch instruction opcode second).instruction.operation with
  | clearFlags | setFlags => exact .of_keeps (keeps_forM_setCode _ _)
  | branch condition => exact total_branch _ condition
  | loop => exact total_loop regular instruction opcode second
  | jump test =>
      cases test with
      | always => exact total_jump regular instruction opcode second
      | _ => exact .of_pure ()
  | call => exact total_call regular pointer instruction opcode second
  | ret =>
      exact (total_readRegister (regular.selected opcode)).bind fun _ =>
        (total_setCounter _).bind fun _ => (total_popWord pointer).bind fun _ =>
          total_writeRegister (regular.selected opcode) _
  | clear =>
      exact total_locate_bind _ (regular.selected second) fun location inside =>
        (total_store inside 0).bind fun _ => .of_keeps (keeps_setWordCodes _ _ _)
  | not | inc | dec | neg | test | rotateRight | rotateLeft | halve | double | addCarry
  | subCarry => exact total_computeOnWord regular instruction opcode second
  | move | add | sub | compare | and | or =>
      exact total_computeOnWords regular instruction opcode second
  | halt => exact .of_keeps (keeps_setRunning false)
  | _ => exact .of_pure ()

end FetchedWord

namespace Exec

theorem total_wordInstruction (regular : arch.WordRegular) (pointer : arch.HasStackPointer) :
    Total (wordInstruction : Exec arch Unit) := by
  have fetch : Total (fetchByte : Exec arch UInt8) :=
    fun machine => .of_eq (fetchByte_apply machine) trivial
  refine fetch.bind fun opcode => ?_
  split
  · exact .of_pure ()
  · rename_i instruction _
    have execute := FetchedWord.total_execute regular pointer instruction opcode
    dsimp only
    split
    · exact fetch.bind execute
    · exact (Total.of_pure 0).bind execute

/-- A step of a byte machine meets no fault. -/
theorem total_step_of_byte (byteMachine : arch.model ≠ .word) (facts : arch.CounterApart) :
    Total (step : Exec arch Unit) := by
  rw [step_of_byte byteMachine]
  exact (total_byteInstruction facts).bind fun _ => .of_modify _

/-- A step of a word machine meets no fault. -/
theorem total_step_of_word (regular : arch.WordRegular) (pointer : arch.HasStackPointer) :
    Total (step : Exec arch Unit) := by
  rw [step_of_word regular.model]
  exact (total_wordInstruction regular pointer).bind fun _ => .of_modify _

end Exec

end ClassroomCpu
