import ClassroomCpu.Proofs.Execution.Access
import ClassroomCpu.Proofs.Execution.ControlFlow

/-!
# The program counter of a word machine

Finding an operand moves the program counter past the word of the operand: the
word of an offset is fetched, and the one behind `#` or of an address is an
operand that is found by moving the program counter on.
-/

namespace ClassroomCpu

variable {arch : Architecture}

/--
A kind of addressing moves a register on together with the program counter
exactly if it is a way through the program counter, and never moves it back.
-/
structure AddressingMode.Kind.MovesOn (kind : AddressingMode.Kind)
    (index : Fin arch.registers.length) : Prop where
  through : kind = .immediate ∨ kind = .direct → index = arch.counter
  apart : kind = .postIncrement ∨ kind = .postIncrementIndirect ∨ kind = .preDecrement ∨
    kind = .preDecrementIndirect → index ≠ arch.counter
  isWordKind : kind ≠ .indirect ∧ kind ≠ .indexedByX ∧ kind ≠ .indexedByCounter

namespace Exec

/-! ## Registers by number -/

theorem numberedRegister_apply (index : Fin arch.registers.length) :
    (numberedRegister index : Exec arch _) = pure index := by
  simp [numberedRegister]

theorem readRegister_apply (index : Fin arch.registers.length) (machine : Machine arch) :
    readRegister index machine = .ok (machine.register index) machine := by
  rw [readRegister, numberedRegister_apply]
  rfl

theorem writeRegister_apply (index : Fin arch.registers.length) (value : Int)
    (machine : Machine arch) :
    writeRegister index value machine = .ok () (machine.setRegister index value) := by
  rw [writeRegister, numberedRegister_apply]
  rfl

theorem keeps_readRegister (index : Fin arch.registers.length) :
    Keeps (readRegister index : Exec arch Nat) :=
  fun machine => .of_eq (readRegister_apply index machine) rfl

theorem keeps_writeRegister {index : Fin arch.registers.length} (other : index ≠ arch.counter)
    (value : Int) : Keeps (writeRegister index value : Exec arch Unit) :=
  fun machine => .of_eq (writeRegister_apply index value machine)
    (machine.counter_setRegister other value)

/-! ## Finding an operand -/

theorem nextWord_apply (machine : Machine arch) :
    nextWord machine =
      .ok (machine.peekNumber .big 2 machine.counter)
        ((machine.countAccesses 2).setCounter (machine.counter + 2)) := by
  rw [nextWord, bind_of_ok (counter_apply machine), bind_of_ok (readWord_apply _ machine)]
  rfl

theorem follow_apply (pointer : Nat) (machine : Machine arch) :
    follow pointer machine =
      .ok (.memory (arch.cell (machine.peekNumber .big 2 pointer))) (machine.countAccesses 2) := by
  rw [follow, bind_of_ok (readWord_apply _ machine)]
  rfl

/-- Where an operand of some kind may be that is found through a register. -/
def FoundAt (kind : AddressingMode.Kind) (index : Fin arch.registers.length) :
    Location → Prop
  | .register number => number = index ∧ kind = .register
  | .memory _ => kind ≠ .register

/-- Finding an operand moves the program counter past its word and only reads memory. -/
theorem ends_locate (wordMachine : arch.model = .word) {kind : AddressingMode.Kind}
    {index : Fin arch.registers.length} (movesOn : kind.MovesOn index) {machine : Machine arch}
    (bounded : machine.counter < arch.counterSize) :
    Ends (locate kind index) machine fun location after =>
      after.counter = (machine.counter + arch.operandBytes kind) % arch.counterSize ∧
        after.memory = machine.memory ∧ FoundAt kind index location := by
  have stays : machine.counter = (machine.counter + 0) % arch.counterSize :=
    (Nat.mod_eq_of_lt bounded).symm
  have offset : ((machine.countAccesses 2).setCounter (machine.counter + 2)).counter =
      (machine.counter + 2) % arch.counterSize :=
    (machine.countAccesses 2).counter_setCounter_natCast (machine.counter + 2)
  have moved : ∀ value, index ≠ arch.counter → (machine.setRegister index value).counter =
      (machine.counter + 0) % arch.counterSize := by
    intro value other
    rw [machine.counter_setRegister other, ← stays]
  have movedOn : index = arch.counter →
      (machine.setRegister index (machine.register index + 2)).counter =
        (machine.counter + 2) % arch.counterSize := by
    rintro rfl
    exact machine.counter_setCounter_natCast (machine.counter + 2)
  rw [Datasheet.operandBytes_of_word wordMachine]
  unfold locate
  cases kind with
  | indirect => exact absurd rfl movesOn.isWordKind.1
  | indexedByX => exact absurd rfl movesOn.isWordKind.2.1
  | indexedByCounter => exact absurd rfl movesOn.isWordKind.2.2
  | register => exact .of_pure ⟨stays, rfl, rfl, rfl⟩
  | immediate =>
      apply Ends.after (readRegister_apply index machine)
      apply Ends.after (writeRegister_apply index _ machine)
      exact .of_pure ⟨movedOn (movesOn.through (by simp)), rfl, by simp [FoundAt]⟩
  | postIncrement | preDecrement =>
      apply Ends.after (readRegister_apply index machine)
      apply Ends.after (writeRegister_apply index _ machine)
      exact .of_pure ⟨moved _ (movesOn.apart (by simp)), rfl, by simp [FoundAt]⟩
  | indexed =>
      apply Ends.after (nextWord_apply machine)
      apply Ends.after (readRegister_apply index _)
      exact .of_pure ⟨offset, by simp, by simp [FoundAt]⟩
  | registerIndirect =>
      apply Ends.after (readRegister_apply index machine)
      exact .of_pure ⟨stays, rfl, by simp [FoundAt]⟩
  | direct =>
      apply Ends.after (readRegister_apply index machine)
      apply Ends.after (writeRegister_apply index _ machine)
      refine .of_eq (follow_apply _ _) ⟨?_, ?_, by simp [FoundAt]⟩
      · rw [Machine.counter_countAccesses, movedOn (movesOn.through (by simp))]
      · rw [Machine.memory_countAccesses, Machine.memory_setRegister]
  | postIncrementIndirect | preDecrementIndirect =>
      apply Ends.after (readRegister_apply index machine)
      apply Ends.after (writeRegister_apply index _ machine)
      refine .of_eq (follow_apply _ _) ⟨?_, ?_, by simp [FoundAt]⟩
      · rw [Machine.counter_countAccesses, moved _ (movesOn.apart (by simp))]
      · rw [Machine.memory_countAccesses, Machine.memory_setRegister]
  | indexedIndirect =>
      apply Ends.after (nextWord_apply machine)
      apply Ends.after (readRegister_apply index _)
      refine .of_eq (follow_apply _ _) ⟨?_, ?_, by simp [FoundAt]⟩
      · rw [Machine.counter_countAccesses, offset]
      · simp

/-! ## Reading and writing operands -/

theorem keeps_load {kind : AddressingMode.Kind} {index : Fin arch.registers.length}
    {location : Location} (found : FoundAt kind index location) :
    Keeps (load location : Exec arch Nat) := by
  cases location with
  | register number =>
      obtain ⟨rfl, _⟩ := found
      exact keeps_readRegister index
  | memory address => exact keeps_readWord address

theorem keeps_store {kind : AddressingMode.Kind} {index : Fin arch.registers.length}
    {location : Location} (found : FoundAt kind index location)
    (other : kind = .register → index ≠ arch.counter) (value : Nat) :
    Keeps (store value location : Exec arch Unit) := by
  cases location with
  | register number =>
      obtain ⟨rfl, inRegister⟩ := found
      exact keeps_writeRegister (other inRegister) _
  | memory address => exact keeps_writeWord address _

theorem keeps_setWordCodes (value : Nat) (overflow carry : Bool) :
    Keeps (setWordCodes value overflow carry : Exec arch Unit) :=
  (keeps_setSignAndZero _ _).bind fun _ =>
    (keeps_setCode _ _).bind fun _ => keeps_setCode _ _

theorem keeps_setLogicCodes (value : Nat) : Keeps (setLogicCodes value : Exec arch Unit) :=
  (keeps_setSignAndZero _ _).bind fun _ => keeps_setCode _ _

theorem keeps_forM_setCode (codes : List FlagCode) (value : Bool) :
    Keeps (codes.forM (fun code => setCode code value) : Exec arch PUnit) := by
  induction codes with
  | nil => exact .of_pure ()
  | cons code codes induction => exact (keeps_setCode code value).bind fun _ => induction

end Exec

/-! ## Regular word machines -/

/-- An instruction of a word machine has the operands that its operation works on. -/
def Instruction.hasWordShape (instruction : Instruction) : Bool :=
  match instruction.operation with
  | .branch _ | .loop => instruction.size == 2
  | .jump .always | .clear | .not | .inc | .dec | .neg | .test | .rotateRight | .rotateLeft
  | .halve | .double | .addCarry | .subCarry =>
      instruction.size == 0 && instruction.parameters == [.operand "a"]
  | .call => instruction.size == 0 && instruction.parameters == [.register, .operand "a"]
  | .move | .add | .sub | .compare | .and | .or =>
      instruction.size == 0 && instruction.parameters == [.operand "a0", .operand "a1"]
  | _ => instruction.size == 1

/-- A word machine with eight registers that goes through its program counter by abbreviations. -/
structure Architecture.WordRegular (arch : Architecture) : Prop where
  model : arch.model = .word
  registers : arch.registers.length = 8
  /-- The program counter wraps around where memory does. -/
  size : arch.counterSize = arch.memorySize
  wide : ∀ index : Fin arch.registers.length, (arch.registers.get index).width = 16
  through : ∀ bits,
    Exec.operandKind arch bits = .immediate ∨ Exec.operandKind arch bits = .direct →
      FetchedWord.registerNumber bits = arch.counter
  apart : ∀ bits,
    Exec.operandKind arch bits = .postIncrement ∨
        Exec.operandKind arch bits = .postIncrementIndirect →
      FetchedWord.registerNumber bits ≠ arch.counter
  isWordKind : ∀ bits, Exec.operandKind arch bits ≠ .indirect ∧
    Exec.operandKind arch bits ≠ .indexedByX ∧ Exec.operandKind arch bits ≠ .indexedByCounter
  shapes : ∀ instruction ∈ arch.instructions, instruction.hasWordShape = true

namespace Architecture.WordRegular

variable (regular : arch.WordRegular)
include regular

theorem registerNumber_lt (bits : UInt8) :
    FetchedWord.registerNumber bits < arch.registers.length := by
  rw [regular.registers]
  exact Nat.mod_lt _ (by omega)

omit regular in
/-- The register that the low three bits of a byte select. -/
def selected (regular : arch.WordRegular) (bits : UInt8) : Fin arch.registers.length :=
  ⟨FetchedWord.registerNumber bits, regular.registerNumber_lt bits⟩

theorem selected_eq_counter {bits : UInt8} :
    regular.selected bits = arch.counter ↔ FetchedWord.registerNumber bits = arch.counter :=
  Fin.ext_iff

theorem movesOn {bits : UInt8} (forward : Instruction.movesBack arch bits = false) :
    (Exec.operandKind arch bits).MovesOn (regular.selected bits) := by
  refine ⟨?_, ?_, regular.isWordKind bits⟩
  · exact fun through => regular.selected_eq_counter.mpr (regular.through bits through)
  · intro moves same
    have number := regular.selected_eq_counter.mp same
    rcases moves with increment | indirect | decrement | decrementIndirect
    · exact regular.apart bits (.inl increment) number
    · exact regular.apart bits (.inr indirect) number
    · simp [Instruction.movesBack, number, decrement] at forward
    · simp [Instruction.movesBack, number, decrementIndirect] at forward

theorem ends_locate {bits : UInt8} (forward : Instruction.movesBack arch bits = false)
    {machine : Machine arch} (bounded : machine.counter < arch.counterSize) :
    Exec.Ends (WordOperand.ofBits arch bits).locate machine fun location after =>
      after.counter =
          (machine.counter + arch.operandBytes (Exec.operandKind arch bits)) %
            arch.counterSize ∧
        after.memory = machine.memory ∧
        Exec.FoundAt (Exec.operandKind arch bits) (regular.selected bits) location :=
  Exec.ends_locate regular.model (regular.movesOn forward) bounded

theorem keeps_store {bits : UInt8} (other : Instruction.isCounter arch bits = false)
    {location : Location}
    (found : Exec.FoundAt (Exec.operandKind arch bits) (regular.selected bits) location)
    (value : Nat) : Exec.Keeps (Exec.store value location : Exec arch Unit) := by
  apply Exec.keeps_store found
  intro inRegister same
  simp [Instruction.isCounter, inRegister, regular.selected_eq_counter.mp same] at other

end Architecture.WordRegular

end ClassroomCpu
