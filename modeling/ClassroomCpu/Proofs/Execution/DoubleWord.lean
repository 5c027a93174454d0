import ClassroomCpu.Proofs.Execution.Comparison

/-!
# Arithmetic on double words

A number of thirty-two bits is kept in two registers.  Two such numbers are
added by an addition of the low words, an instruction that passes on what the
sum carries, and an addition of the high words; they are subtracted alike.
-/

namespace ClassroomCpu

open Assembly Exec

variable {arch : Architecture}

/-! ## Words that carry -/

/-- The operations on two words whose carry another operation passes on. -/
inductive CarryOperator
  | add
  | sub
  deriving DecidableEq, Repr

namespace CarryOperator

def apply : CarryOperator → Int → Int → Int
  | add, left, right => left + right
  | sub, left, right => left - right

/-- What the operator gives on words of sixteen bits, with a carry or a borrow. -/
def onWords : CarryOperator → Nat → Nat → Bool → Alu.Outcome
  | add => Alu.add 16
  | sub => Alu.sub 16

def operation : CarryOperator → Operation
  | add => .add
  | sub => .sub

/-- The operation that passes on what the operator carries. -/
def carryOperation : CarryOperator → Operation
  | add => .addCarry
  | sub => .subCarry

variable (operator : CarryOperator)

theorem onWords_lt (left right : Nat) (carry : Bool) :
    (operator.onWords left right carry).value < 65536 := by
  have size : powerOfTwo 16 = 65536 := rfl
  cases operator <;> simp only [onWords, Alu.add, Alu.sub, Alu.truncate, size] <;> omega

/-- What the result lacks of the exact one is carried. -/
theorem onWords_exact {left right : Nat} (smallLeft : left < 65536) (smallRight : right < 65536)
    (carry : Bool) :
    operator.apply (operator.onWords left right carry).value
        (65536 * (operator.onWords left right carry).carry.toNat) =
      operator.apply left (right + carry.toNat) := by
  have size : powerOfTwo 16 = 65536 := rfl
  have bit := carry.toNat_lt
  cases operator with
  | add =>
      simp only [onWords, apply, Alu.add, Alu.truncate, size]
      by_cases carries : 65536 ≤ left + right + carry.toNat <;>
        simp only [carries, decide_true, decide_false, Bool.toNat_true, Bool.toNat_false] <;> omega
  | sub =>
      simp only [onWords, apply, Alu.sub, size]
      by_cases borrows : (left : Int) - right - carry.toNat < 0 <;>
        simp only [borrows, decide_true, decide_false, Bool.toNat_true, Bool.toNat_false] <;> omega

/--
The low words, the high word with what they carry, and the high words make up
the result on double words.
-/
theorem onWords_double {xHigh xLow yHigh yLow : Nat} (smallXHigh : xHigh < 65536)
    (smallXLow : xLow < 65536) (smallYHigh : yHigh < 65536) (smallYLow : yLow < 65536) :
    let low := operator.onWords xLow yLow false
    let carried := operator.onWords xHigh 0 low.carry
    let high := operator.onWords carried.value yHigh false
    ((high.value * 65536 + low.value : Nat) : Int) =
      operator.apply (xHigh * 65536 + xLow : Nat) (yHigh * 65536 + yLow : Nat) % 2 ^ 32 := by
  intro low carried high
  have smallLow : low.value < 65536 := operator.onWords_lt _ _ _
  have smallCarried : carried.value < 65536 := operator.onWords_lt _ _ _
  have smallHigh : high.value < 65536 := operator.onWords_lt _ _ _
  have exactLow : operator.apply low.value (65536 * low.carry.toNat) = operator.apply xLow yLow :=
    (operator.onWords_exact smallXLow smallYLow false).trans (by rw [Bool.toNat_false]; simp)
  have exactCarried : operator.apply carried.value (65536 * carried.carry.toNat) =
      operator.apply xHigh low.carry.toNat :=
    (operator.onWords_exact smallXHigh (Nat.zero_lt_succ _) low.carry).trans (by simp)
  have exactHigh : operator.apply high.value (65536 * high.carry.toNat) =
      operator.apply carried.value yHigh :=
    (operator.onWords_exact smallCarried smallYHigh false).trans (by rw [Bool.toNat_false]; simp)
  clear_value low carried high
  -- What the low words carry cancels out; what the high words carry is beyond the double word.
  cases operator <;> simp only [apply] at exactLow exactCarried exactHigh ⊢ <;> omega

end CarryOperator

/-- The sign of a double word is that of its high word. -/
theorem Alu.signBit_double (high : Nat) {low : Nat} (small : low < 65536) :
    Alu.signBit 16 high = (high * 65536 + low).testBit 31 := by
  simp only [signBit, Nat.testBit_eq_decide_div_mod_eq, decide_eq_decide]
  omega

/-! ## Results in registers -/

/-- The operand is the register with an index. -/
structure WordOperand.IsRegister (operand : WordOperand arch)
    (index : Fin arch.registers.length) : Prop where
  locate : operand.locate = pure (.register index)
  load : operand.load (.register index) = readRegister index

/-- The operand is written as the register with an index. -/
structure Assembly.Operand.IsRegister (operand : Operand) (index : Fin arch.registers.length) :
    Prop where
  kind : operand.mode.kind = .register
  place : registerPlace arch operand.register = index

theorem Assembly.Operand.IsRegister.written {operand : Operand}
    {index : Fin arch.registers.length} (isRegister : operand.IsRegister index)
    (labels : LabelTable) :
    (WordOperand.written arch labels (some operand)).IsRegister index := by
  constructor <;> simp only [WordOperand.written, isRegister.kind, isRegister.place] <;> rfl

/-- The outcome of an operation was put into a register, and is shown in the condition codes. -/
structure Machine.Computed (machine : Machine arch) (index : Fin arch.registers.length)
    (outcome : Alu.Outcome) (after : Machine arch) : Prop where
  shown : after.status.Shows outcome.value outcome.overflow outcome.carry
  memory : after.memory = machine.memory
  registers : after.registers = (machine.setRegister index outcome.value).registers

namespace Exec

theorem ends_storeOutcome (codes : arch.HasWordCodes) (index : Fin arch.registers.length)
    {outcome : Alu.Outcome} (small : outcome.value < 65536) (machine : Machine arch) :
    Ends (do
        store outcome.value (.register index)
        setWordCodes outcome.value outcome.overflow outcome.carry) machine fun _ =>
      machine.Computed index outcome := by
  have kept : Alu.truncate 16 outcome.value = outcome.value := Nat.mod_eq_of_lt small
  have stores : store outcome.value (.register index) machine =
      .ok () (machine.setRegister index outcome.value) := by
    rw [store, kept]
    exact writeRegister_apply index _ machine
  apply Ends.after stores
  apply (ends_setWordCodes codes _ _ _ _).mono
  rintro _ after ⟨shown, memory, registers⟩
  exact ⟨shown, memory, registers⟩

variable (codes : arch.HasWordCodes) (operator : CarryOperator) {fetched : FetchedWord arch}
  (machine : Machine arch)
include codes

/-- An operation on two words in registers leaves its result in the second one. -/
theorem ends_combine (operation : fetched.instruction.operation = operator.operation)
    {source destination : Fin arch.registers.length} (first : fetched.source.IsRegister source)
    (second : fetched.destination.IsRegister destination) :
    Ends fetched.execute machine fun _ =>
      machine.Computed destination
        (operator.onWords (machine.register destination) (machine.register source) false) := by
  have executes : fetched.execute = (do
      let word ← readRegister source
      let value ← readRegister destination
      let outcome := operator.onWords value word false
      store outcome.value (.register destination)
      setWordCodes outcome.value outcome.overflow outcome.carry) := by
    unfold FetchedWord.execute FetchedWord.computeOnWords
    rw [operation, first.locate, second.locate]
    simp only [pure_bind, first.load, second.load]
    cases operator <;> rfl
  rw [executes]
  apply Ends.after (readRegister_apply source machine)
  apply Ends.after (readRegister_apply destination machine)
  exact ends_storeOutcome codes destination (operator.onWords_lt _ _ _) machine

/-- An operation that passes on the carry leaves its result in the register of its operand. -/
theorem ends_passCarry (operation : fetched.instruction.operation = operator.carryOperation)
    {index : Fin arch.registers.length} (operand : fetched.operand.IsRegister index) :
    Ends fetched.execute machine fun _ =>
      machine.Computed index
        (operator.onWords (machine.register index) 0 machine.status.carry) := by
  have executes : fetched.execute = (do
      let value ← readRegister index
      let status ← status
      let outcome := operator.onWords value 0 status.carry
      store outcome.value (.register index)
      setWordCodes outcome.value outcome.overflow outcome.carry) := by
    unfold FetchedWord.execute FetchedWord.computeOnWord
    rw [operation, operand.locate]
    simp only [pure_bind, operand.load]
    cases operator <;> rfl
  rw [executes]
  apply Ends.after (readRegister_apply index machine)
  apply Ends.after (status_apply machine)
  exact ends_storeOutcome codes index (operator.onWords_lt _ _ _) machine

end Exec

/-! ## Steps -/

theorem Machine.register_pastTwo (machine : Machine arch) {index : Fin arch.registers.length}
    (other : index ≠ arch.counter) :
    machine.pastOpcode.pastOpcode.register index = machine.register index := by
  rw [register_pastOpcode _ other, register_pastOpcode _ other]

namespace Machine.Computed

variable {machine after : Machine arch} {index : Fin arch.registers.length}
  {outcome : Alu.Outcome} (regular : arch.WordRegular)
  (computed : machine.pastOpcode.pastOpcode.Computed index outcome after)
include computed

include regular in
theorem value (small : outcome.value < 65536) : after.register index = outcome.value := by
  rw [register, computed.registers]
  change (machine.pastOpcode.pastOpcode.setRegister index outcome.value).register index = _
  rw [regular.register_setRegister, if_pos rfl]
  omega

theorem other {read : Fin arch.registers.length} (apart : read ≠ index)
    (different : read ≠ arch.counter) : after.register read = machine.register read := by
  rw [register, computed.registers]
  change (machine.pastOpcode.pastOpcode.setRegister index outcome.value).register read = _
  rw [register_setRegister, if_neg (Ne.symm apart), machine.register_pastTwo different]

include regular in
theorem counter (apart : index ≠ arch.counter) :
    after.counter = (machine.counter + 2) % 65536 := by
  rw [Machine.counter, register, computed.registers]
  change (machine.pastOpcode.pastOpcode.setRegister index outcome.value).counter = _
  rw [counter_setRegister _ apart, counter_pastTwo, regular.counterSize_eq]

include regular in
/-- The bytes behind the two of the instruction are at the program counter now. -/
theorem holds (apart : index ≠ arch.counter) {bytes further : List UInt8}
    (two : bytes.length = 2) (there : machine.Holds machine.counter (bytes ++ further)) :
    after.Holds after.counter further := by
  apply (holds_append.mp there).2.congr computed.memory
  rw [computed.counter regular apart, two, WordOperand.memorySize_eq regular, Nat.mod_mod]

end Machine.Computed

/-- A step at a statement with operands in registers executes it behind two bytes. -/
theorem Exec.ends_step_of_registers (regular : arch.WordRegular) (sound : arch.WordSound)
    {statement : String} {instruction : Instruction} {operands : List Operand}
    (written : writtenInstruction? arch statement = some (instruction, operands.map .operand))
    (inRegisters : ∀ operand ∈ operands, operand.mode.kind = .register)
    (openSize : instruction.size = 0) {bytes : List UInt8} {labels : LabelTable}
    {machine : Machine arch}
    (emitted : statementEffect ⟨.emit, labels, machine.counter⟩ arch statement =
      .ok (.data bytes))
    (there : machine.Holds machine.counter bytes) {index : Fin arch.registers.length}
    {outcome : Alu.Outcome}
    (ends : Ends (FetchedWord.written arch labels instruction (operands.map .operand)).execute
      machine.pastOpcode.pastOpcode fun _ =>
        machine.pastOpcode.pastOpcode.Computed index outcome) :
    Ends step machine fun _ => machine.pastOpcode.pastOpcode.Computed index outcome := by
  have known := mem_instructions_of_written written
  have encoded := wordEncoded_of_written sound written (encode_of_emitted written emitted)
  have apart : ∀ operand ∈ writtenOperands (operands.map Argument.operand),
      operand.movesCounter arch = false := by
    intro operand member
    have among : operand ∈ operands := by simpa [writtenOperands, Argument.operand?] using member
    simp [Operand.movesCounter, inRegisters operand among,
      AddressingMode.Kind.increments, AddressingMode.Kind.decrements]
  have noLoop : instruction.operation ≠ .loop := by
    intro loops
    have size := (sound.formed known).2
    rw [openSize, loops] at size
    exact absurd size (by decide)
  have same := wordInstruction_eq_written regular sound known encoded apart
    (fun loops => absurd loops noLoop) there
  have executes : writtenWordInstruction arch labels instruction (operands.map .operand) machine =
      (FetchedWord.written arch labels instruction (operands.map .operand)).execute
        machine.pastOpcode.pastOpcode := by
    rw [writtenWordInstruction_apply, machine.pastWordFetch_of_double (by omega)]
  obtain ⟨_, after, executed, computed⟩ := ends
  rw [step_of_word regular.model]
  exact .of_eq (bind_of_ok ((same.trans executes).trans executed))
    ⟨computed.shown, computed.memory, computed.registers⟩

/-! ## Double words -/

/-- The registers of the high and of the low word of a number. -/
structure RegisterPair (arch : Architecture) where
  high : Fin arch.registers.length
  low : Fin arch.registers.length

/-- The number of thirty-two bits in two registers. -/
def Machine.doubleWord (machine : Machine arch) (pair : RegisterPair arch) : Nat :=
  machine.register pair.high * 65536 + machine.register pair.low

/--
Three instructions combined the numbers in two pairs of registers.  The result
is in the first pair, and its sign is shown; the other registers and memory are
as they were, and the program counter is behind the instructions.
-/
structure CarryOperator.Combined (operator : CarryOperator) (machine : Machine arch)
    (x y : RegisterPair arch) (after : Machine arch) : Prop where
  result : (after.doubleWord x : Int) =
    operator.apply (machine.doubleWord x) (machine.doubleWord y) % 2 ^ 32
  negative : after.status.negative = (after.doubleWord x).testBit 31
  operand : after.doubleWord y = machine.doubleWord y
  registers : ∀ index ∉ [arch.counter, x.high, x.low],
    after.register index = machine.register index
  memory : after.memory = machine.memory
  counter : after.counter = (machine.counter + 6) % 65536

/-- The words with what they carry make up the double words. -/
theorem CarryOperator.combined_of_computed (operator : CarryOperator)
    (regular : arch.WordRegular) {x y : RegisterPair arch}
    (apart : [arch.counter, x.high, x.low, y.high, y.low].Nodup)
    {machine first second after : Machine arch} (sound : machine.Sound)
    (low : machine.pastOpcode.pastOpcode.Computed x.low
      (operator.onWords (machine.register x.low) (machine.register y.low) false) first)
    (carried : first.pastOpcode.pastOpcode.Computed x.high
      (operator.onWords (first.register x.high) 0 first.status.carry) second)
    (high : second.pastOpcode.pastOpcode.Computed x.high
      (operator.onWords (second.register x.high) (second.register y.high) false) after) :
    operator.Combined machine x y after := by
  simp only [List.nodup_cons, List.mem_cons, List.not_mem_nil, or_false, not_or] at apart
  obtain ⟨⟨highCounter, lowCounter, otherCounter, otherLowCounter⟩,
    ⟨highLow, highOther, highOtherLow⟩, ⟨lowOther, lowOtherLow⟩, -⟩ := apart
  have others : ∀ index ∉ [arch.counter, x.high, x.low],
      after.register index = machine.register index := by
    intro index other
    simp only [List.mem_cons, List.not_mem_nil, or_false, not_or] at other
    obtain ⟨notCounter, notHigh, notLow⟩ := other
    rw [high.other notHigh notCounter, carried.other notHigh notCounter,
      low.other notLow notCounter]
  have lowWord : after.register x.low =
      (operator.onWords (machine.register x.low) (machine.register y.low) false).value := by
    rw [high.other (Ne.symm highLow) (Ne.symm lowCounter),
      carried.other (Ne.symm highLow) (Ne.symm lowCounter),
      low.value regular (operator.onWords_lt _ _ _)]
  -- The second instruction takes up the carry of the first one just as that was left.
  have carriedWord : second.register x.high = (operator.onWords (machine.register x.high) 0
      (operator.onWords (machine.register x.low) (machine.register y.low) false).carry).value := by
    rw [carried.value regular (operator.onWords_lt _ _ _), low.shown.carry,
      low.other highLow (Ne.symm highCounter)]
  have otherWord : second.register y.high = machine.register y.high := by
    rw [carried.other (Ne.symm highOther) (Ne.symm otherCounter),
      low.other (Ne.symm lowOther) (Ne.symm otherCounter)]
  have highWord := high.value regular (operator.onWords_lt _ _ _)
  constructor
  case result =>
    have small := regular.register_lt sound
    rw [Machine.doubleWord, highWord, lowWord, carriedWord, otherWord]
    exact operator.onWords_double (small x.high) (small x.low) (small y.high) (small y.low)
  case negative =>
    rw [high.shown.negative, ← highWord]
    apply Alu.signBit_double
    rw [lowWord]
    exact operator.onWords_lt _ _ _
  case operand =>
    rw [Machine.doubleWord, Machine.doubleWord,
      others y.high (by simp [Ne.symm otherCounter, Ne.symm highOther, Ne.symm lowOther]),
      others y.low (by simp [Ne.symm otherLowCounter, Ne.symm highOtherLow, Ne.symm lowOtherLow])]
  case registers =>
    exact others
  case memory =>
    exact (high.memory.trans carried.memory).trans low.memory
  case counter =>
    have firstCounter := low.counter regular (Ne.symm lowCounter)
    have secondCounter := carried.counter regular (Ne.symm highCounter)
    have lastCounter := high.counter regular (Ne.symm highCounter)
    omega

end ClassroomCpu
