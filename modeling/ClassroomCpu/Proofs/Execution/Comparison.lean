import ClassroomCpu.Proofs.Alu
import ClassroomCpu.Proofs.Execution.WordCalls
import ClassroomCpu.Proofs.Machine.Agreement

/-!
# Comparisons of words

A comparison subtracts its second operand from its first one, keeps nothing but
the condition codes of the difference, and so leaves every branch behind it to
be taken just if the operands are in the order that the branch asks for.
-/

namespace ClassroomCpu

open Exec

/-! ## Orders of words -/

/--
What a branch behind a comparison asks of the two words: an order of the words
themselves, an order of the two's complement numbers that they stand for, the
sign of the difference as a word, or whether the exact difference of the signed
numbers has one.
-/
def Condition.Orders (first second : Nat) : Condition → Prop
  | always => True
  | equal => first = second
  | notEqual => first ≠ second
  | minus => ((first : Int) - second).bmod 65536 < 0
  | plus => 0 ≤ ((first : Int) - second).bmod 65536
  | overflowSet =>
      (first : Int).bmod 65536 - (second : Int).bmod 65536 < -32768 ∨
        32767 < (first : Int).bmod 65536 - (second : Int).bmod 65536
  | overflowClear =>
      -32768 ≤ (first : Int).bmod 65536 - (second : Int).bmod 65536 ∧
        (first : Int).bmod 65536 - (second : Int).bmod 65536 ≤ 32767
  | carrySet => first < second
  | carryClear => second ≤ first
  | greaterOrEqual => (second : Int).bmod 65536 ≤ (first : Int).bmod 65536
  | less => (first : Int).bmod 65536 < (second : Int).bmod 65536
  | greater => (second : Int).bmod 65536 < (first : Int).bmod 65536
  | lessOrEqual => (first : Int).bmod 65536 ≤ (second : Int).bmod 65536
  | higher => second < first
  | lowerOrSame => first ≤ second

/-- The condition codes are those of the difference of two words. -/
structure Status.Compares (status : Status) (first second : Nat) : Prop where
  negative : status.negative = true ↔ Condition.minus.Orders first second
  zero : status.zero = true ↔ first = second
  overflow : status.overflow = true ↔ Condition.overflowSet.Orders first second
  carry : status.carry = true ↔ first < second

section Words

variable {first second : Nat} (smallFirst : first < 65536) (smallSecond : second < 65536)
include smallFirst smallSecond

/-- The difference as a word has the sign of the exact one just if this one does not overflow. -/
theorem bmod_sub_lt_zero_iff :
    ((first : Int) - second).bmod 65536 < 0 ↔
      ((first : Int).bmod 65536 < (second : Int).bmod 65536 ↔
        ¬ Condition.overflowSet.Orders first second) := by
  simp only [Condition.Orders, Int.bmod_def]
  omega

/-- Words are equal if they stand for the same signed number. -/
theorem bmod_inj : (first : Int).bmod 65536 = (second : Int).bmod 65536 ↔ first = second := by
  simp only [Int.bmod_def]
  omega

/-- Every branch behind a comparison is taken just if the words are in its order. -/
theorem Status.Compares.holds_iff {status : Status} (compares : status.Compares first second)
    (condition : Condition) :
    condition.holds status = true ↔ condition.Orders first second := by
  have negative := compares.negative
  have zero := compares.zero
  have overflow := compares.overflow
  have carry := compares.carry
  have same := bmod_inj smallFirst smallSecond
  -- The codes for the sign and for the overflow differ if the first number is the smaller one.
  have signs : status.negative = status.overflow ↔
      (second : Int).bmod 65536 ≤ (first : Int).bmod 65536 := by
    have sign := bmod_sub_lt_zero_iff smallFirst smallSecond
    rw [Bool.eq_iff_iff, negative, overflow]
    simp only [Condition.Orders] at sign ⊢
    omega
  cases condition with
  | always => exact iff_of_true rfl trivial
  | equal => exact zero
  | minus => exact negative
  | overflowSet => exact overflow
  | carrySet => exact carry
  | notEqual | plus | carryClear =>
      simp only [Condition.holds, Bool.not_eq_true', ← Bool.not_eq_true, zero, negative, carry,
        Condition.Orders, ne_eq, Int.not_lt, Nat.not_lt]
  | overflowClear =>
      simp only [Condition.holds, Bool.not_eq_true', ← Bool.not_eq_true, overflow,
        Condition.Orders]
      omega
  | greaterOrEqual | less =>
      simp only [Condition.holds, beq_iff_eq, bne_iff_ne, ne_eq, signs, Condition.Orders,
        Int.not_le]
  | greater | lessOrEqual =>
      simp only [Condition.holds, Bool.and_eq_true, Bool.or_eq_true, Bool.not_eq_true',
        ← Bool.not_eq_true, beq_iff_eq, bne_iff_ne, ne_eq, zero, signs, Condition.Orders]
      omega
  | higher | lowerOrSame =>
      simp only [Condition.holds, Bool.and_eq_true, Bool.or_eq_true, Bool.not_eq_true',
        ← Bool.not_eq_true, zero, carry, Condition.Orders]
      omega

/-- The results of a subtraction are the condition codes of the difference. -/
theorem Status.compares_of_sub {status : Status}
    (negative : status.negative = Alu.signBit 16 (Alu.sub 16 first second false).value)
    (zero : status.zero = (Alu.truncate 16 (Alu.sub 16 first second false).value == 0))
    (overflow : status.overflow = (Alu.sub 16 first second false).overflow)
    (carry : status.carry = (Alu.sub 16 first second false).carry) :
    status.Compares first second := by
  have size : powerOfTwo 16 = 65536 := rfl
  simp only [Alu.sub, Alu.signBit, Alu.truncate, Alu.signed_eq_bmod (show 0 < 16 by decide), size,
    Bool.toNat_false, Int.natCast_zero, Int.sub_zero, Nat.add_one_sub_one,
    Nat.testBit_eq_decide_div_mod_eq] at negative zero overflow carry
  refine ⟨?_, ?_, ?_, ?_⟩
  · simp only [negative, decide_eq_true_eq, Condition.Orders, Int.bmod_def]
    omega
  · simp only [zero, beq_iff_eq]
    omega
  · simp only [overflow, bne_iff_ne, ne_eq, Condition.Orders, Int.bmod_def]
    omega
  · simp only [carry, decide_eq_true_eq]
    omega

end Words

variable {arch : Architecture}

/-! ## Reading the operands -/

/-- Finds an operand and reads it. -/
def WordOperand.read (operand : WordOperand arch) : Exec arch Nat := do
  let location ← operand.locate
  operand.load location

/-- Finds and reads the two operands that the first two bytes of an instruction name, in turn. -/
def Exec.readOperands (opcode second : UInt8) : Exec arch (Nat × Nat) := do
  let source ← (WordOperand.ofBits arch (FetchedWord.sourceBits opcode second)).read
  let destination ← (WordOperand.ofBits arch (FetchedWord.destinationBits opcode second)).read
  return (source, destination)

namespace Architecture.WordRegular

variable (regular : arch.WordRegular)
include regular

/-- Every operand is found; finding it only reads memory. -/
theorem ends_locate_only (bits : UInt8) {machine : Machine arch}
    (bounded : machine.counter < arch.counterSize) :
    Ends (WordOperand.ofBits arch bits).locate machine fun location found =>
      location.Inside arch ∧ found.memory = machine.memory := by
  obtain ⟨location, found, finds, inside⟩ :=
    inside_locate (operandKind arch bits) (regular.selected bits) machine
  refine .of_eq finds ⟨inside, ?_⟩
  by_cases back : Instruction.movesBack arch bits = true
  · obtain ⟨_, _, same, -, memory, -⟩ := regular.ends_locate_back back machine
    obtain ⟨-, rfl⟩ := EStateM.Result.ok.inj (same.symm.trans finds)
    exact memory
  · obtain ⟨_, _, same, -, memory, -⟩ := regular.ends_locate (Bool.eq_false_iff.mpr back) bounded
    obtain ⟨-, rfl⟩ := EStateM.Result.ok.inj (same.symm.trans finds)
    exact memory

/-- What is read from a register or from memory is a word. -/
theorem ends_load {location : Location} (inside : location.Inside arch) {machine : Machine arch}
    (sound : machine.Sound) :
    Ends (load location) machine fun word found =>
      word < 65536 ∧ found.memory = machine.memory := by
  cases location with
  | register number =>
      exact .of_eq (readRegister_apply ⟨number, inside⟩ machine)
        ⟨regular.register_lt sound _, rfl⟩
  | memory address =>
      refine .of_eq (readWord_apply address machine) ⟨?_, machine.memory_countAccesses 2⟩
      have small := ByteOrder.big.decode_lt (machine.peekBytes address 2)
      rwa [Machine.length_peekBytes] at small

theorem ends_read (bits : UInt8) {machine : Machine arch} (sound : machine.Sound) :
    Ends (WordOperand.ofBits arch bits).read machine fun word found =>
      word < 65536 ∧ found.Sound ∧ found.memory = machine.memory := by
  obtain ⟨location, between, finds, inside, found⟩ :=
    regular.ends_locate_only bits (sound.registers arch.counter)
  have betweenSound := sound.of_composed (composed_locate _ _) finds
  obtain ⟨word, after, reads, small, memory⟩ := regular.ends_load inside betweenSound
  exact .after finds (.of_eq reads
    ⟨small, betweenSound.of_composed (composed_load location) reads, memory.trans found⟩)

end Architecture.WordRegular

/-! ## The comparison -/

/-- A machine with a flag for every condition code of a word machine. -/
def Architecture.HasWordCodes (arch : Architecture) : Prop :=
  ∀ code, code ≠ .borrow → (arch.flagWithCode? code).isSome = true

/-- The condition codes are those of a result of sixteen bits. -/
structure Status.Shows (status : Status) (value : Nat) (overflow carry : Bool) : Prop where
  negative : status.negative = Alu.signBit 16 value
  zero : status.zero = (Alu.truncate 16 value == 0)
  overflow : status.overflow = overflow
  carry : status.carry = carry

/-- A result is shown in flags and nowhere else. -/
theorem Exec.ends_setWordCodes (codes : arch.HasWordCodes) (value : Nat) (overflow carry : Bool)
    (machine : Machine arch) :
    Ends (setWordCodes value overflow carry) machine fun _ after =>
      after.status.Shows value overflow carry ∧ after.memory = machine.memory ∧
        after.registers = machine.registers := by
  have set (code : FlagCode) (value : Bool) (before : Machine arch) :
      setCode code value before = .ok () (before.setCode code value) := rfl
  have read {code : FlagCode} (known : code ≠ .borrow) (written : FlagCode) (value : Bool)
      (before : Machine arch) : (before.setCode written value).code code =
        if written = code then value else before.code code :=
    before.code_setCode (codes code known) written value
  have kept (code : FlagCode) (value : Bool) (before : Machine arch) :
      (before.setCode code value).memory = before.memory ∧
        (before.setCode code value).registers = before.registers := by
    obtain ⟨flags, hub, same⟩ := before.setCode_eq code value
    rw [same]
    exact ⟨rfl, rfl⟩
  refine .after (.trans (bind_of_ok (set _ _ machine)) (set _ _ _)) (.after (set _ _ _)
    (.of_eq (set _ _ _) ⟨?_, by simp [kept], by simp [kept]⟩))
  constructor <;> simp [Machine.status, read]

/-- The results of a subtraction are shown in flags and nowhere else. -/
theorem Exec.ends_showDifference (codes : arch.HasWordCodes) {first second : Nat}
    (smallFirst : first < 65536) (smallSecond : second < 65536) (machine : Machine arch) :
    let outcome := Alu.sub 16 first second false
    Ends (setWordCodes outcome.value outcome.overflow outcome.carry) machine fun _ after =>
      after.status.Compares first second ∧ after.memory = machine.memory ∧
        after.registers = machine.registers := by
  intro outcome
  apply (ends_setWordCodes codes outcome.value outcome.overflow outcome.carry machine).mono
  rintro _ after ⟨shown, kept⟩
  exact ⟨Status.compares_of_sub smallFirst smallSecond shown.negative shown.zero shown.overflow
    shown.carry, kept⟩

/-- A comparison reads its operands and shows their difference. -/
theorem FetchedWord.execute_of_compare {instruction : Instruction}
    (operation : instruction.operation = .compare) (opcode second : UInt8) :
    (FetchedWord.ofBytes arch instruction opcode second).execute = (do
      let words ← readOperands opcode second
      let outcome := Alu.sub 16 words.1 words.2 false
      setWordCodes outcome.value outcome.overflow outcome.carry) := by
  unfold execute computeOnWords readOperands WordOperand.read
  simp only [show (ofBytes arch instruction opcode second).instruction = instruction from rfl,
    operation, bind_assoc, pure_bind]
  rfl

theorem Architecture.WordRegular.ends_readOperands (regular : arch.WordRegular)
    (opcode second : UInt8) {machine : Machine arch} (sound : machine.Sound) :
    Ends (readOperands opcode second) machine fun words found =>
      words.1 < 65536 ∧ words.2 < 65536 ∧ found.memory = machine.memory := by
  apply (regular.ends_read (FetchedWord.sourceBits opcode second) sound).bind
  rintro source between ⟨smallSource, betweenSound, kept⟩
  apply (regular.ends_read (FetchedWord.destinationBits opcode second) betweenSound).bind
  rintro destination found ⟨smallDestination, -, memory⟩
  exact .of_pure ⟨smallSource, smallDestination, memory.trans kept⟩

/-- A step on an instruction of more than one byte executes it behind two bytes, and counts it. -/
theorem Exec.ends_step_of_double (regular : arch.WordRegular) {machine : Machine arch}
    {instruction : Instruction}
    (known : arch.instruction? (machine.peek machine.counter) = some instruction)
    (double : instruction.size ≠ 1) {described : Machine arch → Prop}
    (ends : Ends (FetchedWord.ofBytes arch instruction (machine.peek machine.counter)
        (machine.peek (machine.counter + 1))).execute machine.pastOpcode.pastOpcode
      fun _ after => described after.countInstruction) :
    Ends step machine fun _ after => described after := by
  obtain ⟨_, after, executes, holds⟩ := ends
  rw [← machine.fetchedWord_of_double double, ← machine.pastWordFetch_of_double double,
    ← wordInstruction_of_some regular.size known] at executes
  rw [step_of_word regular.model]
  exact .of_eq (bind_of_ok executes) holds

/--
A comparison finds and reads its operands, shows their difference in the
condition codes, and stores nothing: memory is as it was, and the registers are
as finding the operands left them.
-/
theorem Exec.ends_step_of_compare (regular : arch.WordRegular) (codes : arch.HasWordCodes)
    {machine : Machine arch} (sound : machine.Sound)
    (compares : machine.operationAhead? = some .compare) :
    Ends (readOperands (machine.peek machine.counter) (machine.peek (machine.counter + 1)))
      machine.pastOpcode.pastOpcode fun words found =>
        words.1 < 65536 ∧ words.2 < 65536 ∧
          Ends step machine fun _ after =>
            after.status.Compares words.1 words.2 ∧ after.memory = machine.memory ∧
              after.registers = found.registers := by
  obtain ⟨instruction, known, operation⟩ := Option.map_eq_some_iff.mp compares
  have double : instruction.size ≠ 1 := by
    have shape := regular.shapes instruction (List.mem_of_find?_eq_some known)
    simp only [Instruction.hasWordShape, operation, Bool.and_eq_true, beq_iff_eq] at shape
    omega
  obtain ⟨words, found, reads, smallFirst, smallSecond, memory⟩ :=
    regular.ends_readOperands (machine.peek machine.counter) (machine.peek (machine.counter + 1))
      sound.pastOpcode.pastOpcode
  refine .of_eq reads ⟨smallFirst, smallSecond, ends_step_of_double regular known double ?_⟩
  rw [FetchedWord.execute_of_compare operation]
  apply Ends.after reads
  apply (ends_showDifference codes smallFirst smallSecond found).mono
  rintro _ after ⟨shown, kept, registers⟩
  exact ⟨shown, kept.trans memory, registers⟩

/-- Where a branch leads that stands at the program counter of a machine. -/
def Machine.branchGoal (machine : Machine arch) : Nat :=
  (((machine.counter : Int) + 2 +
    ((machine.peek (machine.counter + 1)).toNat : Int).bmod 256) % arch.counterSize).toNat

/-- A branch goes where it leads if its condition holds, and behind itself otherwise. -/
theorem Exec.ends_step_of_branch (regular : arch.WordRegular) {machine : Machine arch}
    {condition : Condition} (branches : machine.operationAhead? = some (.branch condition)) :
    Ends step machine fun _ after =>
      after.counter = if condition.holds machine.status then machine.branchGoal
        else (machine.counter + 2) % arch.counterSize := by
  obtain ⟨instruction, known, operation⟩ := Option.map_eq_some_iff.mp branches
  have shape := regular.shapes instruction (List.mem_of_find?_eq_some known)
  simp only [Instruction.hasWordShape, operation, beq_iff_eq] at shape
  have past := machine.counter_pastTwo
  apply ends_step_of_double regular known (by omega)
  unfold FetchedWord.execute
  rw [show (FetchedWord.ofBytes arch instruction _ _).instruction.operation =
    .branch condition from operation]
  apply Ends.after (status_apply _)
  rw [Machine.status_pastOpcode, Machine.status_pastOpcode]
  by_cases holds : condition.holds machine.status = true
  · rw [if_pos holds, if_pos holds]
    refine .after (counter_apply _) (.of_eq (setCounter_apply _ _) ?_)
    have target (opcode second : UInt8) (next : Nat) :
        (FetchedWord.ofBytes arch instruction opcode second).target next =
          next + (second.toNat : Int).bmod 256 := by
      rw [FetchedWord.ofBytes]
      dsimp only
      rw [FetchedWord.branchTarget, if_neg (by simp [operation])]
      exact congrArg _ (Alu.signed_eq_bmod (by decide) _)
    rw [Machine.counter_countInstruction, Machine.counter_setCounter, target, past,
      Int.natCast_emod, Int.emod_add_emod]
    rfl
  · rw [if_neg holds, if_neg holds]
    exact .of_pure past

end ClassroomCpu
