import ClassroomCpu.Proofs.Assembly.Reencoding
import ClassroomCpu.Proofs.Catalog.Comparison
import ClassroomCpu.Proofs.Catalog.Legibility
import ClassroomCpu.Proofs.Catalog.WordOpcodes
import ClassroomCpu.Proofs.Execution.DoubleWord
import ClassroomCpu.Session

/-!
# Double words on Cesar

Cesar adds and subtracts numbers of thirty-two bits, in any registers but the
program counter, with three instructions.
-/

namespace ClassroomCpu

open Assembly Catalog

/-! ## Statements on registers -/

namespace Catalog

def registerName (index : Fin cesar.registers.length) : String :=
  (cesar.registers.get index).name

/-- A mnemonic with registers as its operands. -/
def registerStatement (mnemonic : String) (registers : List (Fin cesar.registers.length)) :
    String :=
  mnemonic ++ " " ++ ", ".intercalate (registers.map registerName)

example : registerStatement "ADD" [⟨3, by decide⟩, ⟨1, by decide⟩] = "ADD R3, R1" := by decide

/-- A register as an operand. -/
def registerOperand (index : Fin cesar.registers.length) : Operand :=
  ⟨⟨none, some (cesar.registers.get index)⟩, ⟨⟨"..000..."⟩, .register, "r"⟩⟩

def registerArguments (registers : List (Fin cesar.registers.length)) : List Argument :=
  (registers.map registerOperand).map .operand

theorem mem_registerArguments {registers : List (Fin cesar.registers.length)}
    {argument : Argument} : argument ∈ registerArguments registers ↔
      ∃ index ∈ registers, .operand (registerOperand index) = argument := by
  simp [registerArguments]

theorem fits_registerOperand (index : Fin cesar.registers.length) :
    (registerOperand index).Fits cesar.toDatasheet := by
  have selectable : ∀ index : Fin cesar.registers.length,
      (cesar.registers.get index).pattern.text.isEmpty = false := by decide +kernel
  refine ⟨by simp [registerOperand, cesar, cesarSheet, cesarModes], [.register], ?_, ?_⟩
  · exact show formItems "r" = .ok [.register] by decide +kernel
  · constructor
    case hasValue => rfl
    case hasRegister => rfl
    case value => simp [registerOperand]
    case register =>
      rintro _ same
      obtain rfl := Option.some.inj same
      exact ⟨List.get_mem _ _, selectable index⟩

theorem isRegister_registerOperand (index : Fin cesar.registers.length) :
    (registerOperand index).IsRegister index := by
  have place : ∀ index : Fin cesar.registers.length,
      registerPlace cesar (some (cesar.registers.get index)) = index := by decide +kernel
  exact ⟨rfl, place index⟩

theorem emitted_of_encodeWord {statement : String} {instruction : Instruction}
    {arguments : List Argument}
    (written : writtenInstruction? cesar statement = some (instruction, arguments))
    {scope : Scope} {bytes : List UInt8}
    (encoded : encodeWord scope cesar instruction arguments = .ok bytes) :
    statementEffect scope cesar statement = .ok (.data bytes) := by
  rw [statementEffect_of_written written, encode_of_word wordSound_cesar.model, encoded]
  rfl

section Written

variable {instruction : Instruction} (known : instruction ∈ cesar.instructions)
  {registers : List (Fin cesar.registers.length)}
  (fits : List.Forall₂ (fun parameter _ => ∃ name, parameter = .operand name)
    instruction.parameters registers)
include known fits

/-- A statement on registers is read as its instruction. -/
theorem written_registerStatement (nonempty : registers ≠ []) :
    writtenInstruction? cesar (registerStatement instruction.title registers) =
      some (instruction, registerArguments registers) := by
  have texts : ∀ index : Fin cesar.registers.length,
      (registerOperand index).text = registerName index ∧ registerName index ≠ "" := by
    decide +kernel
  have commas : cesar.hasCommas = true := by decide +kernel
  have legibleCesar : cesar.Legible := legible cesar (by simp [machines])
  have argumentFits : List.Forall₂ (Argument.Fits cesar.toDatasheet) instruction.parameters
      (registerArguments registers) := by
    rw [registerArguments, List.map_map, List.forall₂_map_right_iff]
    apply fits.imp
    rintro _ index ⟨name, rfl⟩
    exact fits_registerOperand index
  have numbered : ∀ argument ∈ registerArguments registers, argument.IsNumbered := by
    intro argument member
    obtain ⟨index, _, rfl⟩ := mem_registerArguments.mp member
    simp [Argument.IsNumbered, Operand.IsNumbered, registerOperand]
  have visible : ∀ argument ∈ registerArguments registers, argument.IsVisible := by
    intro argument member
    obtain ⟨parameter, fit⟩ := exists_parameter argumentFits argument member
    obtain ⟨index, _, rfl⟩ := mem_registerArguments.mp member
    exact isVisible_of_fits legibleCesar fit rfl
  have names : (registerArguments registers).map (·.text) = registers.map registerName := by
    simp [registerArguments, Argument.text, texts]
  have reads := writtenInstruction?_joinArguments legibleCesar rfl known argumentFits numbered
    (.inr visible) (.inl commas)
  rw [names, separator, if_pos commas] at reads
  obtain ⟨first, others, rfl⟩ := List.exists_cons_of_ne_nil nonempty
  rwa [List.map_cons, joinArguments_of_nonempty, ← List.map_cons] at reads
  simp [texts]

/--
A statement on registers has the same two bytes at every place, and a step at
these bytes computes what the instruction does.
-/
theorem exists_step_of_registers (nonempty : registers ≠ []) (openSize : instruction.size = 0)
    {index : Fin cesar.registers.length} {outcome : Machine cesar → Alu.Outcome}
    (ends : ∀ machine : Machine cesar,
      Exec.Ends (FetchedWord.written cesar [] instruction (registerArguments registers)).execute
        machine.pastOpcode.pastOpcode fun _ =>
          machine.pastOpcode.pastOpcode.Computed index (outcome machine)) :
    ∃ bytes, bytes.length = 2 ∧
      (∀ scope, statementEffect scope cesar (registerStatement instruction.title registers) =
        .ok (.data bytes)) ∧
      ∀ machine : Machine cesar, machine.Holds machine.counter bytes →
        Exec.Ends Exec.step machine fun _ =>
          machine.pastOpcode.pastOpcode.Computed index (outcome machine) := by
  have written := written_registerStatement known fits nonempty
  have narrow : ∀ argument ∈ registerArguments registers, ∃ operand,
      argument = .operand operand ∧ cesar.operandBytes operand.mode.kind ≠ 2 := by
    intro argument member
    obtain ⟨index, _, rfl⟩ := mem_registerArguments.mp member
    refine ⟨registerOperand index, rfl, ?_⟩
    rw [Datasheet.operandBytes_of_word wordSound_cesar.model]
    simp [registerOperand]
  have double : instruction.size ≠ 1 := by omega
  obtain ⟨bytes, two, encoded⟩ := exists_encodeWord_of_narrow double narrow
  have emitted (scope : Scope) : statementEffect scope cesar
      (registerStatement instruction.title registers) = .ok (.data bytes) :=
    emitted_of_encodeWord written (encoded scope)
  refine ⟨bytes, two, emitted, fun machine there => ?_⟩
  apply Exec.ends_step_of_registers wordRegular_cesar wordSound_cesar written _ openSize
    (emitted _) there (ends machine)
  intro operand member
  obtain ⟨_, _, rfl⟩ := List.mem_map.mp member
  rfl

end Written

end Catalog

/-! ## Programs on pairs of registers -/

namespace CarryOperator

def instruction : CarryOperator → Instruction
  | add => ⟨0, ⟨"1010...."⟩, .add, "add a0 a1"⟩
  | sub => ⟨0, ⟨"1011...."⟩, .sub, "sub a0 a1"⟩

def carryInstruction : CarryOperator → Instruction
  | add => ⟨0, ⟨"10001010"⟩, .addCarry, "adc a"⟩
  | sub => ⟨0, ⟨"10001011"⟩, .subCarry, "sbc a"⟩

def mnemonic : CarryOperator → String
  | add => "ADD"
  | sub => "SUB"

def carryMnemonic : CarryOperator → String
  | add => "ADC"
  | sub => "SBC"

/-- The statements that combine the number in the pair `y` with that in the pair `x`. -/
def statements (operator : CarryOperator) (x y : RegisterPair cesar) : List String :=
  [registerStatement operator.mnemonic [y.low, x.low],
    registerStatement operator.carryMnemonic [x.high],
    registerStatement operator.mnemonic [y.high, x.high]]

variable (operator : CarryOperator)

/-- The statement on two words is assembled, and a step at its bytes combines the words. -/
theorem exists_combine {source destination : Fin cesar.registers.length}
    (sourceApart : source ≠ cesar.counter) (destinationApart : destination ≠ cesar.counter) :
    ∃ bytes, bytes.length = 2 ∧
      (∀ scope, statementEffect scope cesar
        (registerStatement operator.mnemonic [source, destination]) = .ok (.data bytes)) ∧
      ∀ machine : Machine cesar, machine.Holds machine.counter bytes →
        Exec.Ends Exec.step machine fun _ =>
          machine.pastOpcode.pastOpcode.Computed destination (operator.onWords
            (machine.register destination) (machine.register source) false) := by
  have known : operator.instruction ∈ cesar.instructions ∧
      operator.instruction.title = operator.mnemonic ∧
        operator.instruction.parameters = [.operand "a0", .operand "a1"] ∧
          operator.instruction.size = 0 ∧
            operator.instruction.operation = operator.operation := by
    cases operator <;> decide +kernel
  obtain ⟨member, title, parameters, openSize, operation⟩ := known
  rw [← title]
  apply exists_step_of_registers member (by simp [parameters]) (by simp) openSize
  intro machine
  rw [← machine.register_pastTwo sourceApart, ← machine.register_pastTwo destinationApart]
  exact Exec.ends_combine hasWordCodes_cesar operator _ operation
    ((isRegister_registerOperand source).written [])
    ((isRegister_registerOperand destination).written [])

/-- The statement on one word is assembled, and a step at its bytes passes on the carry. -/
theorem exists_passCarry {index : Fin cesar.registers.length} (apart : index ≠ cesar.counter) :
    ∃ bytes, bytes.length = 2 ∧
      (∀ scope, statementEffect scope cesar
        (registerStatement operator.carryMnemonic [index]) = .ok (.data bytes)) ∧
      ∀ machine : Machine cesar, machine.Holds machine.counter bytes →
        Exec.Ends Exec.step machine fun _ =>
          machine.pastOpcode.pastOpcode.Computed index (operator.onWords
            (machine.register index) 0 machine.status.carry) := by
  have known : operator.carryInstruction ∈ cesar.instructions ∧
      operator.carryInstruction.title = operator.carryMnemonic ∧
        operator.carryInstruction.parameters = [.operand "a"] ∧
          operator.carryInstruction.size = 0 ∧
            operator.carryInstruction.operation = operator.carryOperation := by
    cases operator <;> decide +kernel
  obtain ⟨member, title, parameters, openSize, operation⟩ := known
  rw [← title]
  apply exists_step_of_registers member (by simp [parameters]) (by simp) openSize
  intro machine
  rw [← machine.register_pastTwo apart]
  exact Exec.ends_passCarry hasWordCodes_cesar operator _ operation
    ((isRegister_registerOperand index).written [])

end CarryOperator

namespace Catalog

/--
Three statements add or subtract the numbers of thirty-two bits in two pairs of
registers, any four of them but the program counter.  They are assembled
everywhere to the same bytes, and three steps at these bytes leave the result
in the first pair, with its sign in the condition codes, and the second pair as
it was.
-/
theorem combines_doubleWords (operator : CarryOperator) {x y : RegisterPair cesar}
    (apart : [cesar.counter, x.high, x.low, y.high, y.low].Nodup) :
    ∃ code : List (List UInt8),
      (∀ scope, List.Forall₂ (fun statement bytes =>
        statementEffect scope cesar statement = .ok (.data bytes))
          (operator.statements x y) code) ∧
      ∀ machine : Machine cesar, machine.Sound → machine.Holds machine.counter code.flatten →
        Exec.Ends (Session.steps 3) machine fun _ => operator.Combined machine x y := by
  have others := (List.nodup_cons.mp apart).1
  simp only [List.mem_cons, List.not_mem_nil, or_false, not_or] at others
  obtain ⟨xHigh, xLow, yHigh, yLow⟩ := others
  obtain ⟨first, firstTwo, firstEmitted, firstStep⟩ :=
    operator.exists_combine (Ne.symm yLow) (Ne.symm xLow)
  obtain ⟨second, secondTwo, secondEmitted, secondStep⟩ :=
    operator.exists_passCarry (Ne.symm xHigh)
  obtain ⟨third, _, thirdEmitted, thirdStep⟩ :=
    operator.exists_combine (Ne.symm yHigh) (Ne.symm xHigh)
  refine ⟨[first, second, third], fun scope => ?_, fun machine sound there => ?_⟩
  · exact .cons (firstEmitted scope) (.cons (secondEmitted scope)
      (.cons (thirdEmitted scope) .nil))
  · rw [List.flatten_cons, List.flatten_cons, List.flatten_singleton] at there
    apply (firstStep machine (Machine.holds_append.mp there).1).bind
    rintro - between low
    have thereSecond := low.holds wordRegular_cesar (Ne.symm xLow) firstTwo there
    apply (secondStep between (Machine.holds_append.mp thereSecond).1).bind
    rintro - last carried
    have thereThird := carried.holds wordRegular_cesar (Ne.symm xHigh) secondTwo thereSecond
    apply (thirdStep last thereThird).bind
    rintro - after high
    exact .of_pure (operator.combined_of_computed wordRegular_cesar apart sound low carried high)

/-- The low words borrow from the high ones, and the difference is below zero. -/
theorem combines_doubleWords_borrow :
    let x : RegisterPair cesar := ⟨⟨0, by decide⟩, ⟨1, by decide⟩⟩
    let y : RegisterPair cesar := ⟨⟨2, by decide⟩, ⟨3, by decide⟩⟩
    let machine := (((((Machine.new cesar).poke 0 0xB0).poke 1 0xC1).poke 2 0x8B).poke 4 0xB0).poke
      5 0x80 |>.setRegister x.high 1 |>.setRegister y.high 2 |>.setRegister y.low 1
    [cesar.counter, x.high, x.low, y.high, y.low].Nodup ∧ machine.Sound ∧
      machine.Holds machine.counter [0xB0, 0xC1, 0x8B, 0x00, 0xB0, 0x80] ∧
        ∃ after, Session.steps 3 machine = .ok () after ∧ after.doubleWord x = 0xFFFEFFFF ∧
          after.doubleWord y = 0x00020001 ∧ after.status.negative = true := by
  intro x y machine
  have apart : [cesar.counter, x.high, x.low, y.high, y.low].Nodup := by decide
  have sound : machine.Sound :=
    ((((Machine.Sound.new cesar).of_same (by rfl)).setRegister x.high 1).setRegister
      y.high 2).setRegister y.low 1
  have there : machine.Holds machine.counter [0xB0, 0xC1, 0x8B, 0x00, 0xB0, 0x80] := by
    unfold Machine.Holds
    decide +kernel
  obtain ⟨code, emitted, ends⟩ := combines_doubleWords .sub apart
  let scope : Scope := ⟨.emit, [], 0⟩
  have firstWritten : writtenInstruction? cesar "SUB R3, R1" =
      some (CarryOperator.sub.instruction, registerArguments [y.low, x.low]) := by decide +kernel
  have secondWritten : writtenInstruction? cesar "SBC R0" =
      some (CarryOperator.sub.carryInstruction, registerArguments [x.high]) := by decide +kernel
  have thirdWritten : writtenInstruction? cesar "SUB R2, R0" =
      some (CarryOperator.sub.instruction, registerArguments [y.high, x.high]) := by decide +kernel
  have bytes : List.Forall₂ (fun statement bytes =>
      statementEffect scope cesar statement = .ok (.data bytes))
      ["SUB R3, R1", "SBC R0", "SUB R2, R0"] [[0xB0, 0xC1], [0x8B, 0x00], [0xB0, 0x80]] :=
    .cons (emitted_of_encodeWord firstWritten (by decide +kernel))
      (.cons (emitted_of_encodeWord secondWritten (by decide +kernel))
        (.cons (emitted_of_encodeWord thirdWritten (by decide +kernel)) .nil))
  have same : code = [[0xB0, 0xC1], [0x8B, 0x00], [0xB0, 0x80]] := by
    apply List.right_unique_forall₂' _ (emitted scope) bytes
    intro statement left right emitsLeft emitsRight
    exact Effect.data.inj (Except.ok.inj (emitsLeft.symm.trans emitsRight))
  have assembled : code.flatten = [0xB0, 0xC1, 0x8B, 0x00, 0xB0, 0x80] := by
    rw [same]
    rfl
  obtain ⟨_, after, steps, combined⟩ := ends machine sound (assembled ▸ there)
  have first : machine.doubleWord x = 0x00010000 := by decide +kernel
  have second : machine.doubleWord y = 0x00020001 := by decide +kernel
  have result := combined.result
  rw [first, second] at result
  have value : after.doubleWord x = 0xFFFEFFFF := Int.ofNat_inj.mp (result.trans (by decide))
  refine ⟨apart, sound, there, after, steps, value, combined.operand.trans second, ?_⟩
  rw [combined.negative, value]
  decide

end Catalog

end ClassroomCpu
