import ClassroomCpu.Assembly.Statement

/-!
# Written instructions

A statement that is no directive writes an instruction with arguments.  What it
is encoded into depends on them and on the numbers that its words stand for.
-/

namespace ClassroomCpu.Assembly

/-- The instruction that a statement writes, with its arguments. -/
def writtenInstruction? (arch : Architecture) (statement : String) :
    Option (Instruction × List Argument) :=
  match Token.lex statement.toList with
  | .ok (.word mnemonic :: tokens) =>
      match Directive.ofMnemonic? mnemonic, arch.instructionNamed? mnemonic with
      | none, some instruction =>
          match parseArguments arch.toDatasheet instruction tokens with
          | .ok arguments => some (instruction, arguments)
          | .error _ => none
      | _, _ => none
  | _ => none

section Written

variable {arch : Architecture} {statement : String} {instruction : Instruction}
  {arguments : List Argument}

/-- A written instruction comes from tokens: its mnemonic and what its arguments match. -/
theorem writtenInstruction?_eq_some :
    writtenInstruction? arch statement = some (instruction, arguments) ↔
      ∃ mnemonic tokens, Token.lex statement.toList = .ok (.word mnemonic :: tokens) ∧
        Directive.ofMnemonic? mnemonic = none ∧
        arch.instructionNamed? mnemonic = some instruction ∧
        parseArguments arch.toDatasheet instruction tokens = .ok arguments := by
  unfold writtenInstruction?
  constructor
  · intro written
    split at written
    · rename_i mnemonic tokens lexed
      split at written
      · rename_i noDirective named
        split at written
        · rename_i parsed
          simp only [Option.some.injEq, Prod.mk.injEq] at written
          obtain ⟨rfl, rfl⟩ := written
          exact ⟨mnemonic, tokens, lexed, noDirective, named, parsed⟩
        · simp at written
      · simp at written
    · simp at written
  · rintro ⟨mnemonic, tokens, lexed, noDirective, named, parsed⟩
    simp only [lexed, noDirective, named, parsed]

theorem statementEffect_of_written
    (written : writtenInstruction? arch statement = some (instruction, arguments))
    (scope : Scope) :
    statementEffect scope arch statement =
      (encode scope arch instruction arguments).map .data := by
  obtain ⟨mnemonic, tokens, lexed, noDirective, named, parsed⟩ :=
    writtenInstruction?_eq_some.mp written
  simp only [statementEffect, lexed, mnemonicEffect, noDirective, named, parsed]
  change (encode scope arch instruction arguments >>= fun bytes => pure (Effect.data bytes)) = _
  cases encode scope arch instruction arguments <;> rfl

theorem encode_of_emitted
    (written : writtenInstruction? arch statement = some (instruction, arguments))
    {scope : Scope} {bytes : List UInt8}
    (emitted : statementEffect scope arch statement = .ok (.data bytes)) :
    encode scope arch instruction arguments = .ok bytes := by
  rw [statementEffect_of_written written] at emitted
  obtain ⟨encoded, given, same⟩ := Outcome.map_eq_ok.mp emitted
  rw [given, Effect.data.inj same]

theorem mem_instructions_of_written
    (written : writtenInstruction? arch statement = some (instruction, arguments)) :
    instruction ∈ arch.instructions := by
  obtain ⟨mnemonic, tokens, _, _, named, _⟩ := writtenInstruction?_eq_some.mp written
  exact List.mem_of_find?_eq_some named

end Written

theorem encode_of_byte {arch : Architecture} (byteMachine : arch.model ≠ .word) (scope : Scope)
    (instruction : Instruction) (arguments : List Argument) :
    encode scope arch instruction arguments = encodeBytes scope arch instruction arguments := by
  unfold encode
  split
  · contradiction
  · rfl
  · rfl

theorem encode_of_word {arch : Architecture} (wordMachine : arch.model = .word) (scope : Scope)
    (instruction : Instruction) (arguments : List Argument) :
    encode scope arch instruction arguments = encodeWord scope arch instruction arguments := by
  unfold encode
  rw [wordMachine]

/-! ## Parts of a written instruction -/

namespace Argument

/-- The register of an argument that is one. -/
def register? : Argument → Option RegisterSpec
  | register named => some named
  | _ => none

/-- The operand of an argument that is one. -/
def operand? : Argument → Option Operand
  | operand addressed => some addressed
  | _ => none

/-- The letters of an argument that is condition codes. -/
def letters? : Argument → Option String
  | flags letters => some letters
  | _ => none

/-- The text of an argument that is the target of a branch. -/
def target? : Argument → Option String
  | offset text => some text
  | _ => none

end Argument

/-- The register that an instruction is written with. -/
def namedRegister? (arguments : List Argument) : Option RegisterSpec :=
  arguments.findSome? Argument.register?

/-- The operands that an instruction is written with. -/
def writtenOperands (arguments : List Argument) : List Operand :=
  arguments.filterMap Argument.operand?

/-! ## The numbers of operands -/

/-- The number that the text of an operand stands for. -/
def operandNumber? (labels : LabelTable) : Token → Option Int
  | .word text => (resolve? labels text).map (·.value)
  | .quoted text =>
      match Token.unquote text.toList with
      | [c] => if c.toNat < 128 then some c.toNat else none
      | _ => none
  | _ => none

section Numbers

variable {labels : LabelTable} {cursor : Nat} {token : Token}

theorem number_ok {bounds : Bounds} {problem : String → Problem} {value : Int}
    (given : Scope.number ⟨.emit, labels, cursor⟩ bounds problem token = .ok value) :
    operandNumber? labels token = some value ∧ bounds.holds value = true := by
  unfold Scope.number at given
  split at given
  · rename_i text
    split at given
    · rename_i resolved _ found
      split at given
      · rename_i inside
        obtain rfl := Except.ok.inj given
        exact ⟨by simp [operandNumber?, found], inside⟩
      · exact absurd given Outcome.reject_ne_ok
    · rename_i pass
      simp at pass
    · exact absurd given Outcome.reject_ne_ok
  · exact absurd given Outcome.reject_ne_ok

theorem address_ok {arch : Architecture} {address : Nat}
    (given : Scope.address ⟨.emit, labels, cursor⟩ arch token = .ok address) :
    ∃ value, operandNumber? labels token = some value ∧ address = arch.wrap value := by
  obtain ⟨value, number, wrapped⟩ := Outcome.bind_eq_ok.mp given
  exact ⟨value, (number_ok number).1, (Outcome.pure_eq_ok.mp wrapped).symm⟩

theorem immediate_ok {width : Nat} (wide : 0 < width) {value : Int}
    (given : Scope.immediate ⟨.emit, labels, cursor⟩ width token = .ok value) :
    operandNumber? labels token = some value ∧ (Bounds.ofBytes width).holds value = true := by
  unfold Scope.immediate at given
  split at given
  · rename_i text
    split at given
    · rename_i c single
      split at given
      · rename_i ascii
        obtain rfl := Except.ok.inj given
        refine ⟨by simp [operandNumber?, single, ascii], Bounds.holds_iff.mpr ?_⟩
        have enough : powerOfTwo 8 ≤ powerOfTwo (8 * width) :=
          Nat.pow_le_pow_right (by omega) (by omega)
        have size : powerOfTwo 8 = 256 := rfl
        simp only [Bounds.ofBytes]
        omega
      · exact absurd given Outcome.reject_ne_ok
    · exact absurd given Outcome.reject_ne_ok
  · exact number_ok given

end Numbers

end ClassroomCpu.Assembly
