import ClassroomCpu.Proofs.Assembly.WrittenInstruction
import Mathlib.Algebra.GroupWithZero.Nat

/-!
# Sizes of statements

How many bytes a statement gives is decided by its syntax: by the instruction
and the addressing modes of its operands, or by the number and the texts of its
data.  Neither the labels nor the cursor nor the pass matter.  The exceptions
are the statements that place: `org` and an allocation, whose word has to be
resolved.
-/

namespace ClassroomCpu.Assembly

/-! ## Data -/

/-- The number of values that an item of a data directive gives: a text, one for each character. -/
def Token.valueCount : Token → Nat
  | .quoted text => (Token.unquote text.toList).length
  | _ => 1

theorem length_dataItem {scope : Scope} {order : ByteOrder} {width : Nat} {token : Token}
    {bytes : List UInt8} (given : dataItem scope order width token = .ok bytes) :
    bytes.length = token.valueCount * width := by
  cases token with
  | quoted text =>
      unfold dataItem at given
      dsimp only at given
      split at given
      · exact absurd given Outcome.reject_ne_ok
      · rw [← Except.ok.inj given, List.length_flatMap]
        simp [Token.valueCount, List.map_const']
  | word text =>
      obtain ⟨value, _, encoded⟩ := Outcome.bind_eq_ok.mp given
      rw [← Outcome.pure_eq_ok.mp encoded, ByteOrder.length_encode]
      exact (Nat.one_mul width).symm
  | _ => exact absurd given Outcome.reject_ne_ok

theorem length_dataBytes {scope : Scope} {order : ByteOrder} {width : Nat} {tokens : List Token}
    {bytes : List UInt8} (given : dataBytes scope order width tokens = .ok bytes) :
    bytes.length = (tokens.map Token.valueCount).sum * width := by
  induction tokens generalizing bytes with
  | nil =>
      rw [← Except.ok.inj given]
      simp
  | cons token tokens induction =>
      obtain ⟨first, item, given⟩ := Outcome.bind_eq_ok.mp given
      obtain ⟨rest, others, joined⟩ := Outcome.bind_eq_ok.mp given
      rw [← Outcome.pure_eq_ok.mp joined, List.length_append, length_dataItem item,
        induction others, List.map_cons, List.sum_cons, Nat.add_mul]

/-- The number of bytes of a data directive with its arguments, commas apart. -/
def Directive.dataSize (directive : Directive) : List Token → Nat
  | [] => directive.width
  | tokens => (tokens.map Token.valueCount).sum * directive.width

/-! ## Instructions -/

/-- The kind of addressing of an argument, if it is an operand. -/
def Argument.kind? : Argument → Option AddressingMode.Kind
  | .operand addressed => some addressed.mode.kind
  | _ => none

@[simp] theorem length_fitLength (length : Nat) (bytes : List UInt8) :
    (fitLength length bytes).length = length := by
  simp only [fitLength, List.length_append, List.length_take, List.length_replicate]
  omega

theorem ByteParts.kinds_addArgument {scope : Scope} {arch : Architecture} {argument : Argument}
    {parts result : ByteParts} (added : addArgument scope arch parts argument = .ok result) :
    result.kinds = parts.kinds ++ argument.kind?.toList := by
  cases argument with
  | register register =>
      rw [← Except.ok.inj added]
      simp [Argument.kind?]
  | operand operand =>
      obtain ⟨value, _, done⟩ := Outcome.bind_eq_ok.mp added
      rw [← Outcome.pure_eq_ok.mp done]
      simp [Argument.kind?]
  | offset text => exact absurd added Outcome.reject_ne_ok
  | flags letters => exact absurd added Outcome.reject_ne_ok

theorem ByteParts.kinds_foldlM {scope : Scope} {arch : Architecture}
    {arguments : List Argument} {parts result : ByteParts}
    (added : arguments.foldlM (addArgument scope arch) parts = .ok result) :
    result.kinds = parts.kinds ++ arguments.filterMap Argument.kind? := by
  induction arguments generalizing parts with
  | nil =>
      rw [← Outcome.pure_eq_ok.mp added]
      simp
  | cons argument arguments induction =>
      obtain ⟨middle, first, rest⟩ := Outcome.bind_eq_ok.mp added
      rw [induction rest, kinds_addArgument first]
      cases kind : argument.kind? <;> simp [kind]

/-- A byte machine's instruction is as long as its datasheet says. -/
theorem length_encodeBytes {scope : Scope} {arch : Architecture} {instruction : Instruction}
    {arguments : List Argument} {bytes : List UInt8}
    (encoded : encodeBytes scope arch instruction arguments = .ok bytes) :
    bytes.length = arch.instructionBytes instruction (arguments.filterMap Argument.kind?) := by
  obtain ⟨parts, added, fitted⟩ := Outcome.bind_eq_ok.mp encoded
  rw [← Outcome.pure_eq_ok.mp fitted, length_fitLength, ByteParts.kinds_foldlM added]
  rfl

/-- The bytes that an operand of a word machine adds behind the opcode word. -/
def Argument.wordBytes (arch : Architecture) (argument : Argument) : Nat :=
  match argument.kind? with
  | some kind => if arch.operandBytes kind = 2 then 2 else 0
  | none => 0

theorem WordParts.length_addArgument {scope : Scope} {arch : Architecture}
    {instruction : Instruction} {pair : Parameter × Argument} {parts result : WordParts}
    (added : addArgument scope arch instruction parts pair = .ok result) :
    result.operands.length = parts.operands.length + pair.2.wordBytes arch := by
  obtain ⟨parameter, argument⟩ := pair
  cases argument with
  | register register => rw [← Except.ok.inj added]; rfl
  | flags letters =>
      obtain ⟨bits, _, done⟩ := Outcome.bind_eq_ok.mp added
      rw [← Outcome.pure_eq_ok.mp done]; rfl
  | offset text =>
      obtain ⟨byte, _, done⟩ := Outcome.bind_eq_ok.mp added
      rw [← Outcome.pure_eq_ok.mp done]; rfl
  | operand operand =>
      simp only [addArgument] at added
      split at added
      · rename_i hasWord
        obtain ⟨value, _, done⟩ := Outcome.bind_eq_ok.mp added
        rw [← Outcome.pure_eq_ok.mp done]
        simp [Argument.wordBytes, Argument.kind?, hasWord]
      · rename_i noWord
        rw [← Except.ok.inj added]
        simp [Argument.wordBytes, Argument.kind?, noWord]

theorem WordParts.length_foldlM {scope : Scope} {arch : Architecture}
    {instruction : Instruction} {pairs : List (Parameter × Argument)} {parts result : WordParts}
    (added : pairs.foldlM (addArgument scope arch instruction) parts = .ok result) :
    result.operands.length =
      pairs.foldl (fun total pair => total + pair.2.wordBytes arch) parts.operands.length := by
  induction pairs generalizing parts with
  | nil => rw [← Outcome.pure_eq_ok.mp added]; rfl
  | cons pair pairs induction =>
      obtain ⟨middle, first, rest⟩ := Outcome.bind_eq_ok.mp added
      rw [induction rest, length_addArgument first, List.foldl_cons]

/-- The number of bytes of an instruction with the given arguments. -/
def encodedSize (arch : Architecture) (instruction : Instruction) (arguments : List Argument) :
    Nat :=
  match arch.model with
  | .word =>
      if instruction.size = 1 then 1
      else
        2 + (instruction.parameters.zip arguments).foldl
          (fun total pair => total + pair.2.wordBytes arch) 0
  | .standard | .stack =>
      arch.instructionBytes instruction (arguments.filterMap Argument.kind?)

/-- The size of an instruction depends on its arguments alone. -/
theorem length_encode {scope : Scope} {arch : Architecture} {instruction : Instruction}
    {arguments : List Argument} {bytes : List UInt8}
    (encoded : encode scope arch instruction arguments = .ok bytes) :
    bytes.length = encodedSize arch instruction arguments := by
  unfold encode at encoded
  unfold encodedSize
  cases model : arch.model with
  | word =>
      simp only [model] at encoded ⊢
      obtain ⟨parts, added, joined⟩ := Outcome.bind_eq_ok.mp encoded
      rw [← Outcome.pure_eq_ok.mp joined]
      by_cases single : instruction.size = 1
      · simp [single]
      · have operands := WordParts.length_foldlM added
        simp only [single, if_false, List.length_cons, operands, List.length_nil]
        omega
  | standard | stack =>
      simp only [model] at encoded ⊢
      exact length_encodeBytes encoded

/-! ## Statements -/

/-- A statement that needs the number of a word to know where bytes go. -/
inductive Placement
  /-- The next byte goes to the address that the word gives. -/
  | origin (word : String)
  /-- As many zeros of the given width are put as the word says. -/
  | zeros (width : Nat) (word : String)
  deriving DecidableEq, Repr

namespace Placement

/-- The word whose number places bytes. -/
def word : Placement → String
  | origin word => word
  | zeros _ word => word

/-- What a directive with its arguments, commas apart, says about places. -/
def ofDirective? : Directive → List Token → Option Placement
  | .org, [.word text] => some (.origin text)
  | .dab, [.openBracket, .word text, .closeBracket] => some (.zeros 1 text)
  | .daw, [.openBracket, .word text, .closeBracket] => some (.zeros 2 text)
  | _, _ => none

/-- What a statement says about places. -/
def ofStatement? (statement : String) : Option Placement :=
  match Token.lex statement.toList with
  | .ok (.word mnemonic :: arguments) =>
      match Directive.ofMnemonic? mnemonic with
      | some directive => ofDirective? directive (arguments.filter fun token => token ≠ .comma)
      | none => none
  | _ => none

theorem width_pos {statement : String} {width : Nat} {word : String}
    (places : ofStatement? statement = some (.zeros width word)) : 0 < width := by
  unfold ofStatement? ofDirective? at places
  split at places
  · split at places
    · split at places
      · simp at places
      · simp only [Option.some.injEq, zeros.injEq] at places
        omega
      · simp only [Option.some.injEq, zeros.injEq] at places
        omega
      · simp at places
    · simp at places
  · simp at places

theorem statement_ne_empty {statement : String} {placement : Placement}
    (places : ofStatement? statement = some placement) : statement.isEmpty = false := by
  by_cases empty : statement = ""
  · subst empty
    rw [ofStatement?, String.toList_empty, Token.lex] at places
    contradiction
  · simpa using empty

/-- The effect of a statement that places. -/
def effect (placement : Placement) (scope : Scope) (arch : Architecture) :
    Outcome (Effect arch) :=
  match placement with
  | .origin word => originAddress scope arch word
  | .zeros width word => allocation scope arch width (.word word)

end Placement

theorem directiveEffect_of_placement {directive : Directive} {arguments : List Token}
    {placement : Placement}
    (places : Placement.ofDirective? directive (arguments.filter fun token => token ≠ .comma) =
      some placement) (scope : Scope) (arch : Architecture) :
    directiveEffect scope arch directive arguments = placement.effect scope arch := by
  unfold Placement.ofDirective? at places
  unfold directiveEffect
  split at places <;> rename_i shape
  · simp only [shape, ← Option.some.inj places]; rfl
  · simp only [shape, ← Option.some.inj places]; rfl
  · simp only [shape, ← Option.some.inj places]; rfl
  · exact absurd places (by simp)

theorem statementEffect_of_placement {statement : String} {placement : Placement}
    (places : Placement.ofStatement? statement = some placement) (scope : Scope)
    (arch : Architecture) :
    statementEffect scope arch statement = placement.effect scope arch := by
  unfold Placement.ofStatement? at places
  unfold statementEffect
  split at places
  · rename_i mnemonic arguments tokens
    split at places
    · rename_i directive found
      simp only [tokens, mnemonicEffect, found]
      exact directiveEffect_of_placement places scope arch
    · exact absurd places (by simp)
  · exact absurd places (by simp)

theorem allocation_of_not_word {scope : Scope} {arch : Architecture} {width : Nat}
    {count : Token} (noWord : ∀ text, count ≠ .word text) :
    allocation scope arch width count = reject (.invalidValue count.text) := by
  cases count with
  | word text => exact absurd rfl (noWord text)
  | _ => rfl

/--
A directive that does not place is rejected whatever is known, or gives one zero
if there is nothing behind it, or the values and texts behind it.
-/
theorem directiveEffect_cases (arch : Architecture) {directive : Directive}
    {arguments : List Token}
    (placeless :
      Placement.ofDirective? directive (arguments.filter fun token => token ≠ .comma) = none) :
    (∃ problem, ∀ scope, directiveEffect scope arch directive arguments = reject problem) ∨
      (arguments.filter fun token => token ≠ .comma) = [] ∧
        (∀ scope, directiveEffect scope arch directive arguments =
          .ok (.data (List.replicate directive.width 0))) ∨
      (arguments.filter fun token => token ≠ .comma) ≠ [] ∧
        ∀ scope, directiveEffect scope arch directive arguments =
          (dataBytes scope arch.byteOrder directive.width
            (arguments.filter fun token => token ≠ .comma)).map .data := by
  unfold directiveEffect
  generalize arguments.filter (fun token => token ≠ .comma) = tokens at *
  unfold Placement.ofDirective? at placeless
  dsimp only
  -- one case for each shape of directive and arguments
  split
  · simp at placeless
  · exact .inl ⟨_, fun _ => rfl⟩
  · exact .inl ⟨_, fun _ => rfl⟩
  · exact .inr (.inl ⟨rfl, fun _ => rfl⟩)
  · exact .inr (.inl ⟨rfl, fun _ => rfl⟩)
  · exact .inr (.inr ⟨by simp, fun _ => rfl⟩)
  · exact .inr (.inr ⟨by simp, fun _ => rfl⟩)
  · exact .inl ⟨_, fun _ => rfl⟩
  · exact .inl ⟨_, fun _ => rfl⟩
  · exact .inl ⟨_, fun _ => rfl⟩
  · exact .inl ⟨_, fun _ => rfl⟩
  · exact .inl ⟨_, fun _ => allocation_of_not_word (by rintro text rfl; simp at placeless)⟩
  · exact .inl ⟨_, fun _ => allocation_of_not_word (by rintro text rfl; simp at placeless)⟩
  · exact .inr (.inr ⟨by assumption, fun _ => rfl⟩)
  · exact .inr (.inr ⟨by assumption, fun _ => rfl⟩)

theorem length_of_directiveEffect {scope : Scope} {arch : Architecture} {directive : Directive}
    {arguments : List Token} {effect : Effect arch}
    (placeless :
      Placement.ofDirective? directive (arguments.filter fun token => token ≠ .comma) = none)
    (given : directiveEffect scope arch directive arguments = .ok effect) :
    ∃ bytes, effect = .data bytes ∧
      bytes.length = directive.dataSize (arguments.filter fun token => token ≠ .comma) := by
  rcases directiveEffect_cases arch placeless with
    ⟨problem, always⟩ | ⟨nothing, always⟩ | ⟨something, always⟩
  · rw [always] at given
    exact absurd given Outcome.reject_ne_ok
  · rw [always] at given
    refine ⟨_, (Except.ok.inj given).symm, ?_⟩
    rw [nothing, List.length_replicate]
    rfl
  · rw [always] at given
    obtain ⟨bytes, listed, rfl⟩ := Outcome.map_eq_ok.mp given
    refine ⟨bytes, rfl, ?_⟩
    rw [length_dataBytes listed, Directive.dataSize]
    exact something

/-- The number of bytes of a statement that does not place, by its syntax. -/
def statementSize (arch : Architecture) (statement : String) : Nat :=
  match writtenInstruction? arch statement, Token.lex statement.toList with
  | some (instruction, arguments), _ => encodedSize arch instruction arguments
  | none, .ok (.word mnemonic :: arguments) =>
      match Directive.ofMnemonic? mnemonic with
      | some directive => directive.dataSize (arguments.filter fun token => token ≠ .comma)
      | none => 0
  | none, _ => 0

/-- A statement that succeeds writes an instruction, or is a directive. -/
theorem written_or_directive {scope : Scope} {arch : Architecture} {statement : String}
    {effect : Effect arch} (given : statementEffect scope arch statement = .ok effect) :
    (∃ instruction arguments,
      writtenInstruction? arch statement = some (instruction, arguments)) ∨
    ∃ mnemonic arguments directive,
      Token.lex statement.toList = .ok (.word mnemonic :: arguments) ∧
        Directive.ofMnemonic? mnemonic = some directive := by
  unfold statementEffect at given
  split at given
  · exact absurd given Outcome.reject_ne_ok
  · rename_i mnemonic arguments tokens
    cases found : Directive.ofMnemonic? mnemonic with
    | some directive => exact .inr ⟨mnemonic, arguments, directive, tokens, found⟩
    | none =>
        simp only [mnemonicEffect, found] at given
        cases named : arch.instructionNamed? mnemonic with
        | none =>
            simp only [named] at given
            exact absurd given Outcome.reject_ne_ok
        | some instruction =>
            simp only [named] at given
            obtain ⟨parsed, parsing, _⟩ := Outcome.bind_eq_ok.mp given
            exact .inl ⟨instruction, parsed,
              writtenInstruction?_eq_some.mpr ⟨mnemonic, arguments, tokens, found, named, parsing⟩⟩
  · exact absurd given Outcome.reject_ne_ok

/-- A statement that does not place gives the bytes that its syntax asks for. -/
theorem length_of_statementEffect {scope : Scope} {arch : Architecture} {statement : String}
    {effect : Effect arch} (placeless : Placement.ofStatement? statement = none)
    (given : statementEffect scope arch statement = .ok effect) :
    ∃ bytes, effect = .data bytes ∧ bytes.length = statementSize arch statement := by
  rcases written_or_directive given with
    ⟨instruction, arguments, written⟩ | ⟨mnemonic, arguments, directive, tokens, found⟩
  · rw [statementEffect_of_written written] at given
    obtain ⟨bytes, encoded, rfl⟩ := Outcome.map_eq_ok.mp given
    exact ⟨bytes, rfl, by rw [length_encode encoded, statementSize, written]⟩
  · have unwritten : writtenInstruction? arch statement = none := by
      simp [writtenInstruction?, tokens, found]
    simp only [statementEffect, tokens, mnemonicEffect, found] at given
    simp only [Placement.ofStatement?, tokens, found] at placeless
    simp only [statementSize, unwritten, tokens, found]
    exact length_of_directiveEffect placeless given

/-- A statement that does not place gives equally many bytes wherever it succeeds. -/
theorem statementEffect_size_eq {scope other : Scope} {arch : Architecture}
    {statement : String} {effect effectOther : Effect arch}
    (placeless : Placement.ofStatement? statement = none)
    (here : statementEffect scope arch statement = .ok effect)
    (there : statementEffect other arch statement = .ok effectOther) :
    ∃ bytes bytesOther, effect = .data bytes ∧ effectOther = .data bytesOther ∧
      bytes.length = bytesOther.length := by
  obtain ⟨bytes, same, length⟩ := length_of_statementEffect placeless here
  obtain ⟨bytesOther, sameOther, lengthOther⟩ := length_of_statementEffect placeless there
  exact ⟨bytes, bytesOther, same, sameOther, length.trans lengthOther.symm⟩

end ClassroomCpu.Assembly
