import ClassroomCpu.Proofs.Assembly.Renumbering
import ClassroomCpu.Proofs.Assembly.TokenCase

/-!
# Statements in lower case

Numbers, labels, registers, mnemonics, directives, condition codes and the
forms of operands are read whatever the case of their letters.  A statement in
lower case therefore has the same effect, or fails with a problem of the same
code; only the texts in the problem are written otherwise.
-/

namespace ClassroomCpu.Assembly

/-! ## Numbers -/

theorem LabelTable.find?_lowercase (labels : LabelTable) (name : String) :
    labels.find? (Text.lowercase name) = labels.find? name := by
  rw [find?, Text.uppercase_lowercase, find?]

theorem magnitude?_map_toLower (text : List Char) :
    magnitude? (text.map Char.toLower) = magnitude? text := by
  cases text with
  | nil => rfl
  | cons c rest =>
      have letter : (c.toLower = 'h' ∨ c.toLower = 'H') ↔ (c = 'h' ∨ c = 'H') := by
        have told := @Text.toLower_class _ (fun c => c == 'h' || c == 'H') (by decide) c
        rw [Bool.eq_iff_iff] at told
        simpa only [Bool.or_eq_true, beq_iff_eq] using told
      have decimal : Text.natural? 10 ((c :: rest).map Char.toLower) =
          Text.natural? 10 (c :: rest) :=
        Text.natural?_map_toLower (Text.toLower_class (by decide)) (c :: rest)
      have hexadecimal : Text.natural? 16 (rest.map Char.toLower) = Text.natural? 16 rest :=
        Text.natural?_map_toLower (Text.toLower_class (by decide)) rest
      rw [List.map_cons] at decimal ⊢
      unfold magnitude?
      simp only [letter, decimal, hexadecimal]

theorem literal?_cons (c : Char) (text : List Char) :
    literal? (c :: text) =
      if c = '-' then (magnitude? text).map fun magnitude => -(magnitude : Int)
      else if c = '+' then (magnitude? text).map fun magnitude => (magnitude : Int)
      else (magnitude? (c :: text)).map fun magnitude => (magnitude : Int) := by
  by_cases minus : c = '-'
  · subst minus
    rfl
  · by_cases plus : c = '+'
    · subst plus
      rfl
    · simp [literal?, minus, plus]

theorem literal?_map_toLower (text : List Char) :
    literal? (text.map Char.toLower) = literal? text := by
  cases text with
  | nil => rfl
  | cons c text =>
      have minus : c.toLower = '-' ↔ c = '-' := Text.toLower_eq_iff (by decide)
      have plus : c.toLower = '+' ↔ c = '+' := Text.toLower_eq_iff (by decide)
      have unsigned := magnitude?_map_toLower (c :: text)
      rw [List.map_cons] at unsigned ⊢
      simp only [literal?_cons, minus, plus, unsigned, magnitude?_map_toLower text]

theorem cutAtSign?_map_toLower (text : List Char) :
    cutAtSign? (text.map Char.toLower) =
      (cutAtSign? text).map (Prod.map (List.map Char.toLower) (List.map Char.toLower)) := by
  cases text with
  | nil => rfl
  | cons first rest =>
      have blind (c : Char) : (!isSign c.toLower) = !isSign c := by rw [isSign_toLower]
      have dropped := @Text.dropWhile_map_toLower (fun c => !isSign c) blind rest.reverse
      have taken := @Text.takeWhile_map_toLower (fun c => !isSign c) blind rest.reverse
      simp only [List.map_cons, cutAtSign?, ← List.map_reverse, dropped, taken]
      cases rest.reverse.dropWhile fun c => !isSign c with
      | nil => rfl
      | cons sign before => simp

theorem resolve?_lowercase (labels : LabelTable) (text : String) :
    resolve? labels (Text.lowercase text) = resolve? labels text := by
  have plain : resolvePlain? labels (Text.lowercase text) = resolvePlain? labels text := by
    rw [resolvePlain?, LabelTable.find?_lowercase, Text.toList_lowercase, literal?_map_toLower,
      resolvePlain?]
  rw [resolve?, Text.toList_lowercase, cutAtSign?_map_toLower, resolve?, plain]
  cases cutAtSign? text.toList with
  | none => rfl
  | some cut =>
      simp only [Option.map_some, Prod.map, ← Text.lowercase_ofList, LabelTable.find?_lowercase,
        literal?_map_toLower]

/-! ## Values -/

theorem alike_orReject {α : Type} {problem other : Problem} (kind : problem.code = other.code)
    (option : Option α) :
    Outcome.Alike Problem.code Eq (orReject problem option) (orReject other option) := by
  cases option with
  | some value => exact .ok rfl
  | none => exact .problem kind

section Values

variable (scope : Scope)

theorem Scope.alike_number (bounds : Bounds) (problem : String → Problem)
    (kind : ∀ text other, (problem text).code = (problem other).code) (token : Token) :
    Outcome.Alike Problem.code Eq (scope.number bounds problem token)
      (scope.number bounds problem token.lower) := by
  cases token with
  | word text =>
      unfold number
      simp only [Token.lower, resolve?_lowercase]
      cases resolve? scope.labels text with
      | some resolved =>
          dsimp only
          split
          · exact .ok rfl
          · exact .problem (kind _ _)
      | none =>
          cases scope.pass with
          | reserve => exact .ok rfl
          | emit => exact .problem (kind _ _)
  | _ => exact .refl _

theorem Scope.alike_address (arch : Architecture) (token : Token) :
    Outcome.Alike Problem.code Eq (scope.address arch token) (scope.address arch token.lower) :=
  (scope.alike_number (.ofMemory arch) .invalidAddress (fun _ _ => rfl) token).bind_same
    fun _ => .ok rfl

theorem Scope.alike_immediate (width : Nat) (token : Token) :
    Outcome.Alike Problem.code Eq (scope.immediate width token)
      (scope.immediate width token.lower) := by
  cases token with
  | word text =>
      exact scope.alike_number (.ofBytes width) .invalidValue (fun _ _ => rfl) (.word text)
  | _ => exact .refl _

theorem Scope.alike_offset (instruction : Instruction) (text : String) :
    Outcome.Alike Problem.code Eq (scope.offset instruction text)
      (scope.offset instruction (Text.lowercase text)) := by
  unfold offset
  rw [resolve?_lowercase]
  cases resolve? scope.labels text with
  | some resolved =>
      dsimp only
      split
      · split
        · exact .ok rfl
        · exact .problem rfl
      · split
        · exact .ok rfl
        · exact .problem rfl
  | none =>
      cases scope.pass with
      | reserve => exact .ok rfl
      | emit => exact .problem rfl

/-! ## Directives -/

theorem alike_dataItem (order : ByteOrder) (width : Nat) (token : Token) :
    Outcome.Alike Problem.code Eq (dataItem scope order width token)
      (dataItem scope order width token.lower) := by
  cases token with
  | word text =>
      have value := scope.alike_number (.ofBytes width) .invalidValue (fun _ _ => rfl) (.word text)
      exact value.bind_same fun _ => .ok rfl
  | _ => exact .refl _

theorem alike_dataBytes (order : ByteOrder) (width : Nat) (tokens : List Token) :
    Outcome.Alike Problem.code Eq (dataBytes scope order width tokens)
      (dataBytes scope order width (tokens.map Token.lower)) := by
  induction tokens with
  | nil => exact .ok rfl
  | cons token tokens induction =>
      exact (alike_dataItem scope order width token).bind_same fun _ =>
        induction.bind_same fun _ => .ok rfl

theorem alike_originAddress (arch : Architecture) (text : String) :
    Outcome.Alike Problem.code Eq (originAddress scope arch text)
      (originAddress scope arch (Text.lowercase text)) := by
  unfold originAddress
  rw [resolve?_lowercase]
  refine .bind_same (alike_orReject (by rfl) (resolve? scope.labels text)) fun resolved => ?_
  split
  · exact .ok rfl
  · exact .problem rfl

theorem alike_allocation (arch : Architecture) (width : Nat) (count : Token) :
    Outcome.Alike Problem.code Eq (allocation scope arch width count)
      (allocation scope arch width count.lower) := by
  cases count with
  | word text =>
      simp only [allocation, Token.lower, resolve?_lowercase]
      refine .bind_same (alike_orReject (by rfl) (resolve? scope.labels text)) fun resolved => ?_
      split
      · exact .problem rfl
      · exact .ok rfl
  | _ => exact .refl _

theorem Directive.ofMnemonic?_lowercase (mnemonic : String) :
    ofMnemonic? (Text.lowercase mnemonic) = ofMnemonic? mnemonic := by
  rw [ofMnemonic?, Text.lowercase_lowercase, ofMnemonic?]

theorem alike_directiveEffect (arch : Architecture) (directive : Directive)
    (arguments : List Token) :
    Outcome.Alike Problem.code Eq (directiveEffect scope arch directive arguments)
      (directiveEffect scope arch directive (arguments.map Token.lower)) := by
  have data : ∀ tokens, Outcome.Alike Problem.code Eq
      ((dataBytes scope arch.byteOrder directive.width tokens).map (@Effect.data arch))
      ((dataBytes scope arch.byteOrder directive.width (tokens.map Token.lower)).map
        Effect.data) := by
    intro tokens
    apply (alike_dataBytes scope _ _ tokens).map
    rintro bytes _ rfl
    rfl
  have commas : (arguments.map Token.lower).filter (fun token => token ≠ .comma) =
      (arguments.filter fun token => token ≠ .comma).map Token.lower := by
    rw [List.filter_map]
    simp only [Function.comp_def, ne_eq, Token.lower_eq_comma]
  unfold directiveEffect
  rw [commas]
  generalize arguments.filter (fun token => token ≠ .comma) = tokens
  -- One case for each number of arguments; brackets are told from other tokens one by one.
  rcases tokens with _ | ⟨first, _ | ⟨second, _ | ⟨third, _ | ⟨fourth, others⟩⟩⟩⟩
  · cases directive <;> exact .refl _
  · cases directive with
    | org =>
        cases first with
        | word text => exact alike_originAddress scope arch text
        | _ => exact .problem rfl
    | db | dw => exact data [first]
    | dab | daw => cases first <;> exact data _
  · cases directive with
    | org | db | dw => cases first <;> exact .problem rfl
    | dab | daw => cases first <;> exact data _
  · cases directive with
    | org | db | dw => cases first <;> exact .problem rfl
    | dab | daw =>
        cases first with
        | openBracket =>
            cases third with
            | closeBracket => exact alike_allocation scope arch _ second
            | _ => exact data _
        | _ => exact data _
  · cases directive with
    | org | db | dw => cases first <;> exact .problem rfl
    | dab | daw => cases first <;> cases third <;> exact data _

end Values

end ClassroomCpu.Assembly

namespace ClassroomCpu

/-! ## Arguments -/

namespace Datasheet

variable (sheet : Datasheet)

theorem instructionNamed?_lowercase (mnemonic : String) :
    sheet.instructionNamed? (Text.lowercase mnemonic) = sheet.instructionNamed? mnemonic := by
  simp only [instructionNamed?, Text.sameLetters_lowercase_right]

theorem selectableRegister?_lowercase (name : String) :
    sheet.selectableRegister? (Text.lowercase name) = sheet.selectableRegister? name := by
  simp only [selectableRegister?, Text.sameLetters_lowercase_right]

end Datasheet

namespace Assembly

/-- The parts of an operand with the letters of its value in lower case. -/
def OperandParts.lower (parts : OperandParts) : OperandParts :=
  { parts with value := parts.value.map Token.lower }

/-- An operand with the letters of its value in lower case. -/
abbrev Operand.lower (operand : Operand) : Operand :=
  { operand with value := operand.value.map Token.lower }

/-- An argument with its letters in lower case. -/
def Argument.lower : Argument → Argument
  | .register selected => .register selected
  | .operand addressed => .operand addressed.lower
  | .offset text => .offset (Text.lowercase text)
  | .flags letters => .flags (Text.lowercase letters)

section Arguments

variable (sheet : Datasheet)

theorem matchItem?_lower (parts : OperandParts) (item : FormItem) (token : Token) :
    matchItem? sheet parts.lower item token.lower =
      (matchItem? sheet parts item token).map OperandParts.lower := by
  have letters (text : String) :
      Text.sameLetters token.lower.text text = Text.sameLetters token.text text := by
    cases token with
    | word name => exact Text.sameLetters_lowercase_left name text
    | _ => rfl
  cases item with
  | value =>
      cases token with
      | word text =>
          simp only [matchItem?, Token.lower, sheet.selectableRegister?_lowercase]
          split <;> rfl
      | _ => rfl
  | register =>
      cases token with
      | word name =>
          simp only [matchItem?, Token.lower, sheet.selectableRegister?_lowercase, Option.map_map]
          rfl
      | _ => rfl
  | literal text =>
      simp only [matchItem?, letters]
      split <;> rfl

theorem matchItems?_lower (parts : OperandParts) (items : List FormItem) (tokens : List Token) :
    matchItems? sheet parts.lower items (tokens.map Token.lower) =
      (matchItems? sheet parts items tokens).map
        (Prod.map OperandParts.lower (List.map Token.lower)) := by
  induction items generalizing parts tokens with
  | nil => rfl
  | cons item items induction =>
      cases tokens with
      | nil => rfl
      | cons token tokens =>
          simp only [List.map_cons, matchItems?, matchItem?_lower]
          cases matchItem? sheet parts item token with
          | none => rfl
          | some further => exact induction further tokens

theorem matchOperand?_lower (tokens : List Token) :
    matchOperand? sheet (tokens.map Token.lower) =
      (matchOperand? sheet tokens).map
        (Option.map (Prod.map Operand.lower (List.map Token.lower))) := by
  have nothing (items : List FormItem) :
      matchItems? sheet ⟨none, none⟩ items (tokens.map Token.lower) = _ :=
    matchItems?_lower sheet ⟨none, none⟩ items tokens
  unfold matchOperand?
  cases compiledModes sheet with
  | error fault => rfl
  | ok modes =>
      refine congrArg Except.ok ?_
      rw [List.map_findSome?]
      congr 1
      funext entry
      rw [nothing, Function.comp_apply, Option.map_map, Option.map_map]
      rfl

theorem alike_parseArgument (instruction : Instruction) (parameter : Parameter)
    (tokens : List Token) :
    Outcome.Alike Problem.code
      (fun parsed other => other = Prod.map Argument.lower (List.map Token.lower) parsed)
      (parseArgument sheet instruction parameter tokens)
      (parseArgument sheet instruction parameter (tokens.map Token.lower)) := by
  cases parameter with
  | flags =>
      rcases tokens with _ | ⟨token, tokens⟩
      · exact .ok rfl
      · cases token <;> exact .ok rfl
  | offset =>
      rcases tokens with _ | ⟨token, tokens⟩
      · exact .problem rfl
      · cases token with
        | word text => exact .ok rfl
        | _ => exact .problem rfl
  | register =>
      rcases tokens with _ | ⟨token, tokens⟩
      · exact .problem rfl
      · cases token with
        | word name =>
            simp only [List.map_cons, Token.lower, parseArgument,
              sheet.selectableRegister?_lowercase]
            cases sheet.selectableRegister? name with
            | none => exact .problem rfl
            | some register => exact .ok rfl
        | _ => exact .problem rfl
  | operand name =>
      rcases tokens with _ | ⟨token, tokens⟩
      · exact .problem rfl
      · have matched := matchOperand?_lower sheet (token :: tokens)
        rw [List.map_cons] at matched ⊢
        simp only [parseArgument, matched]
        cases matchOperand? sheet (token :: tokens) with
        | error fault => exact .fault fault
        | ok found =>
            cases found with
            | none => exact .problem rfl
            | some found => exact .ok rfl

theorem skipComma_map_lower (tokens : List Token) :
    skipComma (tokens.map Token.lower) = (skipComma tokens).map Token.lower := by
  rcases tokens with _ | ⟨token, tokens⟩
  · rfl
  · cases token <;> rfl

theorem alike_parseFurther (instruction : Instruction) (parameters : List Parameter)
    (tokens : List Token) :
    Outcome.Alike Problem.code (fun parsed other => other = parsed.map Argument.lower)
      (parseFurther sheet instruction parameters tokens)
      (parseFurther sheet instruction parameters (tokens.map Token.lower)) := by
  induction parameters generalizing tokens with
  | nil =>
      cases tokens with
      | nil => exact .ok rfl
      | cons token tokens => exact .problem rfl
  | cons parameter parameters induction =>
      simp only [parseFurther, skipComma_map_lower]
      apply (alike_parseArgument sheet instruction parameter (skipComma tokens)).bind
      rintro ⟨argument, rest⟩ _ rfl
      apply (induction rest).bind
      rintro arguments _ rfl
      exact .ok rfl

theorem alike_parseArguments (instruction : Instruction) (tokens : List Token) :
    Outcome.Alike Problem.code (fun parsed other => other = parsed.map Argument.lower)
      (parseArguments sheet instruction tokens)
      (parseArguments sheet instruction (tokens.map Token.lower)) := by
  unfold parseArguments
  cases instruction.parameters with
  | nil =>
      cases tokens with
      | nil => exact .ok rfl
      | cons token tokens => exact .problem rfl
  | cons parameter parameters =>
      apply (alike_parseArgument sheet instruction parameter tokens).bind
      rintro ⟨argument, rest⟩ _ rfl
      apply (alike_parseFurther sheet instruction parameters rest).bind
      rintro arguments _ rfl
      exact .ok rfl

end Arguments

/-! ## Encodings -/

section Encodings

variable (scope : Scope) (arch : Architecture)

/-- The address of an operand is its value. -/
theorem alike_addressValue (token : Token) :
    Outcome.Alike Problem.code Eq ((scope.address arch token).map fun address => (address : Int))
      ((scope.address arch token.lower).map fun address => (address : Int)) := by
  have value : Outcome.Alike Problem.code Eq
      (do let address ← scope.address arch token; return (address : Int))
      (do let address ← scope.address arch token.lower; return (address : Int)) :=
    (scope.alike_address arch token).bind_same fun _ => .ok rfl
  apply value.map
  rintro value _ rfl
  rfl

theorem ByteParts.alike_operandValue (operand : Operand) :
    Outcome.Alike Problem.code Eq (operandValue scope arch operand)
      (operandValue scope arch operand.lower) := by
  simp only [operandValue]
  cases operand.value with
  | none => exact .ok rfl
  | some token =>
      by_cases immediate : operand.mode.kind = .immediate
      · simp only [Option.map_some, if_pos immediate]
        exact scope.alike_immediate _ token
      · simp only [Option.map_some, if_neg immediate]
        exact alike_addressValue scope arch token

theorem alike_encodeBytes (instruction : Instruction) (arguments : List Argument) :
    Outcome.Alike Problem.code Eq (encodeBytes scope arch instruction arguments)
      (encodeBytes scope arch instruction (arguments.map Argument.lower)) := by
  refine .bind_same (.foldlM ?_ _ arguments) fun _ => .ok rfl
  intro parts argument
  cases argument with
  | register register => exact .ok rfl
  | operand operand =>
      exact (ByteParts.alike_operandValue scope arch operand).bind_same fun _ => .ok rfl
  | _ => exact .problem rfl

namespace WordParts

theorem alike_operandValue (operand : Operand) :
    Outcome.Alike Problem.code Eq (operandValue scope arch operand)
      (operandValue scope arch operand.lower) := by
  simp only [operandValue]
  cases operand.value with
  | none => exact .ok rfl
  | some token =>
      cases operand.mode.kind with
      | immediate => exact scope.alike_immediate 2 token
      | direct => exact alike_addressValue scope arch token
      | _ => exact scope.alike_number (.ofBytes 2) .invalidValue (fun _ _ => rfl) token

theorem operandBits_lower (operand : Operand) : operandBits operand.lower = operandBits operand :=
  rfl

theorem alike_flagBits (letters : String) :
    Outcome.Alike Problem.code Eq (flagBits letters) (flagBits (Text.lowercase letters)) := by
  unfold flagBits
  rw [Text.toList_lowercase]
  apply Outcome.Alike.foldlM
  intro bits letter
  simp only [Text.toLower_toLower]
  split
  · exact .ok rfl
  · exact .problem rfl

theorem alike_addArgument (instruction : Instruction) (parts : WordParts) (parameter : Parameter)
    (argument : Argument) :
    Outcome.Alike Problem.code Eq (addArgument scope arch instruction parts (parameter, argument))
      (addArgument scope arch instruction parts (parameter, argument.lower)) := by
  cases argument with
  | register register => exact .ok rfl
  | flags letters => exact (alike_flagBits letters).bind_same fun _ => .ok rfl
  | offset text => exact (scope.alike_offset instruction text).bind_same fun _ => .ok rfl
  | operand operand =>
      simp only [addArgument, Argument.lower, operandBits_lower]
      by_cases word : arch.operandBytes operand.mode.kind = 2
      · simp only [if_pos word]
        exact (alike_operandValue scope arch operand).bind_same fun _ => .ok rfl
      · simp only [if_neg word]
        exact .ok rfl

end WordParts

theorem alike_encodeWord (instruction : Instruction) (arguments : List Argument) :
    Outcome.Alike Problem.code Eq (encodeWord scope arch instruction arguments)
      (encodeWord scope arch instruction (arguments.map Argument.lower)) := by
  unfold encodeWord
  rw [List.zip_map_right]
  refine .bind_same (.foldlM ?_ _ _) fun _ => .ok rfl
  rintro parts ⟨parameter, argument⟩
  exact WordParts.alike_addArgument scope arch instruction parts parameter argument

theorem alike_encode (instruction : Instruction) (arguments : List Argument) :
    Outcome.Alike Problem.code Eq (encode scope arch instruction arguments)
      (encode scope arch instruction (arguments.map Argument.lower)) := by
  unfold encode
  cases arch.model with
  | word => exact alike_encodeWord scope arch instruction arguments
  | standard | stack => exact alike_encodeBytes scope arch instruction arguments

/-! ## Statements -/

theorem alike_mnemonicEffect (mnemonic : String) (arguments : List Token) :
    Outcome.Alike Problem.code Eq (mnemonicEffect scope arch mnemonic arguments)
      (mnemonicEffect scope arch (Text.lowercase mnemonic) (arguments.map Token.lower)) := by
  unfold mnemonicEffect
  rw [Directive.ofMnemonic?_lowercase, arch.instructionNamed?_lowercase]
  split
  · exact alike_directiveEffect scope arch _ arguments
  · split
    · refine .bind (alike_parseArguments arch.toDatasheet _ arguments) ?_
      rintro parsed _ rfl
      exact (alike_encode scope arch _ parsed).bind_same fun _ => .ok rfl
    · exact .problem (by simp only [Problem.code])

theorem code_lexicalProblem_map_toLower (rest : List Char) :
    (lexicalProblem (rest.map Char.toLower)).code = (lexicalProblem rest).code := by
  cases rest with
  | nil => rfl
  | cons c rest =>
      have quote : c.toLower = '\'' ↔ c = '\'' := Text.toLower_eq_iff (by decide)
      simp only [lexicalProblem, List.map_cons, List.head?_cons, Option.some.injEq, quote]
      split <;> simp only [Problem.code]

/-- A statement without quotes has the same effect in lower case. -/
theorem alike_statementEffect {statement : String} (unquoted : '\'' ∉ statement.toList) :
    Outcome.Alike Problem.code Eq (statementEffect scope arch statement)
      (statementEffect scope arch (Text.lowercase statement)) := by
  unfold statementEffect
  rw [Text.toList_lowercase, Token.lex_map_toLower unquoted]
  cases Token.lex statement.toList with
  | error rest => exact .problem (code_lexicalProblem_map_toLower rest).symm
  | ok tokens =>
      rcases tokens with _ | ⟨token, arguments⟩
      · exact .problem rfl
      · cases token with
        | word mnemonic => exact alike_mnemonicEffect scope arch mnemonic arguments
        | _ => exact .problem rfl

end Encodings

end Assembly

end ClassroomCpu
