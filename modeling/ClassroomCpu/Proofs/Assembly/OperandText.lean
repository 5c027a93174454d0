import ClassroomCpu.Proofs.Assembly.ArgumentFit
import ClassroomCpu.Proofs.Assembly.Numeral
import ClassroomCpu.Proofs.Assembly.TokenText

/-!
# Reading back operands

An operand is shown by filling in the form of its addressing mode.  It is read
as it was shown if no mode that is tried earlier fits the tokens, which can be
told from the forms alone.
-/

namespace ClassroomCpu

open Assembly

/-! ## Filled forms -/

namespace Assembly

/-- The tokens of a form; none if it cannot be cut into tokens. -/
def formTokens (form : String) : List Token :=
  match Token.lex form.toList with
  | .ok tokens => tokens
  | .error _ => []

/-- The token in the place of a token of a form, for a value and the name of a register. -/
def Token.fill (value name : String) (token : Token) : Token :=
  if token = .word "a" then .word value
  else if token = .word "r" then .word name
  else token

/-- A form that is nothing but its tokens, in which only a value and a register are open. -/
structure FormReads (form : String) : Prop where
  lexed : Token.lex form.toList = .ok (formTokens form)
  text : Token.textOf (formTokens form) = form.toList
  row : Token.Row (formTokens form)
  open_places : ∀ token ∈ formTokens form, token = .word "a" ∨ token = .word "r" ∨
    ('a' ∉ token.text.toList ∧ 'r' ∉ token.text.toList)
  starts : ∃ token ∈ (formTokens form).head?, token ≠ .comma

variable {value name : String}

theorem fill_value : Token.fill value name (.word "a") = .word value := by
  simp [Token.fill]

theorem fill_register : Token.fill value name (.word "r") = .word name := by
  simp [Token.fill]

theorem flatMap_renderChar_of_closed {text : List Char} (noValue : 'a' ∉ text)
    (noRegister : 'r' ∉ text) (value name : List Char) :
    text.flatMap (AddressingMode.renderChar value name) = text := by
  induction text with
  | nil => rfl
  | cons c text induction =>
      simp only [List.mem_cons, not_or] at noValue noRegister
      have here : AddressingMode.renderChar value name c = [c] := by
        simp [AddressingMode.renderChar, Ne.symm noValue.1, Ne.symm noRegister.1]
      rw [List.flatMap_cons, here, induction noValue.2 noRegister.2]
      rfl

/-- An operand is shown as the filled tokens of the form. -/
theorem toList_render {mode : AddressingMode} (reads : FormReads mode.form)
    (value name : String) :
    (mode.render value name).toList =
      Token.textOf ((formTokens mode.form).map (Token.fill value name)) := by
  rw [AddressingMode.render, String.toList_ofList, ← reads.text, Token.textOf, Token.textOf,
    List.flatMap_assoc, List.flatMap_map]
  apply List.flatMap_congr
  intro token member
  rcases reads.open_places token member with rfl | rfl | ⟨noValue, noRegister⟩
  · simp [fill_value, Token.text, AddressingMode.renderChar]
  · simp [fill_register, Token.text, AddressingMode.renderChar]
  · have noWord : token ≠ .word "a" ∧ token ≠ .word "r" := by
      constructor
      · rintro rfl
        simp [Token.text] at noValue
      · rintro rfl
        simp [Token.text] at noRegister
    simp [Token.fill, noWord, flatMap_renderChar_of_closed noValue noRegister]

/-- Filling in keeps words words. -/
theorem exists_fill_word (value name text : String) :
    ∃ filled, Token.fill value name (.word text) = .word filled := by
  unfold Token.fill
  split
  · exact ⟨value, rfl⟩
  · split
    · exact ⟨name, rfl⟩
    · exact ⟨text, rfl⟩

theorem endsBeforeToken_fill {token next : Token} (ends : token.endsBeforeToken next = true)
    (value name : String) :
    (Token.fill value name token).endsBeforeToken (Token.fill value name next) = true := by
  cases token with
  | word text =>
      obtain ⟨filled, same⟩ := exists_fill_word value name text
      rw [same]
      cases next <;> simp_all [Token.fill, Token.endsBeforeToken]
  | minus =>
      cases next <;> simp_all [Token.fill, Token.endsBeforeToken]
  | _ => simp [Token.fill, Token.endsBeforeToken]

theorem fill_ne_comma {token : Token} (other : token ≠ .comma) (value name : String) :
    Token.fill value name token ≠ .comma := by
  unfold Token.fill
  split_ifs <;> simp [other]

theorem isPlainWord_signedDecimal (number : Int) :
    Token.isPlainWord (Text.signedDecimal number).toList = true := by
  have wordChars : ∀ c ∈ Nat.toDigits 10 number.natAbs, Token.isWordChar c = true := by
    intro c member
    exact Text.digit_cases (motive := fun c => Token.isWordChar c = true) (by decide)
      (Text.isDigit_of_mem_toDigits _ c member)
  rw [Text.toList_signedDecimal]
  split
  · simpa [Token.isPlainWord] using wordChars
  · unfold Token.isPlainWord
    split
    · rename_i shown
      exact absurd (wordChars '-' (by simp [shown])) (by decide)
    · simpa using wordChars

/-- A filled form is a row of tokens if what is filled in is plain. -/
theorem row_fill {form : String} (reads : FormReads form)
    (plainValue : .word "a" ∈ formTokens form → Token.isPlainWord value.toList = true)
    (plainName : .word "r" ∈ formTokens form → Token.isPlainWord name.toList = true) :
    Token.Row ((formTokens form).map (Token.fill value name)) where
  plain := by
    intro filled member
    obtain ⟨token, among, rfl⟩ := List.mem_map.mp member
    unfold Token.fill
    split
    · rename_i same
      exact plainValue (same ▸ among)
    · split
      · rename_i same
        exact plainName (same ▸ among)
      · exact reads.row.plain token among
  chain := by
    rw [List.isChain_map]
    exact reads.row.chain.imp fun _ _ ends => endsBeforeToken_fill ends value name

end Assembly

/-! ## Items and filled tokens -/

/-- Whether there are commas between the arguments of instructions as they are shown. -/
def Datasheet.hasCommas (sheet : Datasheet) : Bool :=
  sheet.model == .word

/-- The names of registers are words that are no numbers, and lead to the registers. -/
structure Datasheet.LegibleNames (sheet : Datasheet) : Prop where
  plain : ∀ named, Selectable sheet named → Token.isPlainWord named.name.toList = true
  letter : ∀ named, Selectable sheet named → Text.hasLetter named.name = true
  found : ∀ named, Selectable sheet named → sheet.selectableRegister? named.name = some named

namespace Assembly

variable {sheet : Datasheet} {value name : String} {register : Option RegisterSpec}
  {tokens : List Token}

/-- No number names a register. -/
theorem selectableRegister?_signedDecimal (names : sheet.LegibleNames) (number : Int) :
    sheet.selectableRegister? (Text.signedDecimal number) = none := by
  rw [Datasheet.selectableRegister?, List.find?_eq_none]
  intro named known
  cases selected : named.pattern.text.isEmpty with
  | true => simp
  | false =>
      have letter := names.letter named ⟨known, selected⟩
      simp [Text.not_sameLetters_of_hasLetter letter]

/-- A form is filled in with a number, and with the name of a register. -/
structure Fills (sheet : Datasheet) (value name : String) (register : Option RegisterSpec)
    (tokens : List Token) : Prop where
  value : .word "a" ∈ tokens → ∃ number, value = Text.signedDecimal number
  register : .word "r" ∈ tokens →
    ∃ named, register = some named ∧ Selectable sheet named ∧ name = named.name

theorem Fills.tail {token : Token} (fills : Fills sheet value name register (token :: tokens)) :
    Fills sheet value name register tokens where
  value member := fills.value (List.mem_cons_of_mem _ member)
  register member := fills.register (List.mem_cons_of_mem _ member)

/-! ### The form itself -/

/-- The parts of an operand with what a token of its form gives. -/
def filledParts (value : String) (register : Option RegisterSpec) (parts : OperandParts)
    (token : Token) : OperandParts :=
  if token = .word "a" then { parts with value := some (.word value) }
  else if token = .word "r" then { parts with register := register }
  else parts

theorem matchItem?_fill (names : sheet.LegibleNames) {token : Token}
    (fills : Fills sheet value name register (token :: tokens)) (parts : OperandParts) :
    matchItem? sheet parts (.ofToken token) (Token.fill value name token) =
      some (filledParts value register parts token) := by
  by_cases isValue : token = .word "a"
  · subst isValue
    obtain ⟨number, rfl⟩ := fills.value (by simp)
    simp [FormItem.ofToken, fill_value, matchItem?, filledParts,
      selectableRegister?_signedDecimal names]
  · by_cases isRegister : token = .word "r"
    · subst isRegister
      obtain ⟨named, rfl, selectable, rfl⟩ := fills.register (by simp)
      simp [FormItem.ofToken, fill_register, matchItem?, filledParts,
        names.found named selectable]
    · simp [FormItem.ofToken, Token.fill, filledParts, isValue, isRegister, matchItem?,
        Text.sameLetters]

theorem matchItems?_fill (names : sheet.LegibleNames)
    (fills : Fills sheet value name register tokens) (parts : OperandParts)
    (rest : List Token) :
    matchItems? sheet parts (tokens.map .ofToken) (tokens.map (Token.fill value name) ++ rest) =
      some (tokens.foldl (filledParts value register) parts, rest) := by
  induction tokens generalizing parts with
  | nil => rfl
  | cons token tokens induction =>
      simp only [List.map_cons, List.cons_append, matchItems?, matchItem?_fill names fills,
        induction fills.tail, List.foldl_cons]

theorem foldl_filledParts (tokens : List Token) (parts : OperandParts) :
    tokens.foldl (filledParts value register) parts =
      ⟨if .word "a" ∈ tokens then some (.word value) else parts.value,
        if .word "r" ∈ tokens then register else parts.register⟩ := by
  induction tokens generalizing parts with
  | nil => rfl
  | cons token tokens induction =>
      rw [List.foldl_cons, induction]
      by_cases isValue : token = .word "a"
      · subst isValue
        simp [filledParts]
      · by_cases isRegister : token = .word "r"
        · subst isRegister
          simp [filledParts]
        · simp [filledParts, isValue, isRegister, Ne.symm isValue, Ne.symm isRegister]

/-! ### Other forms -/

/-- Whether an item agrees with nothing that may stand in the place of a token of a form. -/
def FormItem.excludes (sheet : Datasheet) (item : FormItem) (token : Token) : Bool :=
  if token = .word "a" then
    match item with
    | .value => false
    | .register => true
    | .literal text => !Text.hasDigit text
  else if token = .word "r" then
    match item with
    | .value => true
    | .register => false
    | .literal text => sheet.registers.all fun named => !Text.sameLetters named.name text
  else (matchItem? sheet ⟨none, none⟩ item token).isNone

/-- Whether some items never fit a filled form, behind which at most a comma stands. -/
def excludesForm (sheet : Datasheet) : List FormItem → List Token → Bool
  | [], _ => false
  | item :: _, [] => !sheet.hasCommas || item.excludes sheet .comma
  | item :: items, token :: tokens =>
      item.excludes sheet token || excludesForm sheet items tokens

theorem isNone_matchItem? (parts other : OperandParts) (item : FormItem) (token : Token) :
    (matchItem? sheet parts item token).isNone = (matchItem? sheet other item token).isNone := by
  unfold matchItem?
  split
  · split <;> rfl
  · rfl
  · simp
  · split <;> rfl
  · rfl

theorem matchItem?_eq_none (names : sheet.LegibleNames) {token : Token}
    (fills : Fills sheet value name register (token :: tokens)) {item : FormItem}
    (excluded : item.excludes sheet token = true) (parts : OperandParts) :
    matchItem? sheet parts item (Token.fill value name token) = none := by
  unfold FormItem.excludes at excluded
  by_cases isValue : token = .word "a"
  · subst isValue
    obtain ⟨number, rfl⟩ := fills.value (by simp)
    rw [if_pos rfl] at excluded
    rw [fill_value]
    cases item with
    | value => simp at excluded
    | register => simp [matchItem?, selectableRegister?_signedDecimal names]
    | literal text =>
        have noDigit : Text.hasDigit text = false := by simpa using excluded
        have apart := Text.not_sameLetters_of_not_hasDigit noDigit number
        simp [matchItem?, Token.text, apart]
  · rw [if_neg isValue] at excluded
    by_cases isRegister : token = .word "r"
    · subst isRegister
      obtain ⟨named, rfl, selectable, rfl⟩ := fills.register (by simp)
      rw [if_pos rfl] at excluded
      rw [fill_register]
      cases item with
      | value => simp [matchItem?, names.found named selectable]
      | register => simp at excluded
      | literal text =>
          have apart := List.all_eq_true.mp excluded named selectable.1
          simp only [Bool.not_eq_true'] at apart
          simp [matchItem?, Token.text, apart]
    · rw [if_neg isRegister, isNone_matchItem? _ parts] at excluded
      simpa [Token.fill, isValue, isRegister] using excluded

/-- A form that is excluded does not fit. -/
theorem matchItems?_eq_none (names : sheet.LegibleNames)
    (fills : Fills sheet value name register tokens) {items : List FormItem}
    (excluded : excludesForm sheet items tokens = true) {rest : List Token}
    (follows : ∀ token ∈ rest.head?, sheet.hasCommas = true ∧ token = .comma)
    (parts : OperandParts) :
    matchItems? sheet parts items (tokens.map (Token.fill value name) ++ rest) = none := by
  induction items generalizing tokens parts with
  | nil => simp [excludesForm] at excluded
  | cons item items induction =>
      cases tokens with
      | nil =>
          cases rest with
          | nil => rfl
          | cons token rest =>
              obtain ⟨commas, rfl⟩ := follows token rfl
              rw [excludesForm, commas, Bool.not_true, Bool.false_or] at excluded
              have nothing : Fills sheet value name register [.comma] := ⟨by simp, by simp⟩
              have noComma := matchItem?_eq_none names nothing excluded parts
              simp only [Token.fill, reduceCtorEq, if_false] at noComma
              simp only [List.map_nil, List.nil_append, matchItems?, noComma]
      | cons token tokens =>
          rw [excludesForm, Bool.or_eq_true] at excluded
          simp only [List.map_cons, List.cons_append, matchItems?]
          rcases excluded with here | later
          · rw [matchItem?_eq_none names fills here]
          · split
            · exact induction fills.tail later _
            · rfl

end Assembly

/-! ## Modes -/

namespace Datasheet

/-- The modes in the order in which they are tried. -/
def triedModes (sheet : Datasheet) : List CompiledMode :=
  match compiledModes sheet with
  | .ok entries => entries
  | .error _ => []

/-- The modes that are tried before a mode. -/
def rivals (sheet : Datasheet) (mode : AddressingMode) : List CompiledMode :=
  sheet.triedModes.takeWhile fun entry => entry.mode != mode

/-- The forms of the modes can be told apart. -/
structure LegibleModes (sheet : Datasheet) : Prop where
  compiled : compiledModes sheet = .ok sheet.triedModes
  forms : ∀ mode ∈ sheet.addressingModes, FormReads mode.form
  tried : ∀ mode ∈ sheet.addressingModes, ∃ entry ∈ sheet.triedModes, entry.mode = mode
  apart : ∀ mode ∈ sheet.addressingModes, ∀ rival ∈ sheet.rivals mode,
    excludesForm sheet rival.items (formTokens mode.form) = true

end Datasheet

namespace Assembly

variable {sheet : Datasheet}

theorem formItems_of_reads {form : String} (reads : FormReads form) :
    formItems form = .ok ((formTokens form).map .ofToken) := by
  simp only [formItems, reads.lexed]

/-- A mode is tried behind its rivals. -/
theorem exists_triedModes_eq (modes : sheet.LegibleModes) {mode : AddressingMode}
    (known : mode ∈ sheet.addressingModes) :
    ∃ others, sheet.triedModes =
      sheet.rivals mode ++ ⟨mode, (formTokens mode.form).map .ofToken⟩ :: others := by
  obtain ⟨entry, member, same⟩ := modes.tried mode known
  have split := List.takeWhile_append_dropWhile (p := fun entry : CompiledMode =>
    entry.mode != mode) (l := sheet.triedModes)
  cases behind : sheet.triedModes.dropWhile fun entry => entry.mode != mode with
  | nil =>
      have passed := List.dropWhile_eq_nil_iff.mp behind entry member
      simp [same] at passed
  | cons first others =>
      obtain ⟨here, items⟩ := first
      have stopped := List.head_dropWhile_not (fun entry : CompiledMode => entry.mode != mode)
        (l := sheet.triedModes) (by simp [behind])
      simp only [behind, List.head_cons, bne_eq_false_iff_eq] at stopped
      subst stopped
      have among : ⟨here, items⟩ ∈ sheet.triedModes := by
        rw [← split, behind]
        simp
      have same_items := (mem_compiledModes modes.compiled among).2
      rw [formItems_of_reads (modes.forms here known)] at same_items
      refine ⟨others, ?_⟩
      rw [Except.ok.inj same_items, ← behind]
      exact split.symm

theorem ofToken_eq_value {token : Token} : FormItem.ofToken token = .value ↔ token = .word "a" := by
  unfold FormItem.ofToken
  split_ifs <;> simp_all

theorem ofToken_eq_register {token : Token} :
    FormItem.ofToken token = .register ↔ token = .word "r" := by
  unfold FormItem.ofToken
  split_ifs <;> simp_all

/-- A mode without another one has no rivals. -/
theorem rivals_eq_nil (modes : sheet.LegibleModes) {mode : AddressingMode}
    (single : sheet.addressingModes = [mode]) : sheet.rivals mode = [] := by
  rw [List.eq_nil_iff_forall_not_mem]
  intro rival member
  have other := List.mem_takeWhile_imp member
  have known := (mem_compiledModes modes.compiled ((List.takeWhile_sublist _).mem member)).1
  rw [single, List.mem_singleton] at known
  simp [known] at other

/-- The text in the place of the value of an operand. -/
def Operand.valueText (operand : Operand) : String :=
  (operand.value.map Token.text).getD ""

/-- The name in the place of the register of an operand. -/
def Operand.registerName (operand : Operand) : String :=
  (operand.register.map (·.name)).getD ""

/-- The tokens of an operand as it is shown. -/
def Operand.tokens (operand : Operand) : List Token :=
  (formTokens operand.mode.form).map (Token.fill operand.valueText operand.registerName)

/-- An operand whose value is written as a number. -/
def Operand.IsNumbered (operand : Operand) : Prop :=
  ∀ token ∈ operand.value, ∃ number, token = .word (Text.signedDecimal number)

/-- The operand is shown by the form of its mode. -/
def Operand.text (operand : Operand) : String :=
  operand.mode.render operand.valueText operand.registerName

section Operand

variable {operand : Operand} (names : sheet.LegibleNames) (modes : sheet.LegibleModes)
  (fits : operand.Fits sheet) (numbered : operand.IsNumbered)

include modes fits in
/-- An operand has the parts that the open places of its form ask for. -/
theorem isSome_parts :
    operand.value.isSome = decide (.word "a" ∈ formTokens operand.mode.form) ∧
      operand.register.isSome = decide (.word "r" ∈ formTokens operand.mode.form) := by
  obtain ⟨known, items, lexed, parts⟩ := fits
  rw [formItems_of_reads (modes.forms _ known)] at lexed
  obtain rfl := Except.ok.inj lexed
  rw [parts.hasValue, parts.hasRegister]
  constructor <;> apply Bool.eq_iff_iff.mpr
  · simp [ofToken_eq_value]
  · simp [ofToken_eq_register]

include modes fits numbered in
theorem fills_operand :
    Fills sheet operand.valueText operand.registerName operand.register
      (formTokens operand.mode.form) where
  value member := by
    have given := (isSome_parts modes fits).1
    rw [decide_eq_true member] at given
    obtain ⟨token, named⟩ := Option.isSome_iff_exists.mp given
    obtain ⟨number, rfl⟩ := numbered token named
    exact ⟨number, by simp [Operand.valueText, named, Token.text]⟩
  register member := by
    have given := (isSome_parts modes fits).2
    rw [decide_eq_true member] at given
    obtain ⟨named, same⟩ := Option.isSome_iff_exists.mp given
    obtain ⟨_, items, _, parts⟩ := fits
    exact ⟨named, same, parts.register named same, by simp [Operand.registerName, same]⟩

include modes fits numbered in
/-- Filling in the parts of an operand gives the parts back. -/
theorem foldl_operandParts :
    (formTokens operand.mode.form).foldl (filledParts operand.valueText operand.register)
      ⟨none, none⟩ = operand.toOperandParts := by
  obtain ⟨hasValue, hasRegister⟩ := isSome_parts modes fits
  have value : (if .word "a" ∈ formTokens operand.mode.form
      then some (Token.word operand.valueText) else none) = operand.value := by
    split
    · rename_i named
      rw [decide_eq_true named] at hasValue
      obtain ⟨token, given⟩ := Option.isSome_iff_exists.mp hasValue
      obtain ⟨number, rfl⟩ := numbered token given
      simp [given, Operand.valueText, Token.text]
    · rename_i unnamed
      rw [decide_eq_false unnamed, Option.isSome_eq_false_iff, Option.isNone_iff_eq_none]
        at hasValue
      exact hasValue.symm
  have register : (if .word "r" ∈ formTokens operand.mode.form then operand.register else none) =
      operand.register := by
    split
    · rfl
    · rename_i unnamed
      rw [decide_eq_false unnamed, Option.isSome_eq_false_iff, Option.isNone_iff_eq_none]
        at hasRegister
      exact hasRegister.symm
  rw [foldl_filledParts, value, register]

/-- What is read in the form of one mode. -/
def readMode? (sheet : Datasheet) (tokens : List Token) (entry : CompiledMode) :
    Option (Operand × List Token) :=
  (matchItems? sheet ⟨none, none⟩ entry.items tokens).map fun (parts, rest) =>
    (⟨parts, entry.mode⟩, rest)

include names modes fits numbered in
/-- An operand is read from its tokens, if no rival can fit what follows. -/
theorem matchOperand?_tokens {rest : List Token}
    (follows : sheet.rivals operand.mode = [] ∨
      ∀ token ∈ rest.head?, sheet.hasCommas = true ∧ token = .comma) :
    matchOperand? sheet (operand.tokens ++ rest) = .ok (some (operand, rest)) := by
  have fills := fills_operand modes fits numbered
  have known := fits.1
  obtain ⟨others, order⟩ := exists_triedModes_eq modes known
  have passed :
      (sheet.rivals operand.mode).findSome? (readMode? sheet (operand.tokens ++ rest)) = none := by
    rw [List.findSome?_eq_none_iff]
    intro rival member
    rcases follows with alone | comma
    · simp [alone] at member
    · rw [readMode?, Operand.tokens, matchItems?_eq_none names fills
        (modes.apart _ known rival member) comma]
      rfl
  have here := matchItems?_fill names fills ⟨none, none⟩ rest
  rw [foldl_operandParts modes fits numbered, ← Operand.tokens] at here
  simp only [matchOperand?, modes.compiled, order]
  change Except.ok (List.findSome? (readMode? sheet (operand.tokens ++ rest)) _) = _
  rw [List.findSome?_append, passed, Option.none_or, List.findSome?_cons, readMode?, here]
  rfl

include modes fits in
theorem toList_operandText : operand.text.toList = Token.textOf operand.tokens :=
  toList_render (modes.forms _ fits.1) _ _

include names modes fits numbered in
/-- An operand is shown as a row of tokens. -/
theorem row_operandTokens : Token.Row operand.tokens := by
  have fills := fills_operand modes fits numbered
  refine row_fill (modes.forms _ fits.1) ?_ ?_
  · intro member
    obtain ⟨number, same⟩ := fills.value member
    rw [same]
    exact isPlainWord_signedDecimal number
  · intro member
    obtain ⟨named, _, selectable, same⟩ := fills.register member
    rw [same]
    exact names.plain named selectable

include modes fits in
/-- An operand starts with a token that is no comma. -/
theorem operandTokens_starts : ∃ token ∈ operand.tokens.head?, token ≠ .comma := by
  obtain ⟨token, first, noComma⟩ := (modes.forms _ fits.1).starts
  refine ⟨_, ?_, fill_ne_comma noComma operand.valueText operand.registerName⟩
  rw [Operand.tokens, List.head?_map, Option.mem_def.mp first]
  rfl

end Operand

end Assembly

end ClassroomCpu
