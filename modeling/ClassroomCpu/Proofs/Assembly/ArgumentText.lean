import ClassroomCpu.Machine.Listing
import ClassroomCpu.Proofs.Assembly.OperandText
import ClassroomCpu.Proofs.Assembly.WrittenInstruction

/-!
# Reading back instructions

The text of an instruction is its mnemonic with its arguments behind it, with
or without commas between them.  On a legible machine it is read as the
instruction with the arguments that were shown.
-/

namespace ClassroomCpu

open Assembly

namespace Assembly.Argument

/-- The tokens of an argument as it is shown. -/
def tokens : Argument → List Token
  | register named => [.word named.name]
  | operand addressed => addressed.tokens
  | offset text => [.word text]
  | flags letters => if letters.isEmpty then [] else [.word letters]

/-- The text of an argument as it is shown. -/
def text : Argument → String
  | register named => named.name
  | operand addressed => addressed.text
  | offset text => text
  | flags letters => letters

/-- An argument whose values are written as numbers, and whose letters make up a word. -/
def IsNumbered : Argument → Prop
  | register _ => True
  | operand addressed => addressed.IsNumbered
  | offset text => ∃ number, text = Text.signedDecimal number
  | flags letters => letters = "" ∨ Token.isPlainWord letters.toList = true

/-- An argument that is read by itself whatever follows. -/
def EndsItself (sheet : Datasheet) : Argument → Prop
  | register _ | offset _ => True
  | operand addressed => sheet.rivals addressed.mode = []
  | flags letters => letters ≠ ""

end Assembly.Argument

/-- A machine whose instructions can be read as they are shown. -/
structure Datasheet.Legible (sheet : Datasheet) : Prop where
  names : sheet.LegibleNames
  modes : sheet.LegibleModes
  titles : ∀ instruction ∈ sheet.instructions,
    Token.isPlainWord instruction.title.toList = true ∧
      Directive.ofMnemonic? instruction.title = none ∧
        sheet.instructionNamed? instruction.title = some instruction

namespace Assembly

variable {sheet : Datasheet} (instruction : Instruction) {parameter : Parameter}
  {argument : Argument}

/-! ## Arguments -/

theorem parseArgument_operand {name : String} {tokens : List Token} (nonempty : tokens ≠ []) :
    parseArgument sheet instruction (.operand name) tokens =
      match matchOperand? sheet tokens with
      | .error fault => .error (.fault fault)
      | .ok none => reject (invalidTokens tokens)
      | .ok (some (operand, rest)) => .ok (.operand operand, rest) := by
  cases tokens with
  | nil => exact absurd rfl nonempty
  | cons token tokens => cases token <;> rfl

/-- An argument is read from its tokens. -/
theorem parseArgument_tokens (legible : sheet.Legible) (fits : Argument.Fits sheet parameter argument)
    (numbered : argument.IsNumbered) {rest : List Token}
    (follows : argument.EndsItself sheet ∨
      ∀ token ∈ rest.head?, sheet.hasCommas = true ∧ token = .comma) :
    parseArgument sheet instruction parameter (argument.tokens ++ rest) =
      .ok (argument, rest) := by
  cases parameter with
  | register =>
      cases argument with
      | register named =>
          have found := legible.names.found named fits
          simp [parseArgument, Argument.tokens, found]
      | _ => exact fits.elim
  | flags =>
      cases argument with
      | flags letters =>
          by_cases nothing : letters = ""
          · subst nothing
            have comma := follows.resolve_left (by simp [Argument.EndsItself])
            cases rest with
            | nil => rfl
            | cons token rest =>
                obtain ⟨_, rfl⟩ := comma token rfl
                rfl
          · simp [parseArgument, Argument.tokens, nothing]
      | _ => exact fits.elim
  | offset =>
      cases argument with
      | offset text => rfl
      | _ => exact fits.elim
  | operand name =>
      cases argument with
      | operand operand =>
          obtain ⟨token, first, _⟩ := operandTokens_starts legible.modes fits
          have nonempty : operand.tokens ++ rest ≠ [] := by
            intro nothing
            rw [(List.append_eq_nil_iff.mp nothing).1] at first
            simp at first
          have found : matchOperand? sheet (operand.tokens ++ rest) = .ok (some (operand, rest)) :=
            matchOperand?_tokens legible.names legible.modes fits numbered follows
          simp only [Argument.tokens, parseArgument_operand instruction nonempty, found]
      | _ => exact fits.elim

/-- The tokens between two arguments. -/
def between (sheet : Datasheet) : List Token :=
  if sheet.hasCommas then [.comma] else []

/-- The argument is there to be seen. -/
def Argument.IsVisible (argument : Argument) : Prop :=
  ∃ token ∈ argument.tokens.head?, token ≠ .comma

theorem skipComma_between {tokens : List Token}
    (starts : ∀ token ∈ tokens.head?, token ≠ .comma) :
    skipComma (between sheet ++ tokens) = tokens := by
  unfold between
  split
  · rfl
  · cases tokens with
      | nil => rfl
      | cons token tokens =>
          cases token with
          | comma => exact absurd rfl (starts .comma rfl)
          | _ => rfl

/-- The tokens of arguments that are not the first ones. -/
def furtherTokens (sheet : Datasheet) (arguments : List Argument) : List Token :=
  arguments.flatMap fun argument => between sheet ++ argument.tokens

/-- The tokens of all arguments. -/
def joinedTokens (sheet : Datasheet) : List Argument → List Token
  | [] => []
  | argument :: others => argument.tokens ++ furtherTokens sheet others

theorem follows_furtherTokens {others : List Argument}
    (ends : sheet.hasCommas = true ∨ ∀ other ∈ others, argument.EndsItself sheet) :
    argument.EndsItself sheet ∨
      ∀ token ∈ (furtherTokens sheet others).head?,
        sheet.hasCommas = true ∧ token = .comma := by
  cases others with
  | nil => exact .inr (by simp [furtherTokens])
  | cons other others =>
      rcases ends with commas | alone
      · exact .inr (by simp [furtherTokens, between, commas])
      · exact .inl (alone other (by simp))

section Fits

variable (legible : sheet.Legible) {parameters : List Parameter} {arguments : List Argument}
  (fits : List.Forall₂ (Argument.Fits sheet) parameters arguments)
  (numbered : ∀ argument ∈ arguments, argument.IsNumbered)
  (ends : sheet.hasCommas = true ∨ arguments.Pairwise fun argument _ => argument.EndsItself sheet)
include legible fits numbered

include ends in
theorem parseFurther_tokens (visible : ∀ argument ∈ arguments, argument.IsVisible) :
    parseFurther sheet instruction parameters (furtherTokens sheet arguments) =
      .ok arguments := by
  induction fits with
  | nil => rfl
  | @cons parameter argument parameters others fit _ induction =>
      have further := induction (fun other member => numbered other (by simp [member]))
        (ends.imp_right fun apart => (List.pairwise_cons.mp apart).2)
        (fun other member => visible other (by simp [member]))
      obtain ⟨token, first, noComma⟩ := visible argument (by simp)
      have skipped : skipComma (furtherTokens sheet (argument :: others)) =
          argument.tokens ++ furtherTokens sheet others := by
        rw [furtherTokens, List.flatMap_cons, List.append_assoc, ← furtherTokens]
        apply skipComma_between
        intro other here
        rw [List.head?_append, Option.mem_def.mp first, Option.some_or] at here
        obtain rfl := Option.some.inj here
        exact noComma
      have parsed := parseArgument_tokens instruction legible fit
        (numbered argument (by simp)) (follows_furtherTokens
          (ends.imp_right fun apart other member => (List.pairwise_cons.mp apart).1 other member))
      rw [← skipped] at parsed
      rw [parseFurther]
      exact Outcome.bind_eq_ok.mpr ⟨_, parsed, Outcome.bind_eq_ok.mpr ⟨_, further, rfl⟩⟩

include ends in
/-- Arguments are read from their tokens. -/
theorem parseArguments_tokens (parametersOf : instruction.parameters = parameters)
    (visible : arguments.length ≤ 1 ∨ ∀ argument ∈ arguments, argument.IsVisible) :
    parseArguments sheet instruction (joinedTokens sheet arguments) = .ok arguments := by
  unfold parseArguments
  rw [parametersOf]
  cases fits with
  | nil => rfl
  | @cons parameter argument parameters others fit fitsFurther =>
      have apart := ends.imp_right fun apart => List.pairwise_cons.mp apart
      have parsed := parseArgument_tokens instruction legible fit
        (numbered argument (by simp)) (follows_furtherTokens
          (apart.imp_right fun both other member => both.1 other member))
      have shown : ∀ other ∈ others, other.IsVisible := by
        rcases visible with single | all
        · intro other member
          simp_all
        · exact fun other member => all other (by simp [member])
      have further := parseFurther_tokens instruction legible fitsFurther
        (fun other member => numbered other (by simp [member]))
        (apart.imp_right fun both => both.2) shown
      exact Outcome.bind_eq_ok.mpr ⟨_, parsed, Outcome.bind_eq_ok.mpr ⟨_, further, rfl⟩⟩

end Fits

/-! ## Texts -/

section Text

variable (legible : sheet.Legible) (fits : Argument.Fits sheet parameter argument)
  (numbered : argument.IsNumbered)
include legible fits numbered

theorem toList_argumentText : argument.text.toList = Token.textOf argument.tokens := by
  cases argument with
  | register named => simp [Argument.text, Argument.tokens, Token.textOf, Token.text]
  | offset text => simp [Argument.text, Argument.tokens, Token.textOf, Token.text]
  | flags letters =>
      by_cases nothing : letters = ""
      · simp [Argument.text, Argument.tokens, Token.textOf, nothing]
      · simp [Argument.text, Argument.tokens, Token.textOf, Token.text, nothing]
  | operand operand =>
      cases parameter with
      | operand name => exact toList_operandText legible.modes fits
      | _ => exact fits.elim

theorem row_argumentTokens : Token.Row argument.tokens := by
  cases argument with
  | register named =>
      cases parameter with
      | register => exact Token.row_word (legible.names.plain named fits)
      | _ => exact fits.elim
  | offset text =>
      obtain ⟨number, rfl⟩ := numbered
      exact Token.row_word (isPlainWord_signedDecimal number)
  | flags letters =>
      rcases numbered with rfl | plain
      · exact Token.row_nil
      · simp only [Argument.tokens]
        split
        · exact Token.row_nil
        · exact Token.row_word plain
  | operand operand =>
      cases parameter with
      | operand name => exact row_operandTokens legible.names legible.modes fits numbered
      | _ => exact fits.elim

theorem readsAs_argument : Token.ReadsAs argument.text.toList argument.tokens := by
  rw [toList_argumentText legible fits numbered]
  exact Token.readsAs_textOf (row_argumentTokens legible fits numbered)

omit numbered in
/-- Only the letters of condition codes may be missing. -/
theorem isVisible_of_fits (noLetters : argument.letters? = none) : argument.IsVisible := by
  cases argument with
  | register named => exact ⟨.word named.name, rfl, by simp⟩
  | offset text => exact ⟨.word text, rfl, by simp⟩
  | flags letters => simp [Argument.letters?] at noLetters
  | operand operand =>
      cases parameter with
      | operand name => exact operandTokens_starts legible.modes fits
      | _ => exact fits.elim

/-- An argument that is there to be seen is shown by some characters. -/
theorem text_ne_empty (visible : argument.IsVisible) : argument.text ≠ "" := by
  obtain ⟨token, first, _⟩ := visible
  obtain ⟨tokens, same⟩ := List.head?_eq_some_iff.mp first
  have plain := (row_argumentTokens legible fits numbered).plain token (by simp [same])
  obtain ⟨c, text, shown, _⟩ := Token.exists_text_eq_cons plain
  intro nothing
  have characters := toList_argumentText legible fits numbered
  rw [nothing, same, Token.textOf, List.flatMap_cons, shown] at characters
  simp at characters

end Text

/-! ## Instructions -/

/-- What stands between two arguments. -/
def separator (sheet : Datasheet) : String :=
  if sheet.hasCommas then ", " else " "

section Instruction

variable {instruction : Instruction} (legible : sheet.Legible) {arguments : List Argument}

/-- A text behind a separator is read by itself. -/
theorem readsAs_separator (sheet : Datasheet) {first second : List Char} {before behind : List Token}
    (reads : Token.ReadsAs first before) (further : Token.ReadsAs second behind) :
    Token.ReadsAs (first ++ ((separator sheet).toList ++ second))
      (before ++ (between sheet ++ behind)) := by
  unfold separator between
  split
  · exact reads.append_comma further
  · exact reads.append_space further

theorem readsAs_intercalate (sheet : Datasheet)
    (reads : ∀ argument ∈ arguments, Token.ReadsAs argument.text.toList argument.tokens)
    (nonempty : arguments ≠ []) :
    Token.ReadsAs ((separator sheet).intercalate (arguments.map (·.text))).toList
      (joinedTokens sheet arguments) := by
  induction arguments with
  | nil => exact absurd rfl nonempty
  | cons argument others induction =>
      cases others with
      | nil =>
          simpa [joinedTokens, furtherTokens] using reads argument (by simp)
      | cons other others =>
          have further := induction (fun another member => reads another (by simp [member]))
            (by simp)
          have both := readsAs_separator sheet (reads argument (by simp)) further
          simpa [joinedTokens, furtherTokens] using both

/-- Arguments that are there to be seen stand behind the title and a space. -/
theorem joinArguments_of_nonempty {title separator first : String} {others : List String}
    (nonempty : ∀ shown ∈ first :: others, shown ≠ "") :
    Machine.joinArguments title separator (first :: others) =
      title ++ " " ++ separator.intercalate (first :: others) := by
  have kept : (first :: others).filter (fun shown => !shown.isEmpty) = first :: others := by
    rw [List.filter_eq_self]
    intro shown member
    simpa using nonempty shown member
  rw [Machine.joinArguments, kept]

theorem exists_parameter {parameters : List Parameter}
    (fits : List.Forall₂ (Argument.Fits sheet) parameters arguments) :
    ∀ argument ∈ arguments, ∃ parameter, Argument.Fits sheet parameter argument := by
  induction fits with
  | nil => simp
  | @cons parameter argument _ _ fit _ induction =>
      exact List.forall_mem_cons.mpr ⟨⟨parameter, fit⟩, induction⟩

include legible in
/-- The text of an instruction is read as its mnemonic with the tokens of its arguments. -/
theorem readsAs_joinArguments (known : instruction ∈ sheet.instructions)
    (fits : List.Forall₂ (Argument.Fits sheet) instruction.parameters arguments)
    (numbered : ∀ argument ∈ arguments, argument.IsNumbered)
    (visible : arguments.length ≤ 1 ∨ ∀ argument ∈ arguments, argument.IsVisible) :
    Token.ReadsAs
      (Machine.joinArguments instruction.title (separator sheet)
        (arguments.map (·.text))).toList
      (.word instruction.title :: joinedTokens sheet arguments) := by
  have title : Token.ReadsAs instruction.title.toList [.word instruction.title] := by
    have row := Token.readsAs_textOf (Token.row_word (legible.titles instruction known).1)
    simpa [Token.textOf, Token.text] using row
  have reads : ∀ argument ∈ arguments,
      Token.ReadsAs argument.text.toList argument.tokens := by
    intro argument member
    obtain ⟨parameter, fit⟩ := exists_parameter fits argument member
    exact readsAs_argument legible fit (numbered argument member)
  have shown : ∀ first others, arguments = first :: others →
      (∀ argument ∈ arguments, argument.text ≠ "") →
        Token.ReadsAs
          (Machine.joinArguments instruction.title (separator sheet)
            (arguments.map (·.text))).toList
          (.word instruction.title :: joinedTokens sheet arguments) := by
    rintro first others rfl nonempty
    have further := readsAs_intercalate sheet reads (by simp)
    rw [List.map_cons, joinArguments_of_nonempty (by simpa using nonempty), ← List.map_cons]
    simpa using title.append_space further
  have seen : ∀ argument ∈ arguments, argument.IsVisible → argument.text ≠ "" := by
    intro argument member isVisible
    obtain ⟨parameter, fit⟩ := exists_parameter fits argument member
    exact text_ne_empty legible fit (numbered argument member) isVisible
  cases same : arguments with
  | nil => simpa [Machine.joinArguments, joinedTokens] using title
  | cons first others =>
      rw [← same]
      rcases visible with single | all
      · have alone : others = [] := by simpa [same] using single
        by_cases nothing : first.text = ""
        · -- letters of no condition code leave the title alone
          have empty := (reads first (by simp [same])).lex
          rw [nothing, String.toList_empty, Token.lex_nil] at empty
          have noTokens := Except.ok.inj empty
          subst alone
          simpa [same, Machine.joinArguments, joinedTokens, furtherTokens, nothing,
            ← noTokens] using title
        · exact shown first others same (by simp [same, alone, nothing])
      · exact shown first others same fun argument member => seen argument member (all argument member)

include legible in
/-- An instruction is read as it is shown. -/
theorem writtenInstruction?_joinArguments {arch : Architecture} (sheetOf : arch.toDatasheet = sheet)
    (known : instruction ∈ sheet.instructions)
    (fits : List.Forall₂ (Argument.Fits sheet) instruction.parameters arguments)
    (numbered : ∀ argument ∈ arguments, argument.IsNumbered)
    (visible : arguments.length ≤ 1 ∨ ∀ argument ∈ arguments, argument.IsVisible)
    (ends : sheet.hasCommas = true ∨
      arguments.Pairwise fun argument _ => argument.EndsItself sheet) :
    writtenInstruction? arch
        (Machine.joinArguments instruction.title (separator sheet) (arguments.map (·.text))) =
      some (instruction, arguments) := by
  subst sheetOf
  obtain ⟨plain, noDirective, named⟩ := legible.titles instruction known
  exact writtenInstruction?_eq_some.mpr ⟨_, _,
    (readsAs_joinArguments legible known fits numbered visible).lex, noDirective, named,
    parseArguments_tokens instruction legible fits numbered ends rfl visible⟩

end Instruction

end Assembly

end ClassroomCpu
