import ClassroomCpu.Assembly.LabelTable
import ClassroomCpu.Assembly.Token.Lexer
import Mathlib.Data.List.Chain

/-!
# Reading back the texts of tokens

A text that is made of the texts of tokens is cut into these tokens again, if
each of them ends where the next one starts.
-/

namespace ClassroomCpu.Assembly.Token

/-! ## Cutting at the front -/

theorem lex_eq (text : List Char) :
    lex text =
      match text.dropWhile isSpace with
      | [] => .ok []
      | c :: rest =>
          match split? (c :: rest) with
          | none => .error (c :: rest)
          | some (token, after) => (lex after).map (token :: ·) := by
  rw [lex.eq_def]
  split
  · rename_i skipped
    simp only [skipped]
  · rename_i c rest skipped
    simp only [skipped]
    split
    · rename_i stuck
      simp only [stuck]
    · rename_i token after found
      simp only [found]
      cases lex after <;> rfl

@[simp] theorem lex_nil : lex [] = .ok [] := by
  simp [lex_eq]

theorem lex_space {c : Char} (space : isSpace c = true) (text : List Char) :
    lex (c :: text) = lex text := by
  rw [lex_eq, lex_eq text, List.dropWhile_cons_of_pos space]

/-- The first token is cut off, and the rest is cut further. -/
theorem lex_of_split? {c : Char} {text after : List Char} {token : Token}
    (noSpace : isSpace c = false) (found : split? (c :: text) = some (token, after)) :
    lex (c :: text) = (lex after).map (token :: ·) := by
  rw [lex_eq, List.dropWhile_cons_of_neg (by simp [noSpace])]
  simp only [found]

/-! ## Words -/

/-- Whether a text is a name, with or without a minus sign in front. -/
def isPlainWord : List Char → Bool
  | '-' :: name => !name.isEmpty && name.all isWordChar
  | name => !name.isEmpty && name.all isWordChar

/-- Whether a word ends in front of a character. -/
def endsWord (c : Char) : Bool :=
  !isWordChar c && !isSign c

theorem takeWhile_append_of_ends {name rest : List Char}
    (characters : ∀ c ∈ name, isWordChar c = true)
    (ends : ∀ c ∈ rest.head?, isWordChar c = false) :
    (name ++ rest).takeWhile isWordChar = name ∧ (name ++ rest).dropWhile isWordChar = rest := by
  rw [List.takeWhile_append_of_pos characters, List.dropWhile_append_of_pos characters]
  cases rest with
  | nil => simp
  | cons c rest => simp [ends c rfl]

theorem splitOffset_of_ends {rest : List Char} (ends : ∀ c ∈ rest.head?, isSign c = false) :
    splitOffset rest = ([], rest) := by
  cases rest with
  | nil => rfl
  | cons c rest =>
      have noSign : (c == '+' || c == '-') = false := ends c rfl
      simp [splitOffset, noSign]

theorem splitName?_append {name rest : List Char} (nonempty : name ≠ [])
    (characters : ∀ c ∈ name, isWordChar c = true)
    (ends : ∀ c ∈ rest.head?, endsWord c = true) :
    splitName? (name ++ rest) = some (name, rest) := by
  have noWordChar : ∀ c ∈ rest.head?, isWordChar c = false := by
    intro c first
    simpa [endsWord] using (Bool.and_eq_true_iff.mp (ends c first)).1
  have noSign : ∀ c ∈ rest.head?, isSign c = false := by
    intro c first
    simpa [endsWord] using (Bool.and_eq_true_iff.mp (ends c first)).2
  obtain ⟨taken, dropped⟩ := takeWhile_append_of_ends characters noWordChar
  simp [splitName?, taken, dropped, splitOffset_of_ends noSign, nonempty]

theorem splitWord?_append {text rest : List Char} (plain : isPlainWord text = true)
    (ends : ∀ c ∈ rest.head?, endsWord c = true) :
    splitWord? (text ++ rest) = some (text, rest) := by
  unfold isPlainWord at plain
  split at plain
  · rename_i name
    simp only [Bool.and_eq_true, Bool.not_eq_true', List.all_eq_true] at plain
    have nonempty : name ≠ [] := by simpa using plain.1
    simp [splitWord?, splitName?_append nonempty plain.2 ends]
  · rename_i noSign
    simp only [Bool.and_eq_true, Bool.not_eq_true', List.all_eq_true] at plain
    have nonempty : text ≠ [] := by simpa using plain.1
    obtain ⟨c, name, rfl⟩ := List.exists_cons_of_ne_nil nonempty
    have other : c ≠ '-' := by
      rintro rfl
      exact noSign name rfl
    rw [List.cons_append, splitWord?.eq_2 _ (by simp [other]), ← List.cons_append]
    exact splitName?_append nonempty plain.2 ends

/-! ## Tokens -/

/-- Whether a token is a single character, or a word without an offset. -/
def isPlain : Token → Bool
  | word text => isPlainWord text.toList
  | quoted _ => false
  | _ => true

/-- Whether a token ends in front of a character. -/
def endsBefore : Token → Char → Bool
  | word _, c => endsWord c
  | minus, c => !isWordChar c
  | _, _ => true

theorem splitName?_eq_none {text : List Char} (noName : ∀ c ∈ text.head?, isWordChar c = false) :
    splitName? text = none := by
  cases text with
  | nil => rfl
  | cons c text => simp [splitName?, noName c rfl]

theorem split?_of_char {c : Char} {rest : List Char} {token : Token}
    (symbol : isWordChar c = false ∧ c ≠ '\'') (single : ofChar? c = some token)
    (ends : c = '-' → ∀ next ∈ rest.head?, isWordChar next = false) :
    split? (c :: rest) = some (token, rest) := by
  have noWord : splitWord? (c :: rest) = none := by
    by_cases sign : c = '-'
    · subst sign
      simp [splitWord?, splitName?_eq_none (ends rfl)]
    · rw [splitWord?.eq_2 _ (by simp [sign])]
      exact splitName?_eq_none (by simpa using symbol.1)
  simp [split?, noWord, symbol.2, single]

theorem split?_text {token : Token} (plain : token.isPlain = true) {rest : List Char}
    (ends : ∀ c ∈ rest.head?, token.endsBefore c = true) :
    split? (token.text.toList ++ rest) = some (token, rest) := by
  cases token with
  | word text =>
      have plainText : isPlainWord text.toList = true := plain
      have cut := splitWord?_append plainText ends
      cases shown : text.toList with
      | nil => simp [isPlain, isPlainWord, shown] at plain
      | cons c name =>
          rw [shown, List.cons_append] at cut
          have same : String.ofList (c :: name) = text := by rw [← shown, String.ofList_toList]
          simp [Token.text, shown, split?, cut, same]
  | quoted text => simp [isPlain] at plain
  | minus => exact split?_of_char (by decide) rfl fun _ => by simpa [endsBefore] using ends
  | _ => exact split?_of_char (by decide) rfl fun sign => absurd sign (by decide)

theorem not_isSpace_of_isPlainWord {c : Char} {text : List Char}
    (plain : isPlainWord (c :: text) = true) : isSpace c = false := by
  have either : c = '-' ∨ isWordChar c = true := by
    unfold isPlainWord at plain
    split at plain
    · rename_i shown
      exact .inl (List.cons.inj shown).1
    · simp only [List.all_cons, Bool.and_eq_true] at plain
      exact .inr plain.2.1
  cases space : isSpace c with
  | false => rfl
  | true =>
      simp only [isSpace, Bool.or_eq_true, beq_iff_eq] at space
      rcases space with ((rfl | rfl) | rfl) | rfl <;> exact absurd either (by decide)

/-- The text of a plain token starts with a character that is no space. -/
theorem exists_text_eq_cons {token : Token} (plain : token.isPlain = true) :
    ∃ c text, token.text.toList = c :: text ∧ isSpace c = false := by
  cases token with
  | word text =>
      cases shown : text.toList with
      | nil => simp [isPlain, isPlainWord, shown] at plain
      | cons c name =>
          have plainText : isPlainWord text.toList = true := plain
          exact ⟨c, name, shown, not_isSpace_of_isPlainWord (shown ▸ plainText)⟩
  | quoted text => simp [isPlain] at plain
  | _ => exact ⟨_, _, rfl, by decide⟩

/-- A plain token is cut off in front of a character where it ends. -/
theorem lex_text_append {token : Token} (plain : token.isPlain = true) {rest : List Char}
    (ends : ∀ c ∈ rest.head?, token.endsBefore c = true) :
    lex (token.text.toList ++ rest) = (lex rest).map (token :: ·) := by
  have cut := split?_text plain ends
  obtain ⟨c, text, shown, noSpace⟩ := exists_text_eq_cons plain
  rw [shown, List.cons_append] at cut ⊢
  exact lex_of_split? noSpace cut

/-! ## Rows of tokens -/

/-- Whether a token ends in front of another one. -/
def endsBeforeToken : Token → Token → Bool
  | word _, word _ | word _, plus | word _, minus | minus, word _ => false
  | _, _ => true

/-- The tokens are plain, and each one ends in front of the next one. -/
structure Row (tokens : List Token) : Prop where
  plain : ∀ token ∈ tokens, token.isPlain = true
  chain : tokens.IsChain fun token next => token.endsBeforeToken next = true

theorem row_nil : Row [] :=
  ⟨by simp, .nil⟩

theorem row_word {text : String} (plain : isPlainWord text.toList = true) : Row [word text] :=
  ⟨by simpa [isPlain] using plain, .singleton _⟩

/-- The text of some tokens, with nothing in between. -/
def textOf (tokens : List Token) : List Char :=
  tokens.flatMap fun token => token.text.toList

/-- The text is read as the tokens wherever a space, a comma or nothing follows. -/
def ReadsAs (text : List Char) (tokens : List Token) : Prop :=
  ∀ rest : List Char, (∀ c ∈ rest.head?, c = ' ' ∨ c = ',') →
    lex (text ++ rest) = (lex rest).map (tokens ++ ·)

theorem endsBefore_of_endsBeforeToken {token next : Token} (plain : next.isPlain = true)
    (ends : token.endsBeforeToken next = true) {c : Char} {text : List Char}
    (shown : next.text.toList = c :: text) : token.endsBefore c = true := by
  cases token with
  | word name =>
      cases next with
      | word _ | plus | minus => simp [endsBeforeToken] at ends
      | quoted _ => simp [isPlain] at plain
      | _ => obtain ⟨rfl, _⟩ := List.cons.inj shown; rfl
  | minus =>
      cases next with
      | word _ => simp [endsBeforeToken] at ends
      | quoted _ => simp [isPlain] at plain
      | _ => obtain ⟨rfl, _⟩ := List.cons.inj shown; rfl
  | _ => rfl

/-- Every token ends in front of a space and of a comma. -/
theorem endsBefore_of_break (token : Token) {c : Char} (follows : c = ' ' ∨ c = ',') :
    token.endsBefore c = true := by
  rcases follows with rfl | rfl <;> cases token <;> rfl

/-- A row of tokens is read back. -/
theorem readsAs_textOf {tokens : List Token} (row : Row tokens) :
    ReadsAs (textOf tokens) tokens := by
  intro rest follows
  induction tokens with
  | nil => cases read : lex rest <;> simp [textOf, read, Except.map]
  | cons token tokens induction =>
      obtain ⟨plain, chain⟩ := row
      have further := induction ⟨fun other member => plain other (by simp [member]),
        (List.isChain_cons.mp chain).2⟩
      have ends : ∀ c ∈ (textOf tokens ++ rest).head?, token.endsBefore c = true := by
        cases tokens with
        | nil => exact fun c first => endsBefore_of_break token (follows c first)
        | cons next tokens =>
            obtain ⟨c, text, shown, _⟩ := exists_text_eq_cons (plain next (by simp))
            have apart := (List.isChain_cons.mp chain).1 next rfl
            simpa [textOf, shown] using
              endsBefore_of_endsBeforeToken (plain next (by simp)) apart shown
      have here := lex_text_append (plain token (by simp)) ends
      rw [further] at here
      rw [textOf, List.flatMap_cons, List.append_assoc, ← textOf, here]
      cases lex rest <;> rfl

/-! ## Texts behind each other -/

theorem ReadsAs.lex {text : List Char} {tokens : List Token} (reads : ReadsAs text tokens) :
    lex text = .ok tokens := by
  have whole := reads [] (by simp)
  simpa [Except.map] using whole

/-- A text behind a space is read by itself. -/
theorem ReadsAs.append_space {first second : List Char} {before behind : List Token}
    (reads : ReadsAs first before) (further : ReadsAs second behind) :
    ReadsAs (first ++ ' ' :: second) (before ++ behind) := by
  intro rest follows
  rw [List.append_assoc, reads _ (by simp), List.cons_append, lex_space rfl,
    further rest follows]
  cases Token.lex rest <;> simp [Except.map]

/-- A text behind a comma and a space is read by itself. -/
theorem ReadsAs.append_comma {first second : List Char} {before behind : List Token}
    (reads : ReadsAs first before) (further : ReadsAs second behind) :
    ReadsAs (first ++ ',' :: ' ' :: second) (before ++ comma :: behind) := by
  intro rest follows
  have cut : Token.lex (',' :: ' ' :: (second ++ rest)) =
      (Token.lex (' ' :: (second ++ rest))).map (comma :: ·) :=
    lex_text_append (show comma.isPlain = true from rfl) (by simp [endsBefore])
  rw [List.append_assoc, reads _ (by simp), List.cons_append, List.cons_append, cut,
    lex_space rfl, further rest follows]
  cases Token.lex rest <;> simp [Except.map]

end ClassroomCpu.Assembly.Token
