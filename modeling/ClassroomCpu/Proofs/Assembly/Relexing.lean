import ClassroomCpu.Proofs.Assembly.TokenBoundary

/-!
# Texts and their tokens

Cutting a text into tokens loses nothing but blanks: the text shows its tokens
one behind the other, and every text that shows them is cut into them.  A token
ends in front of a blank wherever else it ends, so that the tokens with a space
between them are cut into themselves, and it ends in front of every part of a
text in front of which it ends, so that only what no token starts is refused.
-/

namespace ClassroomCpu.Assembly.Token

/-! ## Other texts in front of which a token ends -/

/-- Nothing that ends in front of the first text goes on into the second one. -/
structure StopsAlike (behind other : List Char) : Prop where
  name : EndsName behind → EndsName other
  offset : NoOffset behind → NoOffset other
  quoteCharacter : endsLoneQuote behind.head? = true → endsLoneQuote other.head? = true
  quote : behind.head? ≠ some '\'' → other.head? ≠ some '\''

section Stops

variable {behind other : List Char} (stops : StopsAlike behind other)
include stops

theorem NameBefore.of_stops {name : List Char} (before : NameBefore behind name) :
    NameBefore other name := by
  cases before with
  | plain isName ends noOffset => exact .plain isName (stops.name ends) (stops.offset noOffset)
  | offset isName isSigned isOther ends =>
      exact .offset isName isSigned isOther (stops.name ends)

theorem WordBefore.of_stops {word : List Char} (before : WordBefore behind word) :
    WordBefore other word := by
  cases before with
  | unsigned named => exact .unsigned (named.of_stops stops)
  | signed named => exact .signed (named.of_stops stops)

theorem QuotedBefore.of_stops {text : List Char} (before : QuotedBefore behind text) :
    QuotedBefore other text := by
  cases before with
  | quoteCharacter ends => exact .quoteCharacter (stops.quoteCharacter ends)
  | closed closed notLone unquoted => exact .closed closed notLone (stops.quote unquoted)

/-- A token ends wherever what comes stops it alike. -/
theorem CutBefore.of_stops {token : Token} (cut : CutBefore behind token) :
    CutBefore other token := by
  cases cut with
  | word before => exact .word (before.of_stops stops)
  | quoted before => exact .quoted (before.of_stops stops)
  | minus ends => exact .minus (stops.name ends)
  | symbol known noMinus => exact .symbol known noMinus

end Stops

theorem EndsName.of_append {first second : List Char} (ends : EndsName (first ++ second)) :
    EndsName first := by
  intro c member
  apply ends
  obtain ⟨rest, rfl⟩ := List.head?_eq_some_iff.mp member
  rfl

/-- The start of a text stops what the text stops. -/
theorem stopsAlike_append (first second : List Char) : StopsAlike (first ++ second) first := by
  constructor
  case name => exact EndsName.of_append
  case offset =>
    rintro noOffset sign rest rfl isSigned
    exact (noOffset sign (rest ++ second) rfl isSigned).of_append
  case quoteCharacter => cases first <;> simp [endsLoneQuote]
  case quote => cases first <;> simp

/-- Spaces, tabs, carriage returns and form feeds are the blanks. -/
theorem isSpace_iff {c : Char} :
    isSpace c = true ↔ c = ' ' ∨ c = '\t' ∨ c = '\r' ∨ c = '\x0c' := by
  simp [isSpace, or_assoc]

/-- A blank and the end of a text stop everything. -/
theorem stopsAlike_of_blank {other : List Char} (blank : ∀ c ∈ other.head?, isSpace c = true)
    (behind : List Char) : StopsAlike behind other := by
  have ends : EndsName other := by
    intro c first
    rcases isSpace_iff.mp (blank c first) with rfl | rfl | rfl | rfl <;> decide
  have noOffset : NoOffset other := by
    rintro sign rest rfl isSigned
    have space := blank sign rfl
    simp only [isSign, Bool.or_eq_true, beq_iff_eq] at isSigned
    rcases isSigned with rfl | rfl <;> exact absurd space (by decide)
  have lone : endsLoneQuote other.head? = true := by
    cases other with
    | nil => rfl
    | cons c other =>
        rw [List.head?_cons]
        rcases isSpace_iff.mp (blank c rfl) with rfl | rfl | rfl | rfl <;> decide
  have unquoted : other.head? ≠ some '\'' := by
    intro quote
    exact absurd (blank _ quote) (by decide)
  exact ⟨fun _ => ends, fun _ => noOffset, fun _ => lone, fun _ => unquoted⟩

/-! ## Texts that show tokens -/

/--
The text consists of the texts of the tokens in their order, each of which ends
there, with nothing but blanks between, before and behind them.
-/
inductive Shows : List Char → List Token → Prop where
  | blank {text : List Char} : (∀ c ∈ text, isSpace c = true) → Shows text []
  | token {blanks rest : List Char} {token : Token} {tokens : List Token} :
      (∀ c ∈ blanks, isSpace c = true) → CutBefore rest token → Shows rest tokens →
        Shows (blanks ++ (token.text.toList ++ rest)) (token :: tokens)

theorem takeWhile_isSpace (text : List Char) :
    ∀ c ∈ text.takeWhile isSpace, isSpace c = true :=
  fun _ member => List.mem_takeWhile_imp member

theorem Shows.space {text : List Char} {tokens : List Token} (shows : Shows text tokens) :
    Shows (' ' :: text) tokens := by
  have extended {blanks : List Char} (blank : ∀ c ∈ blanks, isSpace c = true) :
      ∀ c ∈ ' ' :: blanks, isSpace c = true := by
    intro c member
    rcases List.mem_cons.mp member with rfl | later
    · decide
    · exact blank c later
  cases shows with
  | blank blank => exact .blank (extended blank)
  | token blank cut further => exact .token (extended blank) cut further

theorem shows_of_lex {text : List Char} {tokens : List Token} (lexed : lex text = .ok tokens) :
    Shows text tokens := by
  fun_induction lex text generalizing tokens with
  | case1 text skipped =>
      obtain rfl := Except.ok.inj lexed
      apply Shows.blank
      rw [← List.takeWhile_append_dropWhile (p := isSpace) (l := text), skipped, List.append_nil]
      exact takeWhile_isSpace text
  | case2 => contradiction
  | case3 text c rest skipped token after found _ others further induction =>
      obtain rfl := Except.ok.inj lexed
      obtain ⟨joined, cut⟩ := split?_eq_some_iff.mp found
      rw [← List.takeWhile_append_dropWhile (p := isSpace) (l := text), skipped, joined]
      exact .token (takeWhile_isSpace text) cut (induction further)
  | case4 => contradiction

theorem lex_blanks {blanks : List Char} (blank : ∀ c ∈ blanks, isSpace c = true)
    (text : List Char) : lex (blanks ++ text) = lex text := by
  induction blanks with
  | nil => rfl
  | cons c blanks induction =>
      rw [List.cons_append, lex_space (blank c (by simp))]
      exact induction fun other member => blank other (by simp [member])

theorem CutBefore.exists_cons {behind : List Char} {token : Token} (cut : CutBefore behind token) :
    ∃ c text, token.text.toList = c :: text ∧ isSpace c = false := by
  cases cut with
  | word before =>
      obtain ⟨c, text, shown, either⟩ := before.exists_cons
      refine ⟨c, text, shown, ?_⟩
      cases space : isSpace c with
      | false => rfl
      | true =>
          rcases isSpace_iff.mp space with rfl | rfl | rfl | rfl <;>
            exact absurd either (by decide)
  | quoted before =>
      obtain ⟨inner, shown⟩ := before.exists_cons
      exact ⟨_, inner, shown, by decide⟩
  | minus _ => exact ⟨_, _, rfl, by decide⟩
  | symbol known _ => exact ⟨_, [], text_of_ofChar? known, (symbol_of_ofChar? known).2.2⟩

/-- The first token is cut off in front of every text in front of which it ends. -/
theorem lex_of_cutBefore {behind : List Char} {token : Token} (cut : CutBefore behind token) :
    lex (token.text.toList ++ behind) = (lex behind).map (token :: ·) := by
  have found := split?_of_cutBefore cut
  obtain ⟨c, text, shown, noSpace⟩ := cut.exists_cons
  rw [shown, List.cons_append] at found ⊢
  exact lex_of_split? noSpace found

theorem lex_of_shows {text : List Char} {tokens : List Token} (shows : Shows text tokens) :
    lex text = .ok tokens := by
  induction shows with
  | blank blank =>
      have cut := lex_blanks blank []
      rwa [List.append_nil, lex_nil] at cut
  | token blank cut _ induction =>
      rw [lex_blanks blank, lex_of_cutBefore cut, induction]
      rfl

/-- A text is cut into tokens exactly if it shows them. -/
theorem lex_eq_ok_iff {text : List Char} {tokens : List Token} :
    lex text = .ok tokens ↔ Shows text tokens :=
  ⟨shows_of_lex, lex_of_shows⟩

/-! ## Tokens with spaces between them -/

/-- The texts of tokens, with a single space between any two of them. -/
def spaced (tokens : List Token) : List Char :=
  [' '].intercalate (tokens.map fun token => token.text.toList)

theorem spaced_cons_cons (token next : Token) (tokens : List Token) :
    spaced (token :: next :: tokens) =
      token.text.toList ++ ' ' :: spaced (next :: tokens) := by
  simp [spaced, List.intercalate]

/-- Tokens that some text shows are shown with a single space between them. -/
theorem Shows.spaced {text : List Char} {tokens : List Token} (shows : Shows text tokens) :
    Shows (Token.spaced tokens) tokens := by
  induction shows with
  | blank _ => exact .blank (by simp [Token.spaced, List.intercalate])
  | @token _ _ token tokens _ cut _ induction =>
      cases tokens with
      | nil =>
          have alone : Token.spaced [token] = [] ++ (token.text.toList ++ []) := by
            simp [Token.spaced, List.intercalate]
          rw [alone]
          exact .token (by simp) (cut.of_stops (stopsAlike_of_blank (by simp) _)) induction
      | cons next tokens =>
          rw [spaced_cons_cons, ← List.nil_append (token.text.toList ++ _)]
          exact .token (by simp) (cut.of_stops (stopsAlike_of_blank (by simp; decide) _))
            induction.space

/-! ## What is refused -/

/-- What is in front of the refused rest shows tokens, and no token starts the rest. -/
theorem shows_of_lex_eq_error {text rest : List Char} (refused : lex text = .error rest) :
    rest ≠ [] ∧ split? rest = none ∧
      ∃ before tokens, text = before ++ rest ∧ Shows before tokens := by
  fun_induction lex text generalizing rest with
  | case1 => contradiction
  | case2 text c rest skipped stuck =>
      obtain rfl := Except.error.inj refused
      refine ⟨by simp, stuck, text.takeWhile isSpace, [], ?_, .blank (takeWhile_isSpace text)⟩
      rw [← skipped, List.takeWhile_append_dropWhile]
  | case3 => contradiction
  | case4 text c further skipped token after found _ remaining later induction =>
      obtain rfl := Except.error.inj refused
      obtain ⟨nonempty, stuck, before, tokens, rfl, shows⟩ := induction later
      obtain ⟨joined, cut⟩ := split?_eq_some_iff.mp found
      refine ⟨nonempty, stuck, text.takeWhile isSpace ++ (token.text.toList ++ before),
        token :: tokens, ?_, .token (takeWhile_isSpace text)
          (cut.of_stops (stopsAlike_append before _)) shows⟩
      rw [List.append_assoc, List.append_assoc, ← joined, ← skipped,
        List.takeWhile_append_dropWhile]

/--
A text that is cut into tokens shows them, and the tokens with a single space
between them are cut into themselves.  A text that is refused is refused from
where no token starts on, and what is in front of that is cut into tokens.
-/
theorem lex_losesNothing (text : List Char) :
    match lex text with
    | .ok tokens => Shows text tokens ∧ lex (spaced tokens) = .ok tokens
    | .error rest =>
        rest ≠ [] ∧ split? rest = none ∧
          ∃ before, text = before ++ rest ∧ ∃ tokens, lex before = .ok tokens := by
  cases result : lex text with
  | ok tokens =>
      have shows := shows_of_lex result
      exact ⟨shows, lex_of_shows shows.spaced⟩
  | error rest =>
      obtain ⟨nonempty, stuck, before, tokens, joined, shows⟩ := shows_of_lex_eq_error result
      exact ⟨nonempty, stuck, before, joined, tokens, lex_of_shows shows⟩

end ClassroomCpu.Assembly.Token
