import ClassroomCpu.Proofs.Assembly.Relexing

/-!
# Writing texts between quotes

A text is written between quotes with every quote in it doubled.  Cut as a
token and read, it gives the text again, whatever follows that is no quote.
Only a text that starts with a quote, in front of a character where the quote
character ends, is not cut as a whole.
-/

namespace ClassroomCpu.Assembly.Token

/-- A text with every quote doubled. -/
def doubleQuotes : List Char → List Char
  | [] => []
  | c :: text => if c = '\'' then '\'' :: '\'' :: doubleQuotes text else c :: doubleQuotes text

/-- A text as it is written between quotes. -/
def quote (text : List Char) : List Char :=
  '\'' :: (doubleQuotes text ++ ['\''])

/-- Whether the text starts with a quote behind which the quote character ends. -/
def startsWithLoneQuote : List Char → Bool
  | '\'' :: c :: _ => endsLoneQuote (some c)
  | _ => false

/-! ## Reading -/

theorem collapseQuotes_doubleQuotes (text : List Char) :
    collapseQuotes (doubleQuotes text) = text := by
  induction text with
  | nil => rfl
  | cons c text induction =>
      by_cases isQuote : c = '\''
      · rw [doubleQuotes, if_pos isQuote, collapseQuotes, induction, isQuote]
      · rw [doubleQuotes, if_neg isQuote, collapseQuotes.eq_3 _ _ (by simp [isQuote]), induction]

theorem stripQuotes_quote (text : List Char) : stripQuotes (quote text) = doubleQuotes text := by
  simp [stripQuotes, quote]

/-- What a text between quotes says is the text. -/
theorem unquote_quote (text : List Char) : unquote (quote text) = text := by
  rw [unquote, stripQuotes_quote, collapseQuotes_doubleQuotes]

/-! ## Cutting -/

theorem quotedRest_doubleQuotes (text : List Char) :
    QuotedRest (doubleQuotes text ++ ['\'']) := by
  induction text with
  | nil => exact .close
  | cons c text induction =>
      by_cases isQuote : c = '\''
      · rw [doubleQuotes, if_pos isQuote]
        exact .doubled induction
      · rw [doubleQuotes, if_neg isQuote]
        exact .other isQuote induction

/-- Behind the opening quote no quote character stands. -/
theorem endsLoneQuote_of_doubleQuotes {text rest : List Char}
    (opens : startsWithLoneQuote text = false)
    (doubled : doubleQuotes text ++ ['\''] = '\'' :: '\'' :: rest) :
    endsLoneQuote rest.head? = false := by
  cases text with
  | nil => simp [doubleQuotes] at doubled
  | cons c text =>
      by_cases isQuote : c = '\''
      · rw [doubleQuotes, if_pos isQuote] at doubled
        have rest_eq : doubleQuotes text ++ ['\''] = rest :=
          (List.cons.inj (List.cons.inj doubled).2).2
        subst isQuote rest_eq
        cases text with
        | nil => decide
        | cons next text =>
            by_cases nextQuote : next = '\''
            · rw [doubleQuotes, if_pos nextQuote]
              rfl
            · rw [doubleQuotes, if_neg nextQuote]
              exact opens
      · rw [doubleQuotes, if_neg isQuote] at doubled
        exact absurd (List.cons.inj doubled).1 isQuote

theorem cutBefore_quote {text behind : List Char} (opens : startsWithLoneQuote text = false)
    (unquoted : behind.head? ≠ some '\'') :
    CutBefore behind (.quoted (String.ofList (quote text))) := by
  apply CutBefore.quoted
  rw [String.toList_ofList]
  apply QuotedBefore.closed (quotedRest_doubleQuotes text)
  · intro rest doubled
    exact endsLoneQuote_of_doubleQuotes opens doubled
  · exact unquoted

/-- Otherwise the quote character is cut off first. -/
theorem split?_quote_of_lone {text : List Char} (lone : startsWithLoneQuote text = true)
    (behind : List Char) :
    ∃ rest, split? (quote text ++ behind) = some (.quoted "'''", rest) := by
  unfold startsWithLoneQuote at lone
  split at lone
  · rename_i c further
    have noQuote : c ≠ '\'' := by
      rintro rfl
      exact absurd lone (by decide)
    have cut : CutBefore (doubleQuotes (c :: further) ++ ['\''] ++ behind) (.quoted "'''") := by
      apply CutBefore.quoted
      apply QuotedBefore.quoteCharacter
      rw [doubleQuotes, if_neg noQuote]
      exact lone
    exact ⟨_, split?_of_cutBefore cut⟩
  · contradiction

/--
A text between quotes is a single token, says the text, and is cut off first
whatever follows that is no quote.
-/
theorem quote_roundTrip {text : List Char} (opens : startsWithLoneQuote text = false) :
    lex (quote text) = .ok [.quoted (String.ofList (quote text))] ∧
      unquote (quote text) = text ∧
      ∀ behind : List Char, behind.head? ≠ some '\'' →
        split? (quote text ++ behind) = some (.quoted (String.ofList (quote text)), behind) := by
  have cut {behind : List Char} (unquoted : behind.head? ≠ some '\'') :=
    cutBefore_quote opens unquoted
  refine ⟨?_, unquote_quote text, fun behind unquoted => ?_⟩
  · have alone := lex_of_cutBefore (cut (show ([] : List Char).head? ≠ some '\'' by simp))
    simpa [Token.text, Except.map] using alone
  · simpa [Token.text] using split?_of_cutBefore (cut unquoted)

/-- A text of two quotes with a letter between them, in front of a comma. -/
theorem quote_roundTrip_quotes :
    startsWithLoneQuote "'a'".toList = false ∧ quote "'a'".toList = "'''a'''".toList ∧
      unquote "'''a'''".toList = "'a'".toList ∧
        split? "'''a''',1".toList = some (.quoted "'''a'''", ",1".toList) := by
  have opens : startsWithLoneQuote "'a'".toList = false := by decide
  obtain ⟨_, read, cut⟩ := quote_roundTrip opens
  exact ⟨opens, rfl, read, cut ",1".toList (by decide)⟩

end ClassroomCpu.Assembly.Token
