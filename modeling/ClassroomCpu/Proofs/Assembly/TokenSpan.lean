import ClassroomCpu.Proofs.Assembly.TokenText
import Mathlib.Data.List.TakeWhile

/-!
# What the lexer cuts off

A token is cut off the front of a text: its text and what is left make up the
text again.  Words hold letters, digits, underscores and signs alone; a quoted
text ends with its first quote that is not one of a doubled pair, and the quote
character ends where its three quotes do.
-/

namespace ClassroomCpu.Assembly.Token

/-! ## Words -/

theorem eq_append_of_splitOffset {text offset rest : List Char}
    (split : splitOffset text = (offset, rest)) :
    text = offset ++ rest ∧ ∀ c ∈ offset, isWordChar c = true ∨ isSign c = true := by
  cases text with
  | nil =>
      simp only [splitOffset, Prod.mk.injEq] at split
      obtain ⟨rfl, rfl⟩ := split
      exact ⟨rfl, by simp⟩
  | cons sign text =>
      rw [splitOffset] at split
      split at split
      · rename_i signed
        simp only [Prod.mk.injEq] at split
        obtain ⟨rfl, rfl⟩ := split
        refine ⟨by simp, ?_⟩
        intro c member
        rcases List.mem_cons.mp member with rfl | later
        · right
          exact (Bool.and_eq_true_iff.mp signed).1
        · left
          exact List.mem_takeWhile_imp later
      · simp only [Prod.mk.injEq] at split
        obtain ⟨rfl, rfl⟩ := split
        exact ⟨rfl, by simp⟩

theorem eq_append_of_splitName? {text name rest : List Char}
    (split : splitName? text = some (name, rest)) :
    text = name ++ rest ∧ ∀ c ∈ name, isWordChar c = true ∨ isSign c = true := by
  unfold splitName? at split
  split at split
  · simp at split
  · simp only [Option.some.injEq, Prod.mk.injEq] at split
    obtain ⟨rfl, rfl⟩ := split
    have cut := Prod.eta (splitOffset (text.dropWhile isWordChar))
    obtain ⟨same, characters⟩ := eq_append_of_splitOffset cut.symm
    constructor
    · rw [List.append_assoc, ← same, List.takeWhile_append_dropWhile]
    · intro c member
      rcases List.mem_append.mp member with inName | inOffset
      · left
        exact List.mem_takeWhile_imp inName
      · exact characters c inOffset

theorem eq_append_of_splitWord? {text name rest : List Char}
    (split : splitWord? text = some (name, rest)) :
    text = name ++ rest ∧ ∀ c ∈ name, isWordChar c = true ∨ isSign c = true := by
  unfold splitWord? at split
  split at split
  · obtain ⟨⟨inner, behind⟩, found, same⟩ := Option.map_eq_some_iff.mp split
    obtain ⟨joined, characters⟩ := eq_append_of_splitName? found
    simp only [Prod.mk.injEq] at same
    obtain ⟨rfl, rfl⟩ := same
    refine ⟨by rw [joined]; rfl, ?_⟩
    intro c member
    rcases List.mem_cons.mp member with rfl | later
    · right
      rfl
    · exact characters c later
  · exact eq_append_of_splitName? split

/-! ## Quoted texts -/

/-- A text behind an opening quote, up to the quote that closes it. -/
inductive QuotedRest : List Char → Prop where
  | close : QuotedRest ['\'']
  | doubled {rest : List Char} : QuotedRest rest → QuotedRest ('\'' :: '\'' :: rest)
  | other {c : Char} {rest : List Char} : c ≠ '\'' → QuotedRest rest → QuotedRest (c :: rest)

theorem QuotedRest.ne_nil {rest : List Char} (quoted : QuotedRest rest) : rest ≠ [] := by
  cases quoted <;> simp

theorem quotedRest_of_splitQuoted? {text inner rest : List Char}
    (split : splitQuoted? text = some (inner, rest)) :
    text = inner ++ rest ∧ QuotedRest inner ∧ rest.head? ≠ some '\'' := by
  fun_induction splitQuoted? text generalizing inner rest with
  | case1 => simp at split
  | case2 text induction =>
      obtain ⟨⟨deeper, behind⟩, found, same⟩ := Option.map_eq_some_iff.mp split
      obtain ⟨joined, closed, unquoted⟩ := induction found
      simp only [Prod.mk.injEq] at same
      obtain ⟨rfl, rfl⟩ := same
      exact ⟨by rw [joined]; rfl, .doubled closed, unquoted⟩
  | case3 text single =>
      simp only [Option.some.injEq, Prod.mk.injEq] at split
      obtain ⟨rfl, rfl⟩ := split
      refine ⟨rfl, .close, ?_⟩
      intro quote
      obtain ⟨tail, shown⟩ := List.head?_eq_some_iff.mp quote
      exact single tail shown
  | case4 c text notDoubled notQuote induction =>
      obtain ⟨⟨deeper, behind⟩, found, same⟩ := Option.map_eq_some_iff.mp split
      obtain ⟨joined, closed, unquoted⟩ := induction found
      simp only [Prod.mk.injEq] at same
      obtain ⟨rfl, rfl⟩ := same
      exact ⟨by rw [joined]; rfl, .other notQuote closed, unquoted⟩

/-- A quoted text in front of another: the quote character, or a text up to its closing quote. -/
inductive QuotedBefore (behind : List Char) : List Char → Prop where
  | quoteCharacter : endsLoneQuote behind.head? = true → QuotedBefore behind ['\'', '\'', '\'']
  | closed {inner : List Char} : QuotedRest inner →
      (∀ rest, inner = '\'' :: '\'' :: rest → endsLoneQuote rest.head? = false) →
      behind.head? ≠ some '\'' → QuotedBefore behind ('\'' :: inner)

theorem quotedBefore_of_splitAfterQuote? {text inner rest : List Char}
    (split : splitAfterQuote? text = some (inner, rest)) :
    text = inner ++ rest ∧ QuotedBefore rest ('\'' :: inner) := by
  unfold splitAfterQuote? at split
  split at split
  · rename_i tail
    split at split
    · rename_i ends
      simp only [Option.some.injEq, Prod.mk.injEq] at split
      obtain ⟨rfl, rfl⟩ := split
      exact ⟨rfl, .quoteCharacter ends⟩
    · rename_i opens
      obtain ⟨joined, closed, unquoted⟩ := quotedRest_of_splitQuoted? split
      refine ⟨joined, .closed closed ?_ unquoted⟩
      rintro deeper rfl
      cases closed with
      | doubled further =>
          obtain ⟨c, more, rfl⟩ := List.exists_cons_of_ne_nil further.ne_nil
          simp only [List.cons_append, List.cons.injEq, true_and] at joined
          rw [joined] at opens
          simpa using opens
      | other notQuote _ => exact absurd rfl notQuote
  · rename_i single
    obtain ⟨joined, closed, unquoted⟩ := quotedRest_of_splitQuoted? split
    refine ⟨joined, .closed closed ?_ unquoted⟩
    rintro deeper rfl
    exact absurd joined (single (deeper ++ rest))

/-! ## Tokens -/

theorem text_of_ofChar? {c : Char} {token : Token} (single : ofChar? c = some token) :
    token.text.toList = [c] := by
  unfold ofChar? at single
  repeat' split at single
  all_goals
    first
    | contradiction
    | obtain rfl := Option.some.inj single
      subst c
      rfl

/-- What a token is like that stands in front of a text. -/
inductive StandsBefore (behind : List Char) : Token → Prop where
  | word {name : String} : (∀ c ∈ name.toList, isWordChar c = true ∨ isSign c = true) →
      StandsBefore behind (.word name)
  | quoted {text : String} : QuotedBefore behind text.toList → StandsBefore behind (.quoted text)
  | single {c : Char} {token : Token} : ofChar? c = some token → StandsBefore behind token

/-- A token and what is left of a text make up the text. -/
theorem standsBefore_of_split? {text rest : List Char} {token : Token}
    (split : split? text = some (token, rest)) :
    text = token.text.toList ++ rest ∧ StandsBefore rest token := by
  cases text with
  | nil => simp [split?] at split
  | cons c text =>
      rw [split?] at split
      split at split
      · rename_i name behind found
        simp only [Option.some.injEq, Prod.mk.injEq] at split
        obtain ⟨rfl, rfl⟩ := split
        obtain ⟨joined, characters⟩ := eq_append_of_splitWord? found
        refine ⟨by simpa [Token.text] using joined, .word ?_⟩
        simpa using characters
      · split at split
        · rename_i quote
          obtain ⟨⟨inner, behind⟩, found, same⟩ := Option.map_eq_some_iff.mp split
          obtain ⟨joined, quoted⟩ := quotedBefore_of_splitAfterQuote? found
          simp only [Prod.mk.injEq] at same
          obtain ⟨rfl, rfl⟩ := same
          refine ⟨by simp [Token.text, quote, joined], .quoted ?_⟩
          simpa using quoted
        · obtain ⟨single, known, same⟩ := Option.map_eq_some_iff.mp split
          simp only [Prod.mk.injEq] at same
          obtain ⟨rfl, rfl⟩ := same
          exact ⟨by rw [text_of_ofChar? known]; rfl, .single known⟩

end ClassroomCpu.Assembly.Token
