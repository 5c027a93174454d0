import ClassroomCpu.Proofs.Assembly.ByteScan
import ClassroomCpu.Proofs.Assembly.TokenSpan
import ClassroomCpu.Proofs.Text.LetterCase

/-!
# Lines and tokens in lower case

A program in lower case has the lines of the program in lower case, and the
tokens of a statement are the words of the statement in lower case, as long as
there are no quotes.
-/

namespace ClassroomCpu.Assembly

theorem isSign_toLower (c : Char) : isSign c.toLower = isSign c :=
  Text.toLower_class (by decide) c

/-! ## Tokens -/

namespace Token

/-- A token with its letters in lower case; what stands between quotes is left as it is. -/
def lower : Token → Token
  | word text => word (Text.lowercase text)
  | token => token

theorem lower_eq_comma {token : Token} : token.lower = comma ↔ token = comma := by
  cases token <;> simp [lower]

theorem isSpace_toLower (c : Char) : isSpace c.toLower = isSpace c :=
  Text.toLower_class (by decide) c

theorem isWordChar_toLower (c : Char) : isWordChar c.toLower = isWordChar c :=
  Text.toLower_class (by decide) c

theorem splitOffset_map_toLower (text : List Char) :
    splitOffset (text.map Char.toLower) =
      Prod.map (List.map Char.toLower) (List.map Char.toLower) (splitOffset text) := by
  cases text with
  | nil => rfl
  | cons c text =>
      have sign : (c.toLower == '+' || c.toLower == '-') = (c == '+' || c == '-') :=
        isSign_toLower c
      simp only [List.map_cons, splitOffset, sign, List.isEmpty_map,
        Text.takeWhile_map_toLower isWordChar_toLower,
        Text.dropWhile_map_toLower isWordChar_toLower]
      split <;> rfl

theorem splitName?_map_toLower (text : List Char) :
    splitName? (text.map Char.toLower) =
      (splitName? text).map (Prod.map (List.map Char.toLower) (List.map Char.toLower)) := by
  simp only [splitName?, Text.takeWhile_map_toLower isWordChar_toLower,
    Text.dropWhile_map_toLower isWordChar_toLower, List.isEmpty_map, splitOffset_map_toLower]
  split
  · rfl
  · simp

theorem splitWord?_map_toLower (text : List Char) :
    splitWord? (text.map Char.toLower) =
      (splitWord? text).map (Prod.map (List.map Char.toLower) (List.map Char.toLower)) := by
  cases text with
  | nil => rfl
  | cons c text =>
      by_cases minus : c = '-'
      · subst minus
        change (splitName? (text.map Char.toLower)).map _ = _
        rw [splitName?_map_toLower, splitWord?, Option.map_map, Option.map_map]
        rfl
      · have noMinus : c.toLower ≠ '-' := mt (Text.toLower_eq_iff (by decide)).mp minus
        have plain := splitName?_map_toLower (c :: text)
        rw [List.map_cons] at plain ⊢
        rw [splitWord?.eq_2 _ (by simp [noMinus]), splitWord?.eq_2 _ (by simp [minus]), plain]

theorem ofChar?_toLower (c : Char) : ofChar? c.toLower = ofChar? c :=
  Text.toLower_class (by decide) c

theorem lower_of_ofChar? {c : Char} {token : Token} (single : ofChar? c = some token) :
    token.lower = token := by
  unfold ofChar? at single
  repeat' split at single
  all_goals
    first
    | contradiction
    | obtain rfl := Option.some.inj single
      rfl

theorem split?_map_toLower {text : List Char} (unquoted : '\'' ∉ text) :
    split? (text.map Char.toLower) =
      (split? text).map (Prod.map lower (List.map Char.toLower)) := by
  cases text with
  | nil => rfl
  | cons c text =>
      have noQuote : c ≠ '\'' := by
        rintro rfl
        simp at unquoted
      have noQuoteLower : c.toLower ≠ '\'' := mt (Text.toLower_eq_iff (by decide)).mp noQuote
      have word := splitWord?_map_toLower (c :: text)
      rw [List.map_cons] at word ⊢
      rw [split?, split?, word]
      cases splitWord? (c :: text) with
      | some found => simp [lower, Text.lowercase_ofList]
      | none =>
          simp only [Option.map_none, if_neg noQuote, if_neg noQuoteLower, ofChar?_toLower]
          cases single : ofChar? c with
          | none => rfl
          | some token => simp [lower_of_ofChar? single]

/-- What is left behind a token has no quote if the text has none. -/
theorem unquoted_of_split? {text rest : List Char} {token : Token} (unquoted : '\'' ∉ text)
    (found : split? text = some (token, rest)) : '\'' ∉ rest := by
  intro member
  apply unquoted
  rw [(standsBefore_of_split? found).1]
  exact List.mem_append_right _ member

/-- A text without quotes is cut at the same places in lower case, or fails at the same place. -/
theorem lex_map_toLower {text : List Char} (unquoted : '\'' ∉ text) :
    lex (text.map Char.toLower) =
      match lex text with
      | .ok tokens => .ok (tokens.map lower)
      | .error rest => .error (rest.map Char.toLower) := by
  induction size : text.length using Nat.strong_induction_on generalizing text with
  | _ size induction =>
  subst size
  rw [lex_eq, lex_eq text, Text.dropWhile_map_toLower isSpace_toLower]
  have most := length_dropWhile_le isSpace text
  have unquotedBehind : '\'' ∉ text.dropWhile isSpace :=
    fun member => unquoted ((List.dropWhile_sublist isSpace).subset member)
  cases behind : text.dropWhile isSpace with
  | nil => rfl
  | cons c rest =>
      rw [behind] at most unquotedBehind
      have first := split?_map_toLower unquotedBehind
      rw [List.map_cons] at first ⊢
      simp only [first]
      cases found : split? (c :: rest) with
      | none => rfl
      | some cut =>
          obtain ⟨token, after⟩ := cut
          have shorter := length_split?_lt found
          have further := induction after.length (by omega)
            (unquoted_of_split? unquotedBehind found) rfl
          simp only [Option.map_some, Prod.map_apply, further]
          cases lex after <;> rfl

end Token

/-! ## Lines -/

namespace SourceLine

/-- A line in lower case. -/
def lower (line : SourceLine) : SourceLine where
  label := line.label.map Text.lowercase
  statement := Text.lowercase line.statement

end SourceLine

theorem cutFrom?_map_toLower {needle : Char} (noLetter : needle.isAlpha = false)
    {text : List Char} (unquoted : '\'' ∉ text) :
    cutFrom? needle .outside (text.map Char.toLower) =
      (cutFrom? needle .outside text).map
        (Prod.map (List.map Char.toLower) (List.map Char.toLower)) := by
  induction text with
  | nil => rfl
  | cons c text induction =>
      have noQuote : c ≠ '\'' := by
        rintro rfl
        simp at unquoted
      have noQuoteLower : c.toLower ≠ '\'' := mt (Text.toLower_eq_iff (by decide)).mp noQuote
      have behind := induction (mt (List.mem_cons_of_mem c) unquoted)
      have here : c.toLower = needle ↔ c = needle := Text.toLower_eq_iff noLetter
      simp only [List.map_cons, cutFrom?, here, QuoteScan.next, if_neg noQuote,
        if_neg noQuoteLower, behind]
      split
      · rfl
      · rw [Option.map_map, Option.map_map]
        rfl

namespace SourceLine

theorem dropComment_map_toLower {text : List Char} (unquoted : '\'' ∉ text) :
    dropComment (text.map Char.toLower) = (dropComment text).map Char.toLower := by
  unfold dropComment cutUnquoted?
  rw [cutFrom?_map_toLower (by decide) unquoted]
  cases cutFrom? ';' .outside text <;> rfl

theorem unquoted_dropComment {text : List Char} (unquoted : '\'' ∉ text) :
    '\'' ∉ dropComment text := by
  unfold dropComment cutUnquoted?
  split
  · rename_i front behind cut
    rw [ByteScan.eq_append_of_cutFrom? cut] at unquoted
    exact mt (List.mem_append_left _) unquoted
  · exact unquoted

theorem ofText_map_toLower {text : List Char} (unquoted : '\'' ∉ text) :
    ofText (text.map Char.toLower) = (ofText text).lower := by
  have cut := @cutFrom?_map_toLower ':' (by decide) _ (unquoted_dropComment unquoted)
  unfold ofText cutUnquoted?
  simp only [dropComment_map_toLower unquoted, cut]
  cases cutFrom? ':' .outside (dropComment text) <;>
    simp [lower, Text.trim_map_toLower, Text.lowercase_ofList]

/-- The statement of a line without quotes has none. -/
theorem unquoted_statement_ofText {text : List Char} (unquoted : '\'' ∉ text) :
    '\'' ∉ (ofText text).statement.toList := by
  have trimmed : ∀ {piece : List Char}, '\'' ∉ piece →
      '\'' ∉ (String.ofList (Text.trim piece)).toList := by
    intro piece outside
    rw [String.toList_ofList]
    exact fun member => outside (Text.trim_subset piece member)
  have code := unquoted_dropComment unquoted
  unfold ofText cutUnquoted?
  dsimp only
  split
  · rename_i front behind cut
    rw [ByteScan.eq_append_of_cutFrom? cut] at code
    exact trimmed fun member => code (by simp [member])
  · exact trimmed code

/-! ## Programs -/

theorem unquoted_of_mem_linesFrom {source : String} (unquoted : '\'' ∉ source.toList)
    {text : List Char} (member : text ∈ Text.linesFrom [] source.toList) : '\'' ∉ text := by
  intro quote
  rcases Text.mem_of_mem_linesFrom member _ quote with nowhere | inside
  · simp at nowhere
  · exact unquoted inside

theorem ofSource_lowercase {source : String} (unquoted : '\'' ∉ source.toList) :
    ofSource (Text.lowercase source) = (ofSource source).map lower := by
  have lines := Text.linesFrom_map_toLower [] source.toList
  rw [List.map_nil] at lines
  rw [ofSource_eq, ofSource_eq, Text.toList_lowercase, lines, List.map_map, List.map_map]
  apply List.map_congr_left
  intro text member
  exact ofText_map_toLower (unquoted_of_mem_linesFrom unquoted member)

theorem unquoted_of_mem_ofSource {source : String} (unquoted : '\'' ∉ source.toList)
    {line : SourceLine} (member : line ∈ ofSource source) : '\'' ∉ line.statement.toList := by
  rw [ofSource_eq] at member
  obtain ⟨text, among, rfl⟩ := List.mem_map.mp member
  exact unquoted_statement_ofText (unquoted_of_mem_linesFrom unquoted among)

end SourceLine

end ClassroomCpu.Assembly
