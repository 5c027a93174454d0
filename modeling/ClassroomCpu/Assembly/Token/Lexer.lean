import ClassroomCpu.Assembly.Token

/-!
# Cutting a statement into tokens

Each token is the longest one that the text allows: a word may carry a sign in
front and a signed offset behind.  Spaces, tabs, carriage returns and form
feeds stand between tokens; any other character is an error, which is reported
by the rest of the text from it on.

Three quotes on their own are the quote character, unless a letter, a digit or
one more quote follows; they then open a text that starts with a quote.
-/

namespace ClassroomCpu.Assembly.Token

/-! ## Single tokens -/

/-- Whether a character may stand between tokens. -/
def isSpace (c : Char) : Bool :=
  c == ' ' || c == '\t' || c == '\r' || c == '\x0c'

/-- Whether a character belongs to words. -/
def isWordChar (c : Char) : Bool :=
  c.isAlphanum || c == '_'

/-- Splits off a signed offset at the start of a text, if there is one. -/
def splitOffset : List Char → List Char × List Char
  | [] => ([], [])
  | c :: rest =>
      if (c == '+' || c == '-') && !(rest.takeWhile isWordChar).isEmpty then
        (c :: rest.takeWhile isWordChar, rest.dropWhile isWordChar)
      else ([], c :: rest)

/-- Splits off the word characters at the start of a text and an offset behind them. -/
def splitName? (text : List Char) : Option (List Char × List Char) :=
  if (text.takeWhile isWordChar).isEmpty then none
  else
    let (offset, rest) := splitOffset (text.dropWhile isWordChar)
    some (text.takeWhile isWordChar ++ offset, rest)

/-- Splits off the longest word at the start of a text. -/
def splitWord? : List Char → Option (List Char × List Char)
  | '-' :: rest => (splitName? rest).map fun (name, rest) => ('-' :: name, rest)
  | text => splitName? text

/-- Whether three quotes are the quote character in front of what follows. -/
def endsLoneQuote : Option Char → Bool
  | some c => !c.isAlphanum && c != '\''
  | none => true

/-- Splits a text behind the quote that ends it; doubled quotes do not end it. -/
def splitQuoted? : List Char → Option (List Char × List Char)
  | [] => none
  | '\'' :: '\'' :: rest =>
      (splitQuoted? rest).map fun (inner, rest) => ('\'' :: '\'' :: inner, rest)
  | '\'' :: rest => some (['\''], rest)
  | c :: rest => (splitQuoted? rest).map fun (inner, rest) => (c :: inner, rest)

/-- Splits a text that follows an opening quote behind the end of the quoted text. -/
def splitAfterQuote? (text : List Char) : Option (List Char × List Char) :=
  match text with
  | '\'' :: '\'' :: rest =>
      if endsLoneQuote rest.head? then some (['\'', '\''], rest) else splitQuoted? text
  | _ => splitQuoted? text

/-- The token that is a single character. -/
def ofChar? (c : Char) : Option Token :=
  if c = '#' then some hash
  else if c = ',' then some comma
  else if c = '(' then some openParen
  else if c = ')' then some closeParen
  else if c = '+' then some plus
  else if c = '-' then some minus
  else if c = '[' then some openBracket
  else if c = ']' then some closeBracket
  else none

/-- Splits off the token at the start of a text. -/
def split? : List Char → Option (Token × List Char)
  | [] => none
  | c :: rest =>
      match splitWord? (c :: rest) with
      | some (name, rest) => some (word (String.ofList name), rest)
      | none =>
          if c = '\'' then
            (splitAfterQuote? rest).map fun (inner, rest) =>
              (quoted (String.ofList ('\'' :: inner)), rest)
          else (ofChar? c).map fun token => (token, rest)

/-! ## Every token takes a character -/

theorem length_dropWhile_le (p : Char → Bool) (text : List Char) :
    (text.dropWhile p).length ≤ text.length :=
  (List.dropWhile_sublist p).length_le

theorem length_dropWhile_lt {p : Char → Bool} {text : List Char}
    (some_taken : (text.takeWhile p).isEmpty = false) :
    (text.dropWhile p).length < text.length := by
  cases text with
  | nil => simp at some_taken
  | cons c rest =>
      by_cases holds : p c = true
      · simp only [List.dropWhile_cons, holds, if_true, List.length_cons]
        exact Nat.lt_succ_of_le (length_dropWhile_le p rest)
      · simp [holds] at some_taken

theorem length_splitOffset_le (text : List Char) :
    (splitOffset text).2.length ≤ text.length := by
  cases text with
  | nil => simp [splitOffset]
  | cons c rest =>
      rw [splitOffset]
      split
      · exact Nat.le_trans (length_dropWhile_le _ rest) (by simp)
      · simp

theorem length_splitName?_lt {text name rest : List Char}
    (found : splitName? text = some (name, rest)) : rest.length < text.length := by
  unfold splitName? at found
  split at found
  · simp at found
  · rename_i taken
    simp only [Option.some.injEq, Prod.mk.injEq] at found
    rw [← found.2]
    exact Nat.lt_of_le_of_lt (length_splitOffset_le _)
      (length_dropWhile_lt (by simpa using taken))

theorem length_splitWord?_lt {text name rest : List Char}
    (found : splitWord? text = some (name, rest)) : rest.length < text.length := by
  unfold splitWord? at found
  split at found
  · rename_i body
    obtain ⟨⟨inner, tail⟩, named, equal⟩ := Option.map_eq_some_iff.mp found
    simp only [Prod.mk.injEq] at equal
    rw [← equal.2]
    exact Nat.lt_trans (length_splitName?_lt named) (by simp)
  · exact length_splitName?_lt found

theorem length_splitQuoted?_lt {text inner rest : List Char}
    (found : splitQuoted? text = some (inner, rest)) : rest.length < text.length := by
  fun_induction splitQuoted? text generalizing inner rest with
  | case1 => simp at found
  | case2 tail induction =>
      obtain ⟨⟨deeper, after⟩, deeperFound, equal⟩ := Option.map_eq_some_iff.mp found
      simp only [Prod.mk.injEq] at equal
      have shorter := induction deeperFound
      rw [← equal.2]
      simp only [List.length_cons]
      omega
  | case3 tail =>
      simp only [Option.some.injEq, Prod.mk.injEq] at found
      simp [← found.2]
  | case4 c tail _ _ induction =>
      obtain ⟨⟨deeper, after⟩, deeperFound, equal⟩ := Option.map_eq_some_iff.mp found
      simp only [Prod.mk.injEq] at equal
      have shorter := induction deeperFound
      rw [← equal.2]
      simp only [List.length_cons]
      omega

theorem length_splitAfterQuote?_lt {text inner rest : List Char}
    (found : splitAfterQuote? text = some (inner, rest)) : rest.length < text.length := by
  unfold splitAfterQuote? at found
  split at found
  · split at found
    · simp only [Option.some.injEq, Prod.mk.injEq] at found
      simp only [← found.2, List.length_cons]
      omega
    · exact length_splitQuoted?_lt found
  · exact length_splitQuoted?_lt found

theorem length_split?_lt {text rest : List Char} {token : Token}
    (found : split? text = some (token, rest)) : rest.length < text.length := by
  cases text with
  | nil => simp [split?] at found
  | cons c tail =>
      rw [split?] at found
      split at found
      · rename_i name after word
        simp only [Option.some.injEq, Prod.mk.injEq] at found
        rw [← found.2]
        exact length_splitWord?_lt word
      · split at found
        · obtain ⟨⟨inner, after⟩, quotedFound, equal⟩ := Option.map_eq_some_iff.mp found
          simp only [Prod.mk.injEq] at equal
          rw [← equal.2]
          exact Nat.lt_trans (length_splitAfterQuote?_lt quotedFound) (by simp)
        · obtain ⟨single, _, equal⟩ := Option.map_eq_some_iff.mp found
          simp only [Prod.mk.injEq] at equal
          simp [← equal.2]

/-! ## Whole texts -/

/-- The tokens of a text, or the rest of the text from the first character that starts none. -/
def lex (text : List Char) : Except (List Char) (List Token) :=
  match skipped : text.dropWhile isSpace with
  | [] => .ok []
  | c :: rest =>
      match found : split? (c :: rest) with
      | none => .error (c :: rest)
      | some (token, after) =>
          have : after.length < text.length := by
            have shorter := length_split?_lt found
            have most := length_dropWhile_le isSpace text
            rw [skipped] at most
            omega
          match lex after with
          | .ok tokens => .ok (token :: tokens)
          | .error remaining => .error remaining
  termination_by text.length

end ClassroomCpu.Assembly.Token
