import ClassroomCpu.Assembly.Failure
import ClassroomCpu.Proofs.Assembly.ByteScan
import ClassroomCpu.Proofs.Assembly.TokenSpan

/-!
# Texts cut with checks

The parts of a line and the tokens of a statement are pieces of the text of the
program, and are cut off at places that the scans over bytes found.  Here every
cut is checked: it traps if its place is inside a character or behind the end
of the text.  No cut does, and the pieces are the right ones.
-/

namespace ClassroomCpu.Assembly

/-- What would end a build without an answer. -/
inductive Trap
  /-- A text is cut where no character ends. -/
  | brokenText (text : List Char) (place : Nat)
  /-- A table has no entry at an index. -/
  | noEntry (index : Nat)
  /-- A number does not fit into its word. -/
  | overflow (value : Int)
  /-- The cell for the next byte is outside memory. -/
  | cursorOutside (cursor : Nat)
  /-- The description of the machine is wrong. -/
  | fault (fault : Fault)
  deriving DecidableEq, Repr

/-- A result, unless a check traps. -/
abbrev Checked := Except Trap

namespace Checked

open Text

@[simp] theorem ok_bind {ε α β : Type} (value : α) (next : α → Except ε β) :
    (.ok value : Except ε α) >>= next = next value := rfl

/-- The pieces of a text in front of a place and from there on. -/
def cutAt (text : List Char) (place : Nat) : Checked (List Char × List Char) :=
  match cutAt? text place with
  | some pieces => .ok pieces
  | none => .error (.brokenText text place)

theorem cutAt_append (front behind : List Char) :
    cutAt (front ++ behind) (bytes front).length = .ok (front, behind) := by
  rw [cutAt, cutAt?_append]

/-! ## Lines -/

/-- The line without its comment. -/
def dropComment (line : List Char) : Checked (List Char) :=
  match ByteScan.find? (asciiByte ';') false 0 (bytes line) with
  | some place => do
      let (code, _) ← cutAt line place
      return code
  | none => .ok line

/-- The parts of a line. -/
def sourceLine (line : List Char) : Checked SourceLine := do
  let code ← dropComment line
  match ByteScan.find? (asciiByte ':') false 0 (bytes code) with
  | some place =>
      let (label, _) ← cutAt code place
      let (_, statement) ← cutAt code (place + 1)
      return ⟨some (String.ofList (trim label)), String.ofList (trim statement)⟩
  | none => return ⟨none, String.ofList (trim code)⟩

theorem dropComment_eq (line : List Char) :
    dropComment line = .ok (SourceLine.dropComment line) := by
  unfold dropComment SourceLine.dropComment
  rw [ByteScan.find?_bytes (by decide) (by decide)]
  cases cut : cutUnquoted? ';' line with
  | none => rfl
  | some pieces =>
      obtain ⟨code, comment⟩ := pieces
      obtain rfl := ByteScan.eq_append_of_cutFrom? cut
      simp only [Option.map_some, cutAt_append, ok_bind]
      rfl

/-- Every line is cut into its parts. -/
theorem sourceLine_eq (line : List Char) : sourceLine line = .ok (SourceLine.ofText line) := by
  unfold sourceLine SourceLine.ofText
  rw [dropComment_eq, ok_bind, ByteScan.find?_bytes (by decide) (by decide)]
  dsimp only
  cases cut : cutUnquoted? ':' (SourceLine.dropComment line) with
  | none => rfl
  | some pieces =>
      obtain ⟨label, statement⟩ := pieces
      have joined := ByteScan.eq_append_of_cutFrom? cut
      have behind : cutAt (label ++ ':' :: statement) ((bytes label).length + 1) =
          .ok (label ++ [':'], statement) := by
        have cutBehind := cutAt_append (label ++ [':']) statement
        rwa [List.append_assoc, bytes_append, List.length_append] at cutBehind
      simp only [joined, Option.map_some, cutAt_append, behind, ok_bind]
      rfl

/-! ## Tokens -/

/-- Splits off the token at the start of a text. -/
def split? : List Char → Checked (Option (Token × List Char))
  | [] => .ok none
  | c :: rest =>
      match Token.splitWord? (c :: rest) with
      | some (name, rest) => .ok (some (.word (String.ofList name), rest))
      | none =>
          if c = '\'' then
            match ByteScan.quotedEnd? (bytes rest) with
            | some place => do
                let (inner, rest) ← cutAt rest place
                return some (.quoted (String.ofList ('\'' :: inner)), rest)
            | none => .ok none
          else .ok ((Token.ofChar? c).map fun token => (token, rest))

theorem split?_eq (text : List Char) : split? text = .ok (Token.split? text) := by
  cases text with
  | nil => rfl
  | cons c rest =>
      rw [split?, Token.split?]
      cases word : Token.splitWord? (c :: rest) with
      | some pieces => rfl
      | none =>
          dsimp only
          split
          · rw [ByteScan.quotedEnd?_bytes]
            cases found : Token.splitAfterQuote? rest with
            | none => rfl
            | some pieces =>
                obtain ⟨inner, after⟩ := pieces
                obtain ⟨rfl, _⟩ := Token.quotedBefore_of_splitAfterQuote? found
                simp only [Option.map_some, cutAt_append, ok_bind]
                rfl
          · rfl

theorem length_lt_of_split? {text rest after : List Char} {c : Char} {token : Token}
    (skipped : text.dropWhile Token.isSpace = c :: rest)
    (found : Token.split? (c :: rest) = some (token, after)) : after.length < text.length := by
  have least := Token.length_split?_lt found
  have most := Token.length_dropWhile_le Token.isSpace text
  rw [skipped] at most
  omega

/-- The place of the first token from a place on, behind which a text stands. -/
def tokenPlace (place : Nat) (text : List Char) : Nat :=
  place + (bytes (text.takeWhile Token.isSpace)).length

/--
The tokens of a text from a place on, where `text` is what is left; or what is
left from the place of the first character that starts none.
-/
def lexFrom (input : List Char) (place : Nat) (text : List Char) :
    Checked (Except (List Char) (List Token)) :=
  match skipped : text.dropWhile Token.isSpace with
  | [] => .ok (.ok [])
  | c :: rest =>
      match found : split? (c :: rest) with
      | .error trap => .error trap
      | .ok none => do
          let (_, remaining) ← cutAt input (tokenPlace place text)
          return .error remaining
      | .ok (some (token, after)) =>
          have : after.length < text.length := by
            rw [split?_eq, Except.ok.injEq] at found
            exact length_lt_of_split? skipped found
          do
            let others ← lexFrom input
              (tokenPlace place text + (bytes token.text.toList).length) after
            return others.map (token :: ·)
  termination_by text.length

/-- The tokens of a text, or the rest of the text from the first character that starts none. -/
def lex (text : List Char) : Checked (Except (List Char) (List Token)) :=
  lexFrom text 0 text

theorem lexFrom_step (input : List Char) (place : Nat) (text : List Char) :
    lexFrom input place text =
      match text.dropWhile Token.isSpace with
      | [] => .ok (.ok [])
      | c :: rest =>
          match Token.split? (c :: rest) with
          | none => do
              let (_, remaining) ← cutAt input (tokenPlace place text)
              return .error remaining
          | some (token, after) => do
              let others ← lexFrom input
                (tokenPlace place text + (bytes token.text.toList).length) after
              return others.map (token :: ·) := by
  rw [lexFrom.eq_def]
  split
  · rename_i skipped
    simp only [skipped]
  · rename_i c rest skipped
    simp only [skipped]
    split
    · rename_i trapped
      rw [split?_eq] at trapped
      contradiction
    · rename_i stuck
      rw [split?_eq, Except.ok.injEq] at stuck
      simp only [stuck]
    · rename_i token after found
      rw [split?_eq, Except.ok.injEq] at found
      simp only [found]

/-- What is left of a text is found again at its place. -/
theorem lexFrom_eq (front text : List Char) :
    lexFrom (front ++ text) (bytes front).length text = .ok (Token.lex text) := by
  have spaces : text.takeWhile Token.isSpace ++ text.dropWhile Token.isSpace = text :=
    List.takeWhile_append_dropWhile
  have start : tokenPlace (bytes front).length text =
      (bytes (front ++ text.takeWhile Token.isSpace)).length := by
    rw [bytes_append, List.length_append, tokenPlace]
  rw [lexFrom_step, Token.lex_eq, start]
  cases skipped : text.dropWhile Token.isSpace with
  | nil => rfl
  | cons c rest =>
      rw [skipped] at spaces
      cases found : Token.split? (c :: rest) with
      | none =>
          have cut := cutAt_append (front ++ text.takeWhile Token.isSpace) (c :: rest)
          rw [List.append_assoc, spaces] at cut
          simp only [found, cut, ok_bind]
          rfl
      | some pieces =>
          obtain ⟨token, after⟩ := pieces
          obtain ⟨joined, _⟩ := Token.standsBefore_of_split? found
          have shorter := length_lt_of_split? skipped found
          have later := lexFrom_eq
            (front ++ text.takeWhile Token.isSpace ++ token.text.toList) after
          rw [List.append_assoc, ← joined, List.append_assoc, spaces, bytes_append,
            List.length_append] at later
          simp only [found, later, ok_bind]
          cases Token.lex after <;> rfl
  termination_by text.length

theorem lex_eq (text : List Char) : lex text = .ok (Token.lex text) :=
  lexFrom_eq [] text

end Checked

end ClassroomCpu.Assembly
