import ClassroomCpu.Assembly.SourceLine
import ClassroomCpu.Proofs.Assembly.TokenSpan

/-!
# Comments and labels behind quoted texts

The scan that looks for comments and labels knows quoted texts by itself.  It
stands outside quotes behind every token of a statement, so that it finds
nothing inside the statement and the comment right behind it, as long as no
quoted text misleads it: by a doubled quote in front of three quotes that would
be the quote character if they stood by themselves.
-/

namespace ClassroomCpu.Assembly

/-! ## Running over a piece of a text -/

/-- The scan cuts nothing off in a piece of a text, and stands in `later` behind it. -/
def PassesOver (needle : Char) (scan : QuoteScan) (piece behind : List Char)
    (later : QuoteScan) : Prop :=
  cutFrom? needle scan (piece ++ behind) =
    (cutFrom? needle later behind).map fun cut => (piece ++ cut.1, cut.2)

namespace PassesOver

variable {needle : Char} {scan middle later : QuoteScan} {behind : List Char}

theorem nil : PassesOver needle scan [] behind scan := by
  simp [PassesOver]

theorem cons {c : Char} {piece : List Char} (apart : scan = .outside → c ≠ needle)
    (further : PassesOver needle (scan.next c (piece ++ behind)) piece behind later) :
    PassesOver needle scan (c :: piece) behind later := by
  have uncut : ¬ (scan = .outside ∧ c = needle) := fun cut => apart cut.1 cut.2
  unfold PassesOver at further ⊢
  rw [List.cons_append, cutFrom?, if_neg uncut, further, Option.map_map]
  rfl

theorem append {first second : List Char}
    (before : PassesOver needle scan first (second ++ behind) middle)
    (further : PassesOver needle middle second behind later) :
    PassesOver needle scan (first ++ second) behind later := by
  unfold PassesOver at before further ⊢
  rw [List.append_assoc, before, further, Option.map_map]
  simp [Function.comp_def]

/-- Outside quotes the scan stays there as long as it meets no quote. -/
theorem of_unquoted {piece : List Char} (unquoted : ∀ c ∈ piece, c ≠ needle ∧ c ≠ '\'') :
    PassesOver needle .outside piece behind .outside := by
  induction piece with
  | nil => exact nil
  | cons c piece induction =>
      obtain ⟨apart, noQuote⟩ := unquoted c (by simp)
      apply cons (fun _ => apart)
      rw [QuoteScan.next, if_neg noQuote]
      exact induction fun other member => unquoted other (by simp [member])

end PassesOver

/-! ## Quoted texts -/

namespace Token

/-- Whether a doubled quote stands in front of three quotes that could be the quote character. -/
def isMisleading : List Char → Bool
  | [] => false
  | '\'' :: '\'' :: rest => QuoteScan.startsLone rest || isMisleading rest
  | _ :: rest => isMisleading rest

/-- Whether the token is a quoted text that misleads the scan for comments and labels. -/
def misleads : Token → Bool
  | quoted text => isMisleading text.toList.tail
  | _ => false

end Token

theorem QuoteScan.startsLone_append {inner behind : List Char} (quoted : Token.QuotedRest inner)
    (unquoted : behind.head? ≠ some '\'') :
    QuoteScan.startsLone (inner ++ behind) = QuoteScan.startsLone inner := by
  cases quoted with
  | close =>
      cases behind with
      | nil => rfl
      | cons c behind =>
          have noQuote : c ≠ '\'' := by simpa using unquoted
          simp [QuoteScan.startsLone, noQuote]
  | doubled further =>
      obtain ⟨c, rest, rfl⟩ := List.exists_cons_of_ne_nil further.ne_nil
      simp [QuoteScan.startsLone]
  | other notQuote _ => simp [QuoteScan.startsLone, notQuote]

section Quoted

variable {needle : Char} {behind : List Char}

/-- The scan stays inside quotes as long as it meets none. -/
theorem passesOver_inside {piece : List Char} (unquoted : ∀ c ∈ piece, c ≠ '\'') :
    PassesOver needle .inside piece behind .inside := by
  induction piece with
  | nil => exact .nil
  | cons c piece induction =>
      apply PassesOver.cons (by simp)
      rw [QuoteScan.next, if_neg (unquoted c (by simp))]
      exact induction fun other member => unquoted other (by simp [member])

/-- Behind an opening quote the scan stays inside up to the quote that closes the text. -/
theorem passesOver_of_quotedRest (noQuote : needle ≠ '\'') {inner : List Char}
    (quoted : Token.QuotedRest inner) (clear : Token.isMisleading inner = false)
    (unquoted : behind.head? ≠ some '\'') :
    PassesOver needle .inside inner behind .outside := by
  induction quoted with
  | close => exact .cons (by simp) .nil
  | @doubled rest further induction =>
      obtain ⟨opens, clear⟩ := Bool.or_eq_false_iff.mp clear
      have stays : QuoteScan.startsLone (rest ++ behind) = false := by
        rw [QuoteScan.startsLone_append further unquoted, opens]
      -- The first quote of the pair leads outside, the second one back.
      apply PassesOver.cons (by simp)
      apply PassesOver.cons (fun _ => noQuote.symm)
      simpa [QuoteScan.next, stays] using induction clear
  | @other c rest notQuote _ induction =>
      rw [Token.isMisleading.eq_3 _ _ (by simp [notQuote])] at clear
      apply PassesOver.cons (by simp)
      simpa [QuoteScan.next, notQuote] using induction clear

/-- The scan is outside quotes again behind a quoted text that does not mislead it. -/
theorem passesOver_of_quotedBefore (noQuote : needle ≠ '\'') {text : List Char}
    (quoted : Token.QuotedBefore behind text) (clear : Token.isMisleading text.tail = false) :
    PassesOver needle .outside text behind .outside := by
  cases quoted with
  | quoteCharacter ends =>
      apply PassesOver.cons (fun _ => noQuote.symm)
      have lone : QuoteScan.startsLone ('\'' :: '\'' :: behind) = true := ends
      rw [List.cons_append, List.cons_append, List.nil_append, QuoteScan.next, if_pos rfl,
        if_pos lone]
      exact .cons nofun (.cons nofun .nil)
  | @closed inner closed notLone unquoted =>
      have opens : QuoteScan.startsLone (inner ++ behind) = false := by
        rw [QuoteScan.startsLone_append closed unquoted]
        unfold QuoteScan.startsLone
        split
        · rename_i rest
          exact notLone rest rfl
        · rfl
      apply PassesOver.cons (fun _ => noQuote.symm)
      simpa [QuoteScan.next, opens] using passesOver_of_quotedRest noQuote closed clear unquoted

end Quoted

namespace Token

theorem splitQuoted?_append {piece : List Char} (unquoted : ∀ c ∈ piece, c ≠ '\'')
    (rest : List Char) :
    splitQuoted? (piece ++ rest) =
      (splitQuoted? rest).map fun (inner, behind) => (piece ++ inner, behind) := by
  induction piece with
  | nil => simp
  | cons c piece induction =>
      have noQuote : c ≠ '\'' := unquoted c (by simp)
      rw [List.cons_append, splitQuoted?.eq_4 _ _ (by simp [noQuote]) noQuote,
        induction fun other member => unquoted other (by simp [member]), Option.map_map]
      rfl

/-- A text between quotes is a single token. -/
theorem lex_quoted {inner : List Char} (whole : splitAfterQuote? inner = some (inner, [])) :
    lex ('\'' :: inner) = .ok [.quoted (String.ofList ('\'' :: inner))] := by
  have noWord : splitWord? ('\'' :: inner) = none := by
    rw [splitWord?.eq_2 _ (by simp)]
    exact splitName?_eq_none (by simp; decide)
  have cut : split? ('\'' :: inner) = some (.quoted (String.ofList ('\'' :: inner)), []) := by
    simp [split?, noWord, whole]
  rw [lex_of_split? rfl cut, lex_nil]
  rfl

end Token

/-! ## Statements -/

/-- Whether a character stands in no statement but inside quotes. -/
def isForeign (c : Char) : Bool :=
  !Token.isSpace c && !Token.isWordChar c && (Token.ofChar? c).isNone && c != '\''

namespace Token

theorem QuotedBefore.append {after behind text : List Char} (quoted : QuotedBefore after text)
    (ends : endsLoneQuote behind.head? = true) : QuotedBefore (after ++ behind) text := by
  cases quoted with
  | quoteCharacter here =>
      apply QuotedBefore.quoteCharacter
      cases after with
      | nil => exact ends
      | cons c after => exact here
  | closed rest notLone unquoted =>
      apply QuotedBefore.closed rest notLone
      cases after with
      | nil =>
          intro quote
          rw [List.nil_append] at quote
          rw [quote] at ends
          exact absurd ends (by decide)
      | cons c after => exact unquoted

theorem StandsBefore.append {after behind : List Char} {token : Token}
    (stands : StandsBefore after token) (ends : endsLoneQuote behind.head? = true) :
    StandsBefore (after ++ behind) token := by
  cases stands with
  | word characters => exact .word characters
  | quoted text => exact .quoted (text.append ends)
  | single known => exact .single known

end Token

section Statements

variable {needle : Char} {behind : List Char}

theorem ne_of_isForeign (foreign : isForeign needle = true) {c : Char}
    (native : isForeign c = false) : c ≠ needle := by
  rintro rfl
  rw [foreign] at native
  contradiction

/-- The scan is outside quotes again behind every token that does not mislead it. -/
theorem passesOver_of_standsBefore (foreign : isForeign needle = true) {token : Token}
    (stands : Token.StandsBefore behind token) (clear : token.misleads = false) :
    PassesOver needle .outside token.text.toList behind .outside := by
  cases stands with
  | @word name characters =>
      apply PassesOver.of_unquoted
      intro c member
      rcases characters c member with wordChar | sign
      · constructor
        · exact ne_of_isForeign foreign (by simp [isForeign, wordChar])
        · rintro rfl
          exact absurd wordChar (by decide)
      · simp only [isSign, Bool.or_eq_true, beq_iff_eq] at sign
        rcases sign with rfl | rfl <;> exact ⟨ne_of_isForeign foreign (by decide), by decide⟩
  | @quoted text quoted =>
      exact passesOver_of_quotedBefore (ne_of_isForeign foreign (by decide)).symm quoted clear
  | @single c token known =>
      rw [Token.text_of_ofChar? known]
      apply PassesOver.of_unquoted
      intro other member
      obtain rfl := List.mem_singleton.mp member
      constructor
      · exact ne_of_isForeign foreign (by simp [isForeign, known])
      · rintro rfl
        simp [Token.ofChar?] at known

theorem passesOver_of_spaces (foreign : isForeign needle = true) (text : List Char) :
    PassesOver needle .outside (text.takeWhile Token.isSpace) behind .outside := by
  apply PassesOver.of_unquoted
  intro c member
  have space : Token.isSpace c = true := List.mem_takeWhile_imp member
  constructor
  · exact ne_of_isForeign foreign (by simp [isForeign, space])
  · rintro rfl
    exact absurd space (by decide)

/-- The scan is outside quotes again behind a whole statement. -/
theorem passesOver_of_lex (foreign : isForeign needle = true)
    (ends : Token.endsLoneQuote behind.head? = true) {text : List Char} {tokens : List Token}
    (lexed : Token.lex text = .ok tokens) (clear : ∀ token ∈ tokens, token.misleads = false) :
    PassesOver needle .outside text behind .outside := by
  fun_induction Token.lex text generalizing tokens with
  | case1 text skipped =>
      rw [← List.takeWhile_append_dropWhile (p := Token.isSpace) (l := text), skipped,
        List.append_nil]
      exact passesOver_of_spaces foreign text
  | case2 => contradiction
  | case3 text c rest skipped token after found _ others further induction =>
      obtain rfl := Except.ok.inj lexed
      obtain ⟨joined, stands⟩ := Token.standsBefore_of_split? found
      rw [← List.takeWhile_append_dropWhile (p := Token.isSpace) (l := text), skipped, joined]
      apply PassesOver.append (passesOver_of_spaces foreign text)
      apply PassesOver.append
      · exact passesOver_of_standsBefore foreign (stands.append ends) (clear token (by simp))
      · exact induction further fun other member => clear other (by simp [member])
  | case4 => contradiction

end Statements

/-! ## What the scan finds -/

/--
The scan takes nothing in a statement for a comment or for the end of a label,
and cuts off every comment behind it.
-/
structure ScanAgrees (text : List Char) : Prop where
  noComment : cutUnquoted? ';' text = none
  noLabel : cutUnquoted? ':' text = none
  comment : ∀ comment, cutUnquoted? ';' (text ++ ';' :: comment) = some (text, comment)

/-- The scan agrees with the lexer about every statement without a text that misleads it. -/
theorem scanAgrees_of_lex {text : List Char} {tokens : List Token}
    (lexed : Token.lex text = .ok tokens) (clear : ∀ token ∈ tokens, token.misleads = false) :
    ScanAgrees text := by
  have nothing : ∀ needle, isForeign needle = true → cutUnquoted? needle text = none := by
    intro needle foreign
    have passes : PassesOver needle .outside text [] .outside :=
      passesOver_of_lex foreign rfl lexed clear
    rw [PassesOver, List.append_nil] at passes
    exact passes
  constructor
  · exact nothing ';' (by decide)
  · exact nothing ':' (by decide)
  · intro comment
    have passes : PassesOver ';' .outside text (';' :: comment) .outside :=
      passesOver_of_lex (by decide) rfl lexed clear
    rw [PassesOver] at passes
    rw [cutUnquoted?, passes]
    simp [cutFrom?]

theorem scanAgrees_of_lex_doubled :
    Token.lex "'it''s; ok:'".toList = .ok [.quoted "'it''s; ok:'"] ∧
      (∀ token ∈ [Token.quoted "'it''s; ok:'"], token.misleads = false) ∧
      ScanAgrees "'it''s; ok:'".toList := by
  have lexed : Token.lex "'it''s; ok:'".toList = .ok [.quoted "'it''s; ok:'"] :=
    Token.lex_quoted rfl
  have clear : ∀ token ∈ [Token.quoted "'it''s; ok:'"], token.misleads = false := by decide
  exact ⟨lexed, clear, scanAgrees_of_lex lexed clear⟩

/-! ## What misleads it -/

/-- A text between quotes in which a character stands right behind two doubled quotes. -/
def misleadingText (first : List Char) (c : Char) (second : List Char) : List Char :=
  '\'' :: (first ++ '\'' :: '\'' :: '\'' :: '\'' :: c :: (second ++ ['\'']))

section Misled

variable {first second : List Char} {c : Char}

theorem splitAfterQuote?_of_twoDoubled (unquoted : ∀ c ∈ first, c ≠ '\'') (rest : List Char) :
    Token.splitAfterQuote? (first ++ '\'' :: '\'' :: '\'' :: rest) =
      Token.splitQuoted? (first ++ '\'' :: '\'' :: '\'' :: rest) := by
  cases first with
  | nil => rfl
  | cons other first =>
      have noQuote : other ≠ '\'' := unquoted other (by simp)
      exact Token.splitAfterQuote?.eq_2 _ (by simp [noQuote])

/-- The whole text is a single token. -/
theorem lex_misleadingText (before : ∀ c ∈ first, c ≠ '\'') (noQuote : c ≠ '\'')
    (behind : ∀ c ∈ second, c ≠ '\'') :
    Token.lex (misleadingText first c second) =
      .ok [.quoted (String.ofList (misleadingText first c second))] := by
  have closes : Token.splitQuoted? (second ++ ['\'']) = some (second ++ ['\''], []) := by
    rw [Token.splitQuoted?_append behind]
    rfl
  have doubled : Token.splitQuoted? ('\'' :: '\'' :: '\'' :: '\'' :: c :: (second ++ ['\''])) =
      some ('\'' :: '\'' :: '\'' :: '\'' :: c :: (second ++ ['\'']), []) := by
    simp [Token.splitQuoted?, noQuote, closes]
  apply Token.lex_quoted
  rw [splitAfterQuote?_of_twoDoubled before, Token.splitQuoted?_append before, doubled]
  rfl

/-- The scan takes the character for one outside quotes. -/
theorem cutUnquoted?_misleadingText (before : ∀ c ∈ first, c ≠ '\'')
    (ends : Token.endsLoneQuote (some c) = true) :
    cutUnquoted? c (misleadingText first c second) =
      some ('\'' :: (first ++ ['\'', '\'', '\'', '\'']), second ++ ['\'']) := by
  have noQuote : '\'' ≠ c := by
    rintro rfl
    exact absurd ends (by decide)
  have opens : QuoteScan.startsLone
      (first ++ (['\'', '\'', '\'', '\''] ++ c :: (second ++ ['\'']))) = false := by
    cases first with
    | nil => rfl
    | cons other first => simp [QuoteScan.startsLone, before other (by simp)]
  have misled : PassesOver c .inside ['\'', '\'', '\'', '\'']
      (c :: (second ++ ['\''])) .outside := by
    apply PassesOver.cons (by simp)
    apply PassesOver.cons (fun _ => noQuote)
    have lone : QuoteScan.startsLone ('\'' :: '\'' :: c :: (second ++ ['\''])) = true := ends
    simp only [List.cons_append, List.nil_append, QuoteScan.next, if_true, lone]
    exact .cons nofun (.cons nofun .nil)
  have passes : PassesOver c .outside ('\'' :: (first ++ ['\'', '\'', '\'', '\'']))
      (c :: (second ++ ['\''])) .outside := by
    apply PassesOver.cons (fun _ => noQuote)
    rw [List.append_assoc, QuoteScan.next, if_pos rfl, opens]
    exact .append (passesOver_inside before) misled
  have shape : misleadingText first c second =
      ('\'' :: (first ++ ['\'', '\'', '\'', '\''])) ++ c :: (second ++ ['\'']) := by
    simp [misleadingText]
  unfold PassesOver at passes
  rw [shape, cutUnquoted?, passes]
  simp [cutFrom?]

end Misled

/-- A semicolon between quotes is taken for the start of a comment. -/
theorem not_scanAgrees_of_twoDoubled :
    Token.lex "'a'''';b'".toList = .ok [.quoted "'a'''';b'"] ∧
      ¬ ScanAgrees "'a'''';b'".toList := by
  have shape : "'a'''';b'".toList = misleadingText ['a'] ';' ['b'] := rfl
  rw [shape]
  constructor
  · exact lex_misleadingText (by simp) (by decide) (by simp)
  · intro agrees
    have taken : cutUnquoted? ';' (misleadingText ['a'] ';' ['b']) = some _ :=
      cutUnquoted?_misleadingText (by simp) (by decide)
    rw [agrees.noComment] at taken
    contradiction

end ClassroomCpu.Assembly
