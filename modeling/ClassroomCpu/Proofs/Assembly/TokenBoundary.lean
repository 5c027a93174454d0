import ClassroomCpu.Proofs.Assembly.TokenSpan

/-!
# Where tokens end

Which token stands in front of a text depends on how the text goes on: a name
ends where no further character of words follows, and has no offset only if
none follows; a minus sign is a token of its own if no name follows; the quote
character ends where no quoted text goes on.  A token is cut off in front of a
text exactly if it ends there, and no word at the same place is longer.
-/

namespace ClassroomCpu.Assembly.Token

/-! ## Names -/

/-- Letters, digits and underscores, and at least one of them. -/
structure IsName (name : List Char) : Prop where
  nonempty : name ≠ []
  characters : ∀ c ∈ name, isWordChar c = true

/-- A name does not go on into the text. -/
def EndsName (behind : List Char) : Prop :=
  ∀ c ∈ behind.head?, isWordChar c = false

/-- The text does not start with an offset. -/
def NoOffset (behind : List Char) : Prop :=
  ∀ sign rest, behind = sign :: rest → isSign sign = true → EndsName rest

/-- A name with or without an offset that ends in front of a text. -/
inductive NameBefore (behind : List Char) : List Char → Prop where
  | plain {name : List Char} :
      IsName name → EndsName behind → NoOffset behind → NameBefore behind name
  | offset {name other : List Char} {sign : Char} :
      IsName name → isSign sign = true → IsName other → EndsName behind →
        NameBefore behind (name ++ sign :: other)

theorem not_isWordChar_of_isSign {c : Char} (sign : isSign c = true) : isWordChar c = false := by
  simp only [isSign, Bool.or_eq_true, beq_iff_eq] at sign
  rcases sign with rfl | rfl <;> decide

theorem endsName_of_isSign {sign : Char} (isSigned : isSign sign = true) (behind : List Char) :
    EndsName (sign :: behind) := by
  intro c first
  obtain rfl := Option.some.inj first
  exact not_isWordChar_of_isSign isSigned

theorem isName_takeWhile {text : List Char} (some_taken : text.takeWhile isWordChar ≠ []) :
    IsName (text.takeWhile isWordChar) :=
  ⟨some_taken, fun _ member => List.mem_takeWhile_imp member⟩

theorem endsName_dropWhile (text : List Char) : EndsName (text.dropWhile isWordChar) := by
  intro c first
  have stops := List.head?_dropWhile_not isWordChar text
  rw [Option.mem_def.mp first] at stops
  simpa using stops

theorem splitOffset_of_noOffset {behind : List Char} (none : NoOffset behind) :
    splitOffset behind = ([], behind) := by
  cases behind with
  | nil => rfl
  | cons sign rest =>
      rw [splitOffset]
      apply if_neg
      intro signed
      obtain ⟨isSigned, taken⟩ := Bool.and_eq_true_iff.mp signed
      have ends := none sign rest rfl isSigned
      cases rest with
      | nil => simp at taken
      | cons c rest => simp [ends c rfl] at taken

theorem splitOffset_of_isName {sign : Char} {name behind : List Char} (isSigned : isSign sign = true)
    (isName : IsName name) (ends : EndsName behind) :
    splitOffset (sign :: (name ++ behind)) = (sign :: name, behind) := by
  obtain ⟨taken, dropped⟩ := takeWhile_append_of_ends isName.characters ends
  have signed : (sign == '+' || sign == '-') = true := isSigned
  simp [splitOffset, taken, dropped, signed, isName.nonempty]

theorem splitName?_of_nameBefore {name behind : List Char} (before : NameBefore behind name) :
    splitName? (name ++ behind) = some (name, behind) := by
  cases before with
  | plain isName ends noOffset =>
      obtain ⟨taken, dropped⟩ := takeWhile_append_of_ends isName.characters ends
      simp [splitName?, taken, dropped, splitOffset_of_noOffset noOffset, isName.nonempty]
  | @offset name other sign isName isSigned isOther ends =>
      obtain ⟨taken, dropped⟩ := takeWhile_append_of_ends isName.characters
        (endsName_of_isSign isSigned (other ++ behind))
      rw [List.append_assoc, List.cons_append]
      simp [splitName?, taken, dropped, splitOffset_of_isName isSigned isOther ends,
        isName.nonempty]

theorem nameBefore_of_splitOffset {name text offset rest : List Char} (isName : IsName name)
    (ends : EndsName text) (split : splitOffset text = (offset, rest)) :
    NameBefore rest (name ++ offset) := by
  cases text with
  | nil =>
      obtain ⟨rfl, rfl⟩ := Prod.mk.inj split
      rw [List.append_nil]
      exact .plain isName ends (by simp [NoOffset])
  | cons sign text =>
      rw [splitOffset] at split
      split at split
      · rename_i signed
        obtain ⟨isSigned, other⟩ := Bool.and_eq_true_iff.mp signed
        obtain ⟨rfl, rfl⟩ := Prod.mk.inj split
        apply NameBefore.offset isName isSigned
        · exact isName_takeWhile (by simpa using other)
        · exact endsName_dropWhile text
      · rename_i unsigned
        obtain ⟨rfl, rfl⟩ := Prod.mk.inj split
        rw [List.append_nil]
        apply NameBefore.plain isName ends
        rintro _ _ same isSigned c first
        obtain ⟨rfl, rfl⟩ := List.cons.inj same
        obtain ⟨further, rfl⟩ := List.head?_eq_some_iff.mp first
        have signed : (sign == '+' || sign == '-') = true := isSigned
        simpa [signed] using unsigned

theorem nameBefore_of_splitName? {text name rest : List Char}
    (split : splitName? text = some (name, rest)) : NameBefore rest name := by
  unfold splitName? at split
  split at split
  · contradiction
  · rename_i taken
    obtain ⟨rfl, rfl⟩ := Prod.mk.inj (Option.some.inj split)
    apply nameBefore_of_splitOffset
    · exact isName_takeWhile (by simpa using taken)
    · exact endsName_dropWhile text
    · exact (Prod.eta _).symm

/-! ## Words -/

/-- A word that ends in front of a text. -/
inductive WordBefore (behind : List Char) : List Char → Prop where
  | unsigned {name : List Char} : NameBefore behind name → WordBefore behind name
  | signed {name : List Char} : NameBefore behind name → WordBefore behind ('-' :: name)

theorem IsName.exists_cons {name : List Char} (isName : IsName name) :
    ∃ c rest, name = c :: rest ∧ isWordChar c = true := by
  obtain ⟨c, rest, rfl⟩ := List.exists_cons_of_ne_nil isName.nonempty
  exact ⟨c, rest, rfl, isName.characters c (by simp)⟩

theorem NameBefore.exists_cons {behind name : List Char} (before : NameBefore behind name) :
    ∃ c rest, name = c :: rest ∧ isWordChar c = true := by
  cases before with
  | plain isName _ _ => exact isName.exists_cons
  | offset isName _ _ _ =>
      obtain ⟨c, rest, rfl, wordChar⟩ := isName.exists_cons
      exact ⟨c, _, rfl, wordChar⟩

theorem WordBefore.exists_cons {behind word : List Char} (before : WordBefore behind word) :
    ∃ c rest, word = c :: rest ∧ (isWordChar c = true ∨ c = '-') := by
  cases before with
  | unsigned named =>
      obtain ⟨c, rest, shown, wordChar⟩ := named.exists_cons
      exact ⟨c, rest, shown, .inl wordChar⟩
  | signed named => exact ⟨_, _, rfl, .inr rfl⟩

theorem splitWord?_of_wordBefore {word behind : List Char} (before : WordBefore behind word) :
    splitWord? (word ++ behind) = some (word, behind) := by
  cases before with
  | unsigned named =>
      have cut := splitName?_of_nameBefore named
      obtain ⟨c, rest, rfl, wordChar⟩ := named.exists_cons
      have noMinus : c ≠ '-' := by
        rintro rfl
        exact absurd wordChar (by decide)
      rw [List.cons_append] at cut ⊢
      rw [splitWord?.eq_2 _ (by simp [noMinus]), cut]
  | signed named =>
      rw [List.cons_append, splitWord?, splitName?_of_nameBefore named]
      rfl

theorem wordBefore_of_splitWord? {text word rest : List Char}
    (split : splitWord? text = some (word, rest)) : WordBefore rest word := by
  unfold splitWord? at split
  split at split
  · obtain ⟨⟨name, behind⟩, found, same⟩ := Option.map_eq_some_iff.mp split
    obtain ⟨rfl, rfl⟩ := Prod.mk.inj same
    exact .signed (nameBefore_of_splitName? found)
  · exact .unsigned (nameBefore_of_splitName? split)

/-! ## Quoted texts -/

theorem splitQuoted?_of_quotedRest {inner behind : List Char} (quoted : QuotedRest inner)
    (unquoted : behind.head? ≠ some '\'') :
    splitQuoted? (inner ++ behind) = some (inner, behind) := by
  induction quoted with
  | close =>
      cases behind with
      | nil => rfl
      | cons c behind =>
          have noQuote : c ≠ '\'' := by simpa using unquoted
          rw [List.singleton_append, splitQuoted?.eq_3 _ (by simp [noQuote])]
  | doubled further induction =>
      rw [List.cons_append, List.cons_append, splitQuoted?, induction]
      rfl
  | other notQuote further induction =>
      rw [List.cons_append, splitQuoted?.eq_4 _ _ (by simp [notQuote]) notQuote, induction]
      rfl

theorem QuotedBefore.exists_cons {behind text : List Char} (quoted : QuotedBefore behind text) :
    ∃ inner, text = '\'' :: inner := by
  cases quoted with
  | quoteCharacter _ => exact ⟨_, rfl⟩
  | closed _ _ _ => exact ⟨_, rfl⟩

theorem splitAfterQuote?_of_quotedBefore {inner behind : List Char}
    (quoted : QuotedBefore behind ('\'' :: inner)) :
    splitAfterQuote? (inner ++ behind) = some (inner, behind) := by
  cases quoted with
  | quoteCharacter ends => simp [splitAfterQuote?, ends]
  | closed closed notLone unquoted =>
      have cut := splitQuoted?_of_quotedRest closed unquoted
      cases closed with
      | close =>
          rw [splitAfterQuote?.eq_2 _ ?_]
          · exact cut
          · rintro rest same
            rw [List.singleton_append] at same
            rw [(List.cons.inj same).2] at unquoted
            exact unquoted rfl
      | @doubled rest further =>
          have opens := notLone rest rfl
          obtain ⟨c, more, rfl⟩ := List.exists_cons_of_ne_nil further.ne_nil
          have lone : endsLoneQuote ((c :: more) ++ behind).head? = false := opens
          rw [List.cons_append, List.cons_append, splitAfterQuote?, lone]
          exact cut
      | other notQuote further =>
          rw [splitAfterQuote?.eq_2 _ (by simp [notQuote])]
          exact cut

/-! ## Tokens -/

/-- A token that ends in front of a text. -/
inductive CutBefore (behind : List Char) : Token → Prop where
  | word {text : String} : WordBefore behind text.toList → CutBefore behind (.word text)
  | quoted {text : String} : QuotedBefore behind text.toList → CutBefore behind (.quoted text)
  | minus : EndsName behind → CutBefore behind .minus
  | symbol {c : Char} {token : Token} :
      ofChar? c = some token → c ≠ '-' → CutBefore behind token

theorem symbol_of_ofChar? {c : Char} {token : Token} (single : ofChar? c = some token) :
    isWordChar c = false ∧ c ≠ '\'' ∧ isSpace c = false := by
  unfold ofChar? at single
  repeat' split at single
  all_goals
    first
    | contradiction
    | subst c
      decide

theorem endsName_of_splitWord?_eq_none {text : List Char} (stuck : splitWord? ('-' :: text) = none) :
    EndsName text := by
  have noName : splitName? text = none := Option.map_eq_none_iff.mp stuck
  intro c first
  obtain ⟨rest, rfl⟩ := List.head?_eq_some_iff.mp first
  cases wordChar : isWordChar c with
  | false => rfl
  | true => simp [splitName?, wordChar] at noName

theorem cutBefore_of_split? {text rest : List Char} {token : Token}
    (split : split? text = some (token, rest)) : CutBefore rest token := by
  cases text with
  | nil => contradiction
  | cons c text =>
      rw [split?] at split
      split at split
      · rename_i name behind found
        obtain ⟨rfl, rfl⟩ := Prod.mk.inj (Option.some.inj split)
        apply CutBefore.word
        simpa using wordBefore_of_splitWord? found
      rename_i noWord
      split at split
      · obtain ⟨⟨inner, behind⟩, found, same⟩ := Option.map_eq_some_iff.mp split
        obtain ⟨rfl, rfl⟩ := Prod.mk.inj same
        apply CutBefore.quoted
        simpa using (quotedBefore_of_splitAfterQuote? found).2
      · obtain ⟨single, known, same⟩ := Option.map_eq_some_iff.mp split
        obtain ⟨rfl, rfl⟩ := Prod.mk.inj same
        by_cases minus : c = '-'
        · subst minus
          obtain rfl := Option.some.inj known
          exact .minus (endsName_of_splitWord?_eq_none noWord)
        · exact .symbol known minus

theorem split?_of_cutBefore {behind : List Char} {token : Token} (cut : CutBefore behind token) :
    split? (token.text.toList ++ behind) = some (token, behind) := by
  cases cut with
  | @word text before =>
      have found := splitWord?_of_wordBefore before
      obtain ⟨c, rest, shown, _⟩ := before.exists_cons
      have same : String.ofList (c :: rest) = text := by rw [← shown, String.ofList_toList]
      rw [shown, List.cons_append] at found
      simp [Token.text, shown, split?, found, same]
  | @quoted text before =>
      obtain ⟨inner, shown⟩ := before.exists_cons
      rw [shown] at before
      have same : String.ofList ('\'' :: inner) = text := by rw [← shown, String.ofList_toList]
      have noWord : splitWord? ('\'' :: (inner ++ behind)) = none := by
        rw [splitWord?.eq_2 _ (by simp)]
        exact splitName?_eq_none (by simp; decide)
      simp only [Token.text, shown, List.cons_append, split?, noWord, if_true,
        splitAfterQuote?_of_quotedBefore before, Option.map_some, same]
  | minus ends => exact split?_of_char (by decide) rfl fun _ => ends
  | @symbol c token known noMinus =>
      obtain ⟨noWordChar, noQuote, _⟩ := symbol_of_ofChar? known
      rw [text_of_ofChar? known, List.singleton_append]
      exact split?_of_char ⟨noWordChar, noQuote⟩ known fun minus => absurd minus noMinus

/-- A token is cut off a text exactly if it ends in front of what is left. -/
theorem split?_eq_some_iff {text rest : List Char} {token : Token} :
    split? text = some (token, rest) ↔
      text = token.text.toList ++ rest ∧ CutBefore rest token := by
  constructor
  · intro split
    exact ⟨(standsBefore_of_split? split).1, cutBefore_of_split? split⟩
  · rintro ⟨rfl, cut⟩
    exact split?_of_cutBefore cut

/-! ## No word is longer -/

section Longest

variable {behind further : List Char}

theorem length_le_of_isName {name other : List Char} (ends : EndsName behind)
    (characters : ∀ c ∈ other, isWordChar c = true) (same : name ++ behind = other ++ further) :
    other.length ≤ name.length := by
  rcases List.append_eq_append_iff.mp same with ⟨rest, longer, shown⟩ | ⟨rest, shorter, _⟩
  · cases rest with
    | nil => simp [longer]
    | cons c rest =>
        have goesOn : isWordChar c = true := characters c (by simp [longer])
        have stops : isWordChar c = false := ends c (by simp [shown])
        rw [goesOn] at stops
        contradiction
  · simp [shorter]

/-- Names in front of the same text are the same, if neither goes on. -/
theorem eq_of_isName {name other : List Char} (isName : IsName name) (isOther : IsName other)
    (ends : EndsName behind) (otherEnds : EndsName further)
    (same : name ++ behind = other ++ further) : name = other ∧ behind = further := by
  apply List.append_inj same
  apply Nat.le_antisymm
  · exact length_le_of_isName otherEnds isName.characters same.symm
  · exact length_le_of_isName ends isOther.characters same

theorem NameBefore.length_le {name other : List Char} (before : NameBefore behind name)
    (alone : NameBefore [] other) (same : name ++ behind = other ++ further) :
    other.length ≤ name.length := by
  cases before with
  | plain isName ends noOffset =>
      cases alone with
      | plain isOther _ _ => exact length_le_of_isName ends isOther.characters same
      | offset isOther isSigned isOffset _ =>
          rw [List.append_assoc, List.cons_append] at same
          obtain ⟨_, rfl⟩ := eq_of_isName isName isOther ends (endsName_of_isSign isSigned _) same
          obtain ⟨c, rest, rfl, goesOn⟩ := isOffset.exists_cons
          have stops := noOffset _ _ rfl isSigned c rfl
          rw [goesOn] at stops
          contradiction
  | offset isName isSigned _ ends =>
      rw [List.append_assoc, List.cons_append] at same
      cases alone with
      | plain isOther _ _ =>
          have shorter := length_le_of_isName (endsName_of_isSign isSigned _) isOther.characters same
          simp only [List.length_append]
          omega
      | offset isOther isOtherSigned isOffset _ =>
          rw [List.append_assoc, List.cons_append] at same
          obtain ⟨rfl, behindSame⟩ := eq_of_isName isName isOther
            (endsName_of_isSign isSigned _) (endsName_of_isSign isOtherSigned _) same
          have shorter :=
            length_le_of_isName ends isOffset.characters (List.cons.inj behindSame).2
          simp only [List.length_append, List.length_cons]
          omega

theorem NameBefore.not_minus {name rest : List Char} (before : NameBefore behind name) :
    name ++ further ≠ '-' :: rest := by
  obtain ⟨c, tail, rfl, wordChar⟩ := before.exists_cons
  intro same
  obtain rfl := (List.cons.inj same).1
  exact absurd wordChar (by decide)

theorem WordBefore.length_le {word other : List Char} (before : WordBefore behind word)
    (alone : WordBefore [] other) (same : word ++ behind = other ++ further) :
    other.length ≤ word.length := by
  cases before with
  | unsigned named =>
      cases alone with
      | unsigned otherNamed => exact named.length_le otherNamed same
      | signed _ => exact absurd same named.not_minus
  | signed named =>
      cases alone with
      | unsigned otherNamed => exact absurd same.symm otherNamed.not_minus
      | signed otherNamed =>
          exact Nat.succ_le_succ (named.length_le otherNamed (List.cons.inj same).2)

/-- No word at the start of a text is longer than the token that is cut off. -/
theorem length_le_of_split? {text rest word : List Char} {token : Token}
    (split : split? text = some (token, rest)) (alone : WordBefore [] word)
    (starts : word <+: text) : word.length ≤ token.text.toList.length := by
  obtain ⟨joined, cut⟩ := split?_eq_some_iff.mp split
  obtain ⟨further, rfl⟩ := starts
  cases cut with
  | word before => exact before.length_le alone joined.symm
  | quoted before =>
      obtain ⟨inner, shown⟩ := before.exists_cons
      obtain ⟨c, tail, rfl, wordChar⟩ := alone.exists_cons
      rw [Token.text, shown] at joined
      obtain rfl := (List.cons.inj joined).1
      exact absurd wordChar (by decide)
  | minus ends =>
      cases alone with
      | unsigned named => exact absurd joined named.not_minus
      | signed named =>
          obtain ⟨c, tail, rfl, goesOn⟩ := named.exists_cons
          have shown : c :: (tail ++ further) = rest := (List.cons.inj joined).2
          have stops := ends c (by rw [← shown]; rfl)
          rw [goesOn] at stops
          contradiction
  | symbol known noMinus =>
      obtain ⟨noWordChar, _, _⟩ := symbol_of_ofChar? known
      obtain ⟨c, tail, rfl, wordChar⟩ := alone.exists_cons
      rw [text_of_ofChar? known] at joined
      obtain rfl := (List.cons.inj joined).1
      simp [noWordChar, noMinus] at wordChar

end Longest

end ClassroomCpu.Assembly.Token
