import ClassroomCpu.Assembly.SourceLine
import ClassroomCpu.Proofs.Text.Ascii
import ClassroomCpu.Proofs.Text.Utf8

/-!
# Scans over bytes

Comments, labels and the ends of quoted texts can be found byte by byte, with
no regard to where characters end: what is looked for is in ASCII, and none of
the bytes of other characters is.  The places that are found are then places of
characters.
-/

namespace ClassroomCpu.Assembly.ByteScan

open Text

/-! ## The scans -/

/-- The byte of a single quote. -/
def quote : UInt8 :=
  asciiByte '\''

/-- Whether a byte is that of a letter or a digit. -/
def isAlphanum (byte : UInt8) : Bool :=
  let code := byte.toNat
  (48 ≤ code && code ≤ 57) || (65 ≤ code && code ≤ 90) || (97 ≤ code && code ≤ 122)

/-- Whether three quotes are the quote character in front of a byte. -/
def endsLoneQuote : Option UInt8 → Bool
  | some byte => !isAlphanum byte && byte != quote
  | none => true

/-- Whether a quote and the bytes behind it start with three quotes that are the quote character. -/
def startsLone : List UInt8 → Bool
  | first :: second :: rest => first == quote && second == quote && endsLoneQuote rest.head?
  | _ => false

/-- The place of the first needle outside quotes; the given number of bytes is passed over. -/
def find? (needle : UInt8) : (quoted : Bool) → (passed : Nat) → List UInt8 → Option Nat
  | _, _, [] => none
  | quoted, passed + 1, _ :: rest => (find? needle quoted passed rest).map (· + 1)
  | quoted, 0, byte :: rest =>
      if byte = quote then
        if !quoted && startsLone rest then (find? needle false 2 rest).map (· + 1)
        else (find? needle (!quoted) 0 rest).map (· + 1)
      else if byte = needle && !quoted then some 0
      else (find? needle quoted 0 rest).map (· + 1)

/--
The place behind the quote that ends a text; doubled quotes do not end it, and
the second one of two is passed over.
-/
def textEnd? : (passing : Bool) → List UInt8 → Option Nat
  | _, [] => none
  | true, _ :: rest => (textEnd? false rest).map (· + 1)
  | false, byte :: rest =>
      if byte = quote then
        if rest.head? = some quote then (textEnd? true rest).map (· + 1) else some 1
      else (textEnd? false rest).map (· + 1)

/-- The place where a quoted text ends, from behind its opening quote on. -/
def quotedEnd? (rest : List UInt8) : Option Nat :=
  if startsLone rest then some 2 else textEnd? false rest

/-! ## Bytes at the start of a text -/

theorem asciiByte_ne {c : Char} (ascii : c.toNat < 128) {byte : UInt8} (high : 128 ≤ byte.toNat) :
    byte ≠ asciiByte c := by
  rintro rfl
  rw [toNat_asciiByte ascii] at high
  omega

/-- A text starts with the byte of a character of ASCII if it starts with the character. -/
theorem head?_bytes {c : Char} (ascii : c.toNat < 128) (text : List Char) :
    (bytes text).head? = some (asciiByte c) ↔ text.head? = some c := by
  cases text with
  | nil => simp
  | cons first rest =>
      by_cases firstAscii : first.toNat < 128
      · simp [bytes_cons_of_ascii firstAscii, asciiByte_inj firstAscii ascii]
      · obtain ⟨byte, others, given⟩ :=
          List.exists_cons_of_ne_nil (String.utf8EncodeChar_ne_nil (c := first))
        have high := high_of_not_ascii firstAscii byte (by simp [given])
        have apart : first ≠ c := by
          rintro rfl
          exact firstAscii ascii
        simp [bytes_cons, given, asciiByte_ne ascii high, apart]

theorem bytes_quote (rest : List Char) : bytes ('\'' :: rest) = quote :: bytes rest :=
  bytes_cons_of_ascii (by decide) rest

theorem isAlphanum_asciiByte {c : Char} (ascii : c.toNat < 128) :
    isAlphanum (asciiByte c) = c.isAlphanum :=
  ascii_cases (motive := fun c => isAlphanum (asciiByte c) = c.isAlphanum) (by decide) ascii

theorem isAlphanum_high {byte : UInt8} (high : 128 ≤ byte.toNat) : isAlphanum byte = false := by
  simp only [isAlphanum, Bool.or_eq_false_iff, Bool.and_eq_false_iff, decide_eq_false_iff_not]
  omega

/-- The byte behind three quotes tells what the character behind them does. -/
theorem endsLoneQuote_bytes (text : List Char) :
    endsLoneQuote (bytes text).head? = Token.endsLoneQuote text.head? := by
  cases text with
  | nil => rfl
  | cons c rest =>
      by_cases ascii : c.toNat < 128
      · have quotes : (asciiByte c != quote) = (c != '\'') := by
          rw [bne, bne, Bool.eq_iff_iff]
          simp [quote, asciiByte_inj ascii (show '\''.toNat < 128 by decide)]
        simp [bytes_cons_of_ascii ascii, endsLoneQuote, Token.endsLoneQuote,
          isAlphanum_asciiByte ascii, quotes]
      · obtain ⟨byte, others, given⟩ :=
          List.exists_cons_of_ne_nil (String.utf8EncodeChar_ne_nil (c := c))
        have high := high_of_not_ascii ascii byte (by simp [given])
        have noQuote : c ≠ '\'' := by
          rintro rfl
          exact ascii (by decide)
        have noAlphanum : c.isAlphanum = false := by
          cases alphanum : c.isAlphanum with
          | false => rfl
          | true => exact absurd (isLabelChar_ascii (by simp [isLabelChar, alphanum])) ascii
        have noQuoteByte : byte ≠ quote := asciiByte_ne (by decide) high
        simp [bytes_cons, given, endsLoneQuote, Token.endsLoneQuote, isAlphanum_high high,
          noAlphanum, bne, beq_eq_false_iff_ne.mpr noQuoteByte, beq_eq_false_iff_ne.mpr noQuote]

theorem startsLone_bytes (text : List Char) :
    startsLone (bytes text) = QuoteScan.startsLone text := by
  unfold QuoteScan.startsLone
  split
  · rename_i rest
    simp [startsLone, bytes_quote, endsLoneQuote_bytes]
  · rename_i notLone
    unfold startsLone
    split
    · rename_i first second behind given
      -- Two quotes at the start of the bytes would be two at the start of the text.
      have notBoth : (first == quote && second == quote) = false := by
        rw [Bool.eq_false_iff, Ne, Bool.and_eq_true, beq_iff_eq, beq_iff_eq]
        rintro ⟨rfl, rfl⟩
        have quoteFirst := (head?_bytes (c := '\'') (by decide) text).mp (by rw [given]; rfl)
        obtain ⟨rest, rfl⟩ := List.head?_eq_some_iff.mp quoteFirst
        rw [bytes_quote, List.cons.injEq] at given
        have quoteSecond := (head?_bytes (c := '\'') (by decide) rest).mp (by rw [given.2]; rfl)
        obtain ⟨more, rfl⟩ := List.head?_eq_some_iff.mp quoteSecond
        exact notLone more rfl
      rw [notBoth, Bool.false_and]
    · rfl

/-! ## Where a scan stands -/

/-- Whether a scan stands between quotes, as the scan over bytes knows it. -/
def isQuoted : QuoteScan → Bool
  | .inside => true
  | .outside | .loneSecond | .loneThird => false

/-- The number of quotes that a scan still passes over. -/
def passed : QuoteScan → Nat
  | .inside | .outside => 0
  | .loneSecond => 2
  | .loneThird => 1

/-- In front of quotes that a scan passes over there are such quotes. -/
def Fits : QuoteScan → List Char → Prop
  | .inside, _ | .outside, _ => True
  | .loneSecond, text => ∃ rest, text = '\'' :: '\'' :: rest
  | .loneThird, text => ∃ rest, text = '\'' :: rest

theorem Fits.next {scan : QuoteScan} {c : Char} {rest : List Char} (fits : Fits scan (c :: rest)) :
    Fits (scan.next c rest) rest := by
  cases scan with
  | outside =>
      unfold QuoteScan.next
      dsimp only
      split
      · split
        · rename_i lone
          unfold QuoteScan.startsLone at lone
          split at lone
          · exact ⟨_, rfl⟩
          · contradiction
        · trivial
      · trivial
  | inside =>
      unfold QuoteScan.next
      dsimp only
      split <;> trivial
  | loneSecond =>
      obtain ⟨more, same⟩ := fits
      exact ⟨more, (List.cons.inj same).2⟩
  | loneThird => trivial

/-! ## Comments and labels -/

section Needle

variable {needle : Char} (ascii : needle.toNat < 128)
include ascii

/-- Characters outside ASCII are passed over byte by byte. -/
theorem find?_high {quoted : Bool} {front : List UInt8} (high : ∀ byte ∈ front, 128 ≤ byte.toNat)
    (rest : List UInt8) :
    find? (asciiByte needle) quoted 0 (front ++ rest) =
      (find? (asciiByte needle) quoted 0 rest).map (· + front.length) := by
  induction front with
  | nil => simp
  | cons byte front induction =>
      have here := high byte (by simp)
      have later := induction fun other member => high other (by simp [member])
      have notQuote : byte ≠ quote := asciiByte_ne (by decide) here
      rw [List.cons_append, find?, if_neg notQuote, later, Option.map_map]
      simp [asciiByte_ne ascii here, Function.comp_def, Nat.add_assoc]

/-- What the scan over bytes does with a character at which nothing is cut. -/
theorem find?_cons {scan : QuoteScan} {c : Char} {rest : List Char}
    (fits : Fits scan (c :: rest)) (uncut : ¬ (scan = .outside ∧ c = needle)) :
    find? (asciiByte needle) (isQuoted scan) (passed scan) (bytes (c :: rest)) =
      (find? (asciiByte needle) (isQuoted (scan.next c rest)) (passed (scan.next c rest))
        (bytes rest)).map (· + (String.utf8EncodeChar c).length) := by
  by_cases cAscii : c.toNat < 128
  · have needleByte : asciiByte c = asciiByte needle ↔ c = needle := asciiByte_inj cAscii ascii
    have quoteByte : (asciiByte c = quote) = (c = '\'') :=
      propext (asciiByte_inj cAscii (by decide))
    rw [bytes_cons_of_ascii cAscii, utf8EncodeChar_of_ascii cAscii]
    cases scan with
    | outside =>
        have notNeedle : asciiByte c ≠ asciiByte needle :=
          fun same => uncut ⟨rfl, needleByte.mp same⟩
        simp only [isQuoted, passed, find?, quoteByte, QuoteScan.next, startsLone_bytes]
        split
        · cases QuoteScan.startsLone rest <;> rfl
        · simp [notNeedle]
    | inside =>
        simp only [isQuoted, passed, find?, quoteByte, QuoteScan.next]
        split <;> simp
    | loneSecond => simp [find?, isQuoted, passed, QuoteScan.next]
    | loneThird => simp [find?, isQuoted, passed, QuoteScan.next]
  · have apart : c ≠ '\'' := by
      rintro rfl
      exact cAscii (by decide)
    have high : ∀ quoted,
        find? (asciiByte needle) quoted 0 (String.utf8EncodeChar c ++ bytes rest) =
          (find? (asciiByte needle) quoted 0 (bytes rest)).map
            (· + (String.utf8EncodeChar c).length) :=
      fun _ => find?_high ascii (high_of_not_ascii cAscii) (bytes rest)
    cases scan with
    | outside => simpa [isQuoted, passed, QuoteScan.next, apart, bytes_cons] using high false
    | inside => simpa [isQuoted, passed, QuoteScan.next, apart, bytes_cons] using high true
    | loneSecond =>
        obtain ⟨more, same⟩ := fits
        exact absurd (List.cons.inj same).1 apart
    | loneThird =>
        obtain ⟨more, same⟩ := fits
        exact absurd (List.cons.inj same).1 apart

theorem find?_bytes_of_fits (noQuote : needle ≠ '\'') {scan : QuoteScan} {text : List Char}
    (fits : Fits scan text) :
    find? (asciiByte needle) (isQuoted scan) (passed scan) (bytes text) =
      (cutFrom? needle scan text).map fun cut => (bytes cut.1).length := by
  induction text generalizing scan with
  | nil => rfl
  | cons c rest induction =>
      by_cases cut : scan = .outside ∧ c = needle
      · obtain ⟨rfl, rfl⟩ := cut
        have notQuote : asciiByte c ≠ quote :=
          fun same => noQuote ((asciiByte_inj ascii (by decide)).mp same)
        simp [bytes_cons_of_ascii ascii, find?, isQuoted, passed, cutFrom?, notQuote]
      · rw [find?_cons ascii fits cut, induction fits.next, cutFrom?, if_neg cut,
          Option.map_map, Option.map_map]
        congr 1
        funext pieces
        simp [bytes_cons, Nat.add_comm]

/-- The scan over bytes finds the place at which the text is cut. -/
theorem find?_bytes (noQuote : needle ≠ '\'') (text : List Char) :
    find? (asciiByte needle) false 0 (bytes text) =
      (cutUnquoted? needle text).map fun cut => (bytes cut.1).length := by
  have fits : Fits .outside text := trivial
  exact find?_bytes_of_fits ascii noQuote fits

omit ascii in
/-- The needle itself stands between the two pieces of a text. -/
theorem eq_append_of_cutFrom? {scan : QuoteScan} {text front behind : List Char}
    (cut : cutFrom? needle scan text = some (front, behind)) :
    text = front ++ needle :: behind := by
  induction text generalizing scan front with
  | nil => simp [cutFrom?] at cut
  | cons c rest induction =>
      rw [cutFrom?] at cut
      split at cut
      · rename_i here
        simp only [Option.some.injEq, Prod.mk.injEq] at cut
        obtain ⟨rfl, rfl⟩ := cut
        rw [here.2]
        rfl
      · obtain ⟨⟨deeper, after⟩, found, same⟩ := Option.map_eq_some_iff.mp cut
        simp only [Prod.mk.injEq] at same
        obtain ⟨rfl, rfl⟩ := same
        rw [induction found]
        rfl

end Needle

/-! ## Quoted texts -/

theorem textEnd?_high {front : List UInt8} (high : ∀ byte ∈ front, 128 ≤ byte.toNat)
    (rest : List UInt8) :
    textEnd? false (front ++ rest) = (textEnd? false rest).map (· + front.length) := by
  induction front with
  | nil => simp
  | cons byte front induction =>
      have notQuote : byte ≠ quote := asciiByte_ne (by decide) (high byte (by simp))
      have later := induction fun other member => high other (by simp [member])
      rw [List.cons_append, textEnd?, if_neg notQuote, later, Option.map_map]
      simp [Function.comp_def, Nat.add_assoc]

theorem textEnd?_bytes (text : List Char) :
    textEnd? false (bytes text) =
      (Token.splitQuoted? text).map fun cut => (bytes cut.1).length := by
  fun_induction Token.splitQuoted? text with
  | case1 => rfl
  | case2 rest induction =>
      simp [bytes_quote, textEnd?, induction, Function.comp_def]
  | case3 rest single =>
      have notDoubled : (bytes rest).head? ≠ some quote := by
        intro quoteByte
        have quoteNext := (head?_bytes (c := '\'') (by decide) rest).mp quoteByte
        obtain ⟨more, rfl⟩ := List.head?_eq_some_iff.mp quoteNext
        exact single more rfl
      simp [bytes_quote, textEnd?, notDoubled]
  | case4 c rest notDoubled notQuote induction =>
      rw [bytes_cons]
      by_cases ascii : c.toNat < 128
      · have notByte : asciiByte c ≠ quote :=
          fun same => notQuote ((asciiByte_inj ascii (by decide)).mp same)
        simp [utf8EncodeChar_of_ascii ascii, textEnd?, notByte, induction, Function.comp_def,
          bytes_cons]
      · rw [textEnd?_high (high_of_not_ascii ascii), induction, Option.map_map, Option.map_map]
        congr 1
        funext pieces
        simp [bytes_cons, Nat.add_comm]

/-- The scan over bytes finds the end of the quoted text that the lexer finds. -/
theorem quotedEnd?_bytes (text : List Char) :
    quotedEnd? (bytes text) =
      (Token.splitAfterQuote? text).map fun cut => (bytes cut.1).length := by
  rw [quotedEnd?, startsLone_bytes, textEnd?_bytes]
  unfold QuoteScan.startsLone
  split
  · rw [Token.splitAfterQuote?]
    split <;> rfl
  · rename_i notLone
    rw [Token.splitAfterQuote?.eq_2 _ notLone]
    rfl

end ClassroomCpu.Assembly.ByteScan
