/-!
# Texts as bytes

A text in UTF-8 is a row of bytes, and a place in it is told by the number of
bytes in front.  Not every number is the place of a character: a text can only
be cut where a character ends.  Characters of ASCII are single bytes, and no
byte of another character looks like one of them.
-/

namespace ClassroomCpu.Text

/-- The bytes of a text. -/
def bytes (text : List Char) : List UInt8 :=
  text.flatMap String.utf8EncodeChar

/-- The byte of a character of ASCII. -/
def asciiByte (c : Char) : UInt8 :=
  UInt8.ofNat c.toNat

/-- Cuts a text behind a number of bytes, unless these end inside a character or are too many. -/
def cutAt? : List Char → Nat → Option (List Char × List Char)
  | text, 0 => some ([], text)
  | [], _ + 1 => none
  | c :: rest, position + 1 =>
      if c.utf8Size ≤ position + 1 then
        (cutAt? rest (position + 1 - c.utf8Size)).map fun (front, behind) => (c :: front, behind)
      else none

/-! ## Bytes of characters -/

@[simp] theorem bytes_nil : bytes [] = [] := rfl

theorem bytes_cons (c : Char) (rest : List Char) :
    bytes (c :: rest) = String.utf8EncodeChar c ++ bytes rest :=
  List.flatMap_cons

theorem bytes_append (front behind : List Char) :
    bytes (front ++ behind) = bytes front ++ bytes behind :=
  List.flatMap_append

/-- These are the bytes in which the text is stored. -/
theorem toList_toByteArray (text : List Char) :
    (String.ofList text).toByteArray.data.toList = bytes text := by
  rw [String.toByteArray_ofList, List.utf8Encode, List.data_toByteArray]
  rfl

theorem utf8EncodeChar_of_ascii {c : Char} (ascii : c.toNat < 128) :
    String.utf8EncodeChar c = [asciiByte c] := by
  have low : c.val.toNat ≤ 127 := Nat.le_of_lt_succ ascii
  simp only [String.utf8EncodeChar, if_pos low]
  rfl

theorem bytes_cons_of_ascii {c : Char} (ascii : c.toNat < 128) (rest : List Char) :
    bytes (c :: rest) = asciiByte c :: bytes rest := by
  rw [bytes_cons, utf8EncodeChar_of_ascii ascii]
  rfl

theorem toNat_asciiByte {c : Char} (ascii : c.toNat < 128) : (asciiByte c).toNat = c.toNat := by
  rw [asciiByte, UInt8.toNat_ofNat']
  exact Nat.mod_eq_of_lt (by omega)

theorem asciiByte_inj {c other : Char} (ascii : c.toNat < 128) (otherAscii : other.toNat < 128) :
    asciiByte c = asciiByte other ↔ c = other := by
  constructor
  · intro same
    have numbers := congrArg UInt8.toNat same
    rw [toNat_asciiByte ascii, toNat_asciiByte otherAscii] at numbers
    rw [← Char.ofNat_toNat c, ← Char.ofNat_toNat other, numbers]
  · exact congrArg asciiByte

theorem toNat_ofNat_high {number : Nat} (least : 128 ≤ number) (most : number < 256) :
    128 ≤ (UInt8.ofNat number).toNat := by
  rw [UInt8.toNat_ofNat', Nat.mod_eq_of_lt most]
  exact least

/-- All bytes of a character outside ASCII are high. -/
theorem high_of_not_ascii {c : Char} (foreign : ¬ c.toNat < 128) :
    ∀ byte ∈ String.utf8EncodeChar c, 128 ≤ byte.toNat := by
  have notLow : ¬ c.val.toNat ≤ 127 := fun low => foreign (Nat.lt_succ_of_le low)
  simp only [String.utf8EncodeChar, if_neg notLow]
  repeat' split
  all_goals
    simp only [List.forall_mem_cons, List.not_mem_nil, false_implies, implies_true, and_true]
    repeat' apply And.intro
  all_goals exact toNat_ofNat_high (by omega) (by omega)

/-! ## Places in a text -/

/-- A text can be cut behind every part in front. -/
theorem cutAt?_append (front behind : List Char) :
    cutAt? (front ++ behind) (bytes front).length = some (front, behind) := by
  induction front with
  | nil => cases behind <;> rfl
  | cons c front induction =>
      have size : (bytes (c :: front)).length = c.utf8Size + (bytes front).length := by
        rw [bytes_cons, List.length_append, String.length_utf8EncodeChar]
      obtain ⟨number, next⟩ : ∃ number, c.utf8Size + (bytes front).length = number + 1 :=
        Nat.exists_eq_succ_of_ne_zero (by have positive := c.utf8Size_pos; omega)
      rw [List.cons_append, size, next, cutAt?, if_pos (by omega), ← next,
        Nat.add_sub_cancel_left, induction]
      rfl

/-- A text that starts with a character of ASCII can be cut behind it. -/
theorem cutAt?_one {c : Char} (ascii : c.toNat < 128) (rest : List Char) :
    cutAt? (c :: rest) 1 = some ([c], rest) := by
  have cut := cutAt?_append [c] rest
  rwa [bytes_cons_of_ascii ascii] at cut

/-- What is cut in two makes up the text, and the bytes in front are as many as was said. -/
theorem eq_append_of_cutAt? {text front behind : List Char} {position : Nat}
    (cut : cutAt? text position = some (front, behind)) :
    text = front ++ behind ∧ position = (bytes front).length := by
  fun_induction cutAt? text position generalizing front behind with
  | case1 =>
      simp only [Option.some.injEq, Prod.mk.injEq] at cut
      obtain ⟨rfl, rfl⟩ := cut
      exact ⟨rfl, rfl⟩
  | case2 => contradiction
  | case3 c rest position fits induction =>
      obtain ⟨⟨deeper, after⟩, found, same⟩ := Option.map_eq_some_iff.mp cut
      simp only [Prod.mk.injEq] at same
      obtain ⟨rfl, rfl⟩ := same
      obtain ⟨rfl, size⟩ := induction found
      refine ⟨rfl, ?_⟩
      rw [bytes_cons, List.length_append, String.length_utf8EncodeChar, ← size]
      omega
  | case4 => contradiction

/-- A text can be cut exactly at the places of its characters and at its end. -/
theorem isSome_cutAt?_iff (text : List Char) (position : Nat) :
    (cutAt? text position).isSome = true ↔
      String.Pos.Raw.IsValid (String.ofList text) ⟨position⟩ := by
  have endOf : ∀ front : List Char,
      (String.ofList front).rawEndPos = ⟨(bytes front).length⟩ := by
    intro front
    rw [← toList_toByteArray, Array.length_toList]
    rfl
  rw [String.Pos.Raw.isValid_iff_exists_append]
  constructor
  · intro cuts
    obtain ⟨⟨front, behind⟩, cut⟩ := Option.isSome_iff_exists.mp cuts
    obtain ⟨rfl, rfl⟩ := eq_append_of_cutAt? cut
    exact ⟨String.ofList front, String.ofList behind, String.ofList_append, (endOf front).symm⟩
  · rintro ⟨front, behind, joined, place⟩
    have parts : text = front.toList ++ behind.toList := by
      rw [← String.toList_append, ← joined, String.toList_ofList]
    have size := endOf front.toList
    rw [String.ofList_toList, ← place] at size
    rw [parts, (String.Pos.Raw.mk.inj size : position = _), cutAt?_append]
    rfl

end ClassroomCpu.Text
