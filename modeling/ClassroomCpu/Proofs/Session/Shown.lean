import ClassroomCpu.Proofs.Assembly.Numeral
import ClassroomCpu.Session

/-!
# What listings and labels show

The rows that a session shows tell the numbers in them: an address can be read
off the row of a line, and off the row of a label.
-/

namespace ClassroomCpu

namespace Text

theorem decimal_injective : Function.Injective decimal := by
  intro number other same
  have digits : Nat.toDigits 10 number = Nat.toDigits 10 other := String.ofList_injective same
  calc
    number = Nat.ofDigitChars 10 (Nat.toDigits 10 number) 0 :=
      Nat.ofDigitChars_ten_toDigits.symm
    _ = Nat.ofDigitChars 10 (Nat.toDigits 10 other) 0 := by rw [digits]
    _ = other := Nat.ofDigitChars_ten_toDigits

theorem isDigit_of_mem_decimal {number : Nat} {c : Char} (member : c ∈ (decimal number).toList) :
    c.isDigit = true := by
  rw [decimal, String.toList_ofList] at member
  exact isDigit_of_mem_toDigits number c member

theorem decimal_ne_empty (number : Nat) : decimal number ≠ "" := by
  intro empty
  have value := natural?_toDigits number
  rw [decimal, ← String.toList_inj, String.toList_ofList] at empty
  rw [empty] at value
  contradiction

/-- Without its blanks in front an aligned text is the text. -/
theorem dropWhile_alignRight (width : Nat) {text : String} (noBlank : ' ' ∉ text.toList) :
    (alignRight width text).toList.dropWhile (· = ' ') = text.toList := by
  rw [alignRight, String.toList_append, String.toList_ofList, List.dropWhile_append,
    List.dropWhile_replicate]
  simp only [decide_true, if_true, List.isEmpty_nil]
  cases chars : text.toList with
  | nil => rfl
  | cons first rest =>
      rw [chars, List.mem_cons, not_or] at noBlank
      rw [List.dropWhile_cons, if_neg (by simpa using Ne.symm noBlank.1)]

theorem alignRight_inj {width : Nat} {text other : String} (noBlank : ' ' ∉ text.toList)
    (otherNoBlank : ' ' ∉ other.toList) (same : alignRight width text = alignRight width other) :
    text = other := by
  rw [← String.toList_inj, ← dropWhile_alignRight width noBlank, same,
    dropWhile_alignRight width otherNoBlank]

end Text

namespace Session

/-! ## Lines -/

/-- How the address of a line is shown. -/
def addressText : Option Nat → String
  | some address => Text.decimal address
  | none => ""

theorem blank_notMem_addressText (address : Option Nat) : ' ' ∉ (addressText address).toList := by
  intro member
  cases address with
  | none => simp [addressText] at member
  | some address => exact absurd (Text.isDigit_of_mem_decimal member) (by decide)

theorem addressText_injective : Function.Injective addressText := by
  intro address other same
  cases address with
  | none =>
      cases other with
      | none => rfl
      | some other => exact absurd same.symm (Text.decimal_ne_empty other)
  | some address =>
      cases other with
      | none => exact absurd same (Text.decimal_ne_empty address)
      | some other => rw [Text.decimal_injective same]

/-- A line with its number and its address. -/
def row (number : Nat) (line : String) (address : Option Nat) : String :=
  Text.alignRight 4 (Text.decimal (number + 1)) ++ " " ++ Text.alignRight 5 (addressText address)
    ++ "  " ++ line

theorem row_inj {number : Nat} {line : String} {address other : Option Nat} :
    row number line address = row number line other ↔ address = other := by
  constructor
  · intro same
    unfold row at same
    rw [← String.toList_inj] at same
    simp only [String.toList_append, List.append_assoc, List.append_cancel_left_eq,
      List.append_cancel_right_eq] at same
    rw [String.toList_inj] at same
    exact addressText_injective (Text.alignRight_inj (blank_notMem_addressText address)
      (blank_notMem_addressText other) same)
  · exact congrArg (row number line)

theorem listing_eq (session : Session) :
    session.listing = session.source.mapIdx fun number line =>
      row number line (session.assembler.address? number) := rfl

/-- Listings of one program show the same exactly if they show the same addresses. -/
theorem mapIdx_row_eq_iff {source : List String} {address? other? : Nat → Option Nat} :
    (source.mapIdx fun number line => row number line (address? number)) =
        (source.mapIdx fun number line => row number line (other? number)) ↔
      ∀ number < source.length, address? number = other? number := by
  constructor
  · intro same number inside
    have here := congrArg (·[number]?) same
    simp only [List.getElem?_mapIdx, List.getElem?_eq_getElem inside, Option.map_some,
      Option.some.injEq] at here
    exact row_inj.mp here
  · intro same
    refine List.ext_getElem (by simp) fun number inside _ => ?_
    rw [List.length_mapIdx] at inside
    rw [List.getElem_mapIdx, List.getElem_mapIdx, same number inside]

/-! ## Labels -/

/-- A label with its address. -/
def labelRow (label : String × Nat) : String :=
  "Label " ++ label.1 ++ " @ " ++ Text.decimal label.2

/-- Some labels by ascending address. -/
def labelRows (labels : List (String × Nat)) : List String :=
  (labels.foldr insertLabel []).map labelRow

theorem labelLines_eq (session : Session) :
    session.labelLines = labelRows session.assembler.labels := rfl

/-- The digits at the end of a row are those of the address. -/
theorem takeWhile_labelRow (label : String × Nat) :
    (labelRow label).toList.reverse.takeWhile Char.isDigit =
      (Text.decimal label.2).toList.reverse := by
  have digits : ∀ c ∈ (Text.decimal label.2).toList.reverse, c.isDigit = true :=
    fun c member => Text.isDigit_of_mem_decimal (List.mem_reverse.mp member)
  rw [labelRow, String.toList_append, List.reverse_append,
    List.takeWhile_append_of_pos digits, String.toList_append, List.reverse_append]
  exact List.append_nil _

theorem address_of_labelRow {label other : String × Nat} (same : labelRow label = labelRow other) :
    label.2 = other.2 := by
  have digits := takeWhile_labelRow label
  rw [same, takeWhile_labelRow, List.reverse_inj, String.toList_inj] at digits
  exact Text.decimal_injective digits.symm

theorem mem_insertLabel {label other : String × Nat} {labels : List (String × Nat)} :
    other ∈ insertLabel label labels ↔ other = label ∨ other ∈ labels := by
  induction labels with
  | nil => simp [insertLabel]
  | cons first labels induction =>
      unfold insertLabel
      split
      · exact List.mem_cons
      · rw [List.mem_cons, induction, List.mem_cons, or_left_comm]

theorem mem_foldr_insertLabel {label : String × Nat} {labels : List (String × Nat)} :
    label ∈ labels.foldr insertLabel [] ↔ label ∈ labels := by
  induction labels with
  | nil => rfl
  | cons first labels induction =>
      rw [List.foldr_cons, mem_insertLabel, induction, List.mem_cons]

end Session

end ClassroomCpu
