import ClassroomCpu.Assembly.LabelTable

/-!
# Characters of ASCII

A fact about single characters below `U+0080` follows from finitely many
cases.  The characters of labels are of this kind: a label stays one in upper
case, and a sign is never part of it.
-/

namespace ClassroomCpu

namespace Text

/-- What holds of the characters with the codes below 128 holds of every ASCII character. -/
theorem ascii_cases {motive : Char → Prop}
    (each : ∀ code < 128, motive (Char.ofNat code)) {c : Char} (ascii : c.toNat < 128) :
    motive c := by
  have instanceOf := each c.toNat ascii
  rwa [Char.ofNat_toNat] at instanceOf

theorem capital_of_ascii {c : Char} (ascii : c.toNat < 128) : capital c = [c.toUpper] := by
  simp [capital, ascii]

@[simp] theorem toList_uppercase (text : String) :
    (uppercase text).toList = text.toList.flatMap capital := by
  simp [uppercase]

/-- The upper-case text holds the capital of each ASCII character of the text. -/
theorem toUpper_mem_uppercase {text : String} {c : Char} (member : c ∈ text.toList)
    (ascii : c.toNat < 128) : c.toUpper ∈ (uppercase text).toList := by
  rw [toList_uppercase, List.mem_flatMap]
  exact ⟨c, member, by simp [capital_of_ascii ascii]⟩

theorem flatMap_capital_of_ascii {text : List Char} (ascii : ∀ c ∈ text, c.toNat < 128) :
    text.flatMap capital = text.map Char.toUpper := by
  induction text with
  | nil => rfl
  | cons c text induction =>
      have first : c.toNat < 128 := ascii c (by simp)
      have others : ∀ other ∈ text, other.toNat < 128 := by
        intro other member
        exact ascii other (by simp [member])
      simp [capital_of_ascii first, induction others]

end Text

namespace Assembly

/-- Letters, digits and the underscore are ASCII characters. -/
theorem isLabelChar_ascii {c : Char} (labelChar : isLabelChar c = true) : c.toNat < 128 := by
  change ((decide (c.val ≥ 'A'.val ∧ c.val ≤ 'Z'.val)
    || decide (c.val ≥ 'a'.val) && decide (c.val ≤ 'z'.val)
    || decide (c.val ≥ '0'.val) && decide (c.val ≤ '9'.val)) || c == '_') = true at labelChar
  simp only [Bool.or_eq_true, Bool.and_eq_true, decide_eq_true_eq, beq_iff_eq,
    UInt32.le_iff_toNat_le, ge_iff_le] at labelChar
  change ((((65 ≤ c.toNat ∧ c.toNat ≤ 90) ∨ (97 ≤ c.toNat ∧ c.toNat ≤ 122)) ∨
    (48 ≤ c.toNat ∧ c.toNat ≤ 57)) ∨ c = '_') at labelChar
  rcases labelChar with ((upper | lower) | digit) | underscore
  · omega
  · omega
  · omega
  · subst underscore
    decide

theorem isLabelChar_toUpper {c : Char} (ascii : c.toNat < 128) :
    isLabelChar c.toUpper = isLabelChar c :=
  Text.ascii_cases (motive := fun c => isLabelChar c.toUpper = isLabelChar c)
    (by decide) ascii

theorem isLabelStart_toUpper {c : Char} (ascii : c.toNat < 128) :
    isLabelStart c.toUpper = isLabelStart c :=
  Text.ascii_cases (motive := fun c => isLabelStart c.toUpper = isLabelStart c)
    (by decide) ascii

theorem isLabelChar_of_isLabelStart {c : Char} (start : isLabelStart c = true) :
    isLabelChar c = true := by
  simp only [isLabelStart, Bool.or_eq_true] at start
  simp only [isLabelChar, Char.isAlphanum, Bool.or_eq_true]
  rcases start with letter | underscore
  · exact .inl (.inl letter)
  · exact .inr underscore

/-- Every character of a label is a letter, a digit or the underscore. -/
theorem isLabelChar_of_isLabel {text : List Char} (label : isLabel text = true) :
    ∀ c ∈ text, isLabelChar c = true := by
  cases text with
  | nil => simp [isLabel] at label
  | cons first rest =>
      simp only [isLabel, Bool.and_eq_true, List.all_eq_true] at label
      intro c member
      rcases List.mem_cons.mp member with here | later
      · subst here
        exact isLabelChar_of_isLabelStart label.1
      · exact label.2 c later

/-- A label in upper case is a label. -/
theorem isLabel_uppercase {name : String} (label : isLabel name.toList = true) :
    isLabel (Text.uppercase name).toList = true := by
  have characters := isLabelChar_of_isLabel label
  have ascii : ∀ c ∈ name.toList, c.toNat < 128 := by
    intro c member
    exact isLabelChar_ascii (characters c member)
  rw [Text.toList_uppercase, Text.flatMap_capital_of_ascii ascii]
  revert label characters ascii
  cases name.toList with
  | nil => simp [isLabel]
  | cons first rest =>
      intro label characters ascii
      simp only [isLabel, Bool.and_eq_true, List.all_eq_true] at label
      simp only [List.map_cons, isLabel, Bool.and_eq_true, List.all_eq_true]
      constructor
      · rw [isLabelStart_toUpper (ascii first (by simp))]
        exact label.1
      · intro c member
        obtain ⟨original, originalMember, rfl⟩ := List.mem_map.mp member
        rw [isLabelChar_toUpper (ascii original (by simp [originalMember]))]
        exact label.2 original originalMember

/-- A text whose upper case is a label holds no sign. -/
theorem not_isSign_of_isLabel_uppercase {name : String}
    (label : isLabel (Text.uppercase name).toList = true) :
    ∀ c ∈ name.toList, isSign c = false := by
  intro c member
  cases sign : isSign c with
  | false => rfl
  | true =>
      have signs : c = '+' ∨ c = '-' := by simpa [isSign] using sign
      rcases signs with rfl | rfl
      · have capital := Text.toUpper_mem_uppercase member (by decide)
        exact absurd (isLabelChar_of_isLabel label _ capital) (by decide)
      · have capital := Text.toUpper_mem_uppercase member (by decide)
        exact absurd (isLabelChar_of_isLabel label _ capital) (by decide)

end Assembly

end ClassroomCpu
