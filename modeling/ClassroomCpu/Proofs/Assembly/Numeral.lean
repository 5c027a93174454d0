import ClassroomCpu.Proofs.Assembly.Resolution
import ClassroomCpu.Proofs.Text.LetterCase

/-!
# Numbers as words

A number that is shown in decimal digits is read as the same number.  Such a
word is never a label, whatever labels there are, and it differs from every
name that holds a letter.
-/

namespace ClassroomCpu

namespace Text

/-! ## Digits -/

theorem digit?_of_isDigit {c : Char} (isDigit : c.isDigit = true) :
    digit? 10 c = some (c.toNat - '0'.toNat) := by
  have range := Char.isDigit_iff_toNat.mp isDigit
  have small : c.toNat - '0'.toNat < 10 := by
    have nine : '9'.toNat = 57 := rfl
    have zero : '0'.toNat = 48 := rfl
    omega
  have bounds : '0' ≤ c ∧ c ≤ '9' := range
  simp only [digit?, bounds, and_self, if_true, small]

theorem isDigit_ascii {c : Char} (digit : c.isDigit = true) : c.toNat < 128 := by
  have range := Char.isDigit_iff_toNat.mp digit
  have nine : '9'.toNat = 57 := rfl
  omega

theorem digitsFrom?_of_isDigit {digits : List Char}
    (allDigits : ∀ c ∈ digits, c.isDigit = true) (start : Nat) :
    digitsFrom? 10 start digits = some (Nat.ofDigitChars 10 digits start) := by
  induction digits generalizing start with
  | nil => rfl
  | cons c digits induction =>
      have first := digit?_of_isDigit (allDigits c (by simp))
      have others := induction fun other member => allDigits other (by simp [member])
      simp only [digitsFrom?, first, others, Nat.ofDigitChars_cons, Nat.mul_comm]

theorem isDigit_of_mem_toDigits (number : Nat) :
    ∀ c ∈ Nat.toDigits 10 number, c.isDigit = true :=
  fun _ member => Nat.isDigit_of_mem_toDigits (by decide) (by decide) member

theorem natural?_toDigits (number : Nat) :
    natural? 10 (Nat.toDigits 10 number) = some number := by
  have digits : digitsFrom? 10 0 (Nat.toDigits 10 number) = _ :=
    digitsFrom?_of_isDigit (isDigit_of_mem_toDigits number) 0
  rw [natural?, digits, Nat.ofDigitChars_ten_toDigits]
  simp

/-! ## Numbers with a sign -/

theorem toList_signedDecimal (number : Int) :
    (signedDecimal number).toList =
      if number < 0 then '-' :: Nat.toDigits 10 number.natAbs
      else Nat.toDigits 10 number.natAbs := by
  unfold signedDecimal decimal
  split <;> simp

theorem decimal_eq_signedDecimal (number : Nat) : decimal number = signedDecimal number := by
  rw [signedDecimal, if_neg (Int.not_lt.mpr (Int.natCast_nonneg number)), Int.natAbs_natCast]

/-- A number is shown by digits, maybe behind a minus sign. -/
theorem mem_signedDecimal {number : Int} {c : Char}
    (member : c ∈ (signedDecimal number).toList) : c = '-' ∨ c.isDigit = true := by
  rw [toList_signedDecimal] at member
  split at member
  · rcases List.mem_cons.mp member with sign | digit
    · exact .inl sign
    · exact .inr (isDigit_of_mem_toDigits _ c digit)
  · exact .inr (isDigit_of_mem_toDigits _ c member)

theorem exists_isDigit_signedDecimal (number : Int) :
    ∃ c ∈ (signedDecimal number).toList, c.isDigit = true := by
  obtain ⟨c, member⟩ := List.exists_mem_of_ne_nil _ (Nat.toDigits_ne_nil (b := 10)
    (n := number.natAbs))
  refine ⟨c, ?_, isDigit_of_mem_toDigits _ c member⟩
  rw [toList_signedDecimal]
  split
  · exact List.mem_cons_of_mem _ member
  · exact member

/-! ## Numbers are no names -/

/-- Whether a text holds a letter. -/
def hasLetter (text : String) : Bool :=
  text.toList.any Char.isAlpha

/-- Whether a text holds a digit. -/
def hasDigit (text : String) : Bool :=
  text.toList.any Char.isDigit

/-- What holds of the ten digits holds of every digit. -/
theorem digit_cases {motive : Char → Prop}
    (each : ∀ code < 128, (Char.ofNat code).isDigit = true → motive (Char.ofNat code)) {c : Char}
    (digit : c.isDigit = true) : motive c :=
  ascii_cases (motive := fun c => c.isDigit = true → motive c) each (isDigit_ascii digit) digit

theorem isAlpha_of_isDigit {c : Char} (digit : c.isDigit = true) : c.isAlpha = false :=
  digit_cases (motive := fun c => c.isAlpha = false) (by decide) digit

theorem hasLetter_signedDecimal (number : Int) : hasLetter (signedDecimal number) = false := by
  rw [hasLetter, List.any_eq_false]
  intro c member
  rcases mem_signedDecimal member with rfl | digit
  · decide
  · simp [isAlpha_of_isDigit digit]

theorem hasDigit_signedDecimal (number : Int) : hasDigit (signedDecimal number) = true :=
  List.any_eq_true.mpr (exists_isDigit_signedDecimal number)

/-- A name with a letter is no number. -/
theorem not_sameLetters_of_hasLetter {name : String} (letter : hasLetter name = true)
    (number : Int) : sameLetters name (signedDecimal number) = false := by
  apply Bool.eq_false_iff.mpr
  intro same
  have holds := any_of_sameLetters isAlpha_toLower same
  rw [← hasLetter, ← hasLetter, letter, hasLetter_signedDecimal] at holds
  exact absurd holds (by simp)

/-- A text without a digit is no number. -/
theorem not_sameLetters_of_not_hasDigit {text : String} (noDigit : hasDigit text = false)
    (number : Int) : sameLetters (signedDecimal number) text = false := by
  apply Bool.eq_false_iff.mpr
  intro same
  have holds := any_of_sameLetters isDigit_toLower same
  rw [← hasDigit, ← hasDigit, noDigit, hasDigit_signedDecimal] at holds
  exact absurd holds (by simp)

end Text

namespace Assembly

/-! ## Numbers are read as they are shown -/

theorem magnitude?_toDigits {number : Nat} (small : number < literalBound) :
    magnitude? (Nat.toDigits 10 number) = some number := by
  have read := Text.natural?_toDigits number
  have digits := Text.isDigit_of_mem_toDigits number
  unfold magnitude?
  cases shown : Nat.toDigits 10 number with
  | nil => exact absurd shown Nat.toDigits_ne_nil
  | cons c rest =>
      rw [shown] at read digits
      have noHexadecimal : ¬ (c = 'h' ∨ c = 'H') := by
        rintro (rfl | rfl)
        · exact absurd (digits 'h' (by simp)) (by decide)
        · exact absurd (digits 'H' (by simp)) (by decide)
      simp [noHexadecimal, read, small]

theorem literal?_signedDecimal {number : Int} (small : number.natAbs < literalBound) :
    literal? (Text.signedDecimal number).toList = some number := by
  have read := magnitude?_toDigits small
  have digits := Text.isDigit_of_mem_toDigits number.natAbs
  rw [Text.toList_signedDecimal]
  split
  · have negative : -(number.natAbs : Int) = number := by omega
    have signed : literal? ('-' :: Nat.toDigits 10 number.natAbs) =
        some (-(number.natAbs : Int)) := by
      simp only [literal?, read]
      rfl
    rw [signed, negative]
  · have notNegative : (number.natAbs : Int) = number := by omega
    unfold literal?
    split
    · rename_i shown
      exact absurd (digits '-' (by simp [shown])) (by decide)
    · rename_i shown
      exact absurd (digits '+' (by simp [shown])) (by decide)
    · rw [read]
      exact congrArg some notNegative

/-- No label is a number. -/
theorem find?_signedDecimal {labels : LabelTable} (wellFormed : labels.WellFormed)
    (number : Int) : labels.find? (Text.signedDecimal number) = none := by
  cases found : labels.find? (Text.signedDecimal number) with
  | none => rfl
  | some address =>
      have label := LabelTable.isLabel_of_find? wellFormed found
      have characters : ∀ c ∈ (Text.signedDecimal number).toList,
          c.toNat < 128 ∧ isLabelStart c = false := by
        intro c member
        rcases Text.mem_signedDecimal member with rfl | digit
        · decide
        · exact ⟨Text.isDigit_ascii digit,
            Text.digit_cases (motive := fun c => isLabelStart c = false) (by decide) digit⟩
      rw [Text.toList_uppercase,
        Text.flatMap_capital_of_ascii fun c member => (characters c member).1] at label
      cases shown : (Text.signedDecimal number).toList with
      | nil => simp [shown, isLabel] at label
      | cons first rest =>
          obtain ⟨ascii, noStart⟩ := characters first (by simp [shown])
          rw [shown] at label
          simp [isLabel, isLabelStart_toUpper ascii, noStart] at label

/-- A number stands for itself, whatever labels there are. -/
theorem resolve?_signedDecimal {labels : LabelTable} (wellFormed : labels.WellFormed)
    {number : Int} (small : number.natAbs < literalBound) :
    resolve? labels (Text.signedDecimal number) = some ⟨number, false⟩ := by
  have plain : resolvePlain? labels (Text.signedDecimal number) = some ⟨number, false⟩ := by
    simp [resolvePlain?, find?_signedDecimal wellFormed, literal?_signedDecimal small]
  have uncut : cutAtSign? (Text.signedDecimal number).toList = none := by
    cases cut : cutAtSign? (Text.signedDecimal number).toList with
    | none => rfl
    | some pieces =>
        have noLiteral := literal?_eq_none_of_cutAtSign? cut
        rw [literal?_signedDecimal small] at noLiteral
        simp at noLiteral
  simp only [resolve?, uncut, plain]

end Assembly

end ClassroomCpu
