import ClassroomCpu.Proofs.Assembly.FilteredLiteral
import ClassroomCpu.Proofs.Assembly.Resolution

/-!
# The grammar of literals

A literal is a number in decimal digits, or behind an `h` of either case in
hexadecimal ones, with or without a sign; its magnitude is below the sixty-third
power of two.  Nothing else is read as a number.  A literal can be a label only
if it is hexadecimal and has no sign.
-/

namespace ClassroomCpu.Assembly

/-- Digits, in base sixteen behind an `h`, write a number. -/
inductive Literal.Unsigned : List Char → Nat → Prop
  | decimal {digits : List Char} {number : Nat} (written : Text.Positional 10 digits number) :
      Unsigned digits number
  | hexadecimal {mark : Char} {digits : List Char} {number : Nat}
      (marked : mark = 'h' ∨ mark = 'H') (written : Text.Positional 16 digits number) :
      Unsigned (mark :: digits) number

/-- A text writes a number whose magnitude is in bounds. -/
inductive Literal : List Char → Int → Prop
  | plain {text : List Char} {number : Nat} (written : Literal.Unsigned text number)
      (small : number < 2 ^ 63) : Literal text number
  | plus {text : List Char} {number : Nat} (written : Literal.Unsigned text number)
      (small : number < 2 ^ 63) : Literal ('+' :: text) number
  | minus {text : List Char} {number : Nat} (written : Literal.Unsigned text number)
      (small : number < 2 ^ 63) : Literal ('-' :: text) (-number)

namespace Literal.Unsigned

theorem isAlphanum {text : List Char} {number : Nat} (written : Unsigned text number) :
    ∀ c ∈ text, c.isAlphanum = true := by
  cases written with
  | decimal written => exact written.isAlphanum
  | hexadecimal marked written =>
      refine List.forall_mem_cons.mpr ⟨?_, written.isAlphanum⟩
      rcases marked with rfl | rfl <;> decide

end Literal.Unsigned

/-- No decimal number starts with an `h`. -/
theorem not_positional_marked {mark : Char} (marked : mark = 'h' ∨ mark = 'H')
    (digits : List Char) (number : Nat) : ¬ Text.Positional 10 (mark :: digits) number := by
  rintro ⟨_, values, digitValues, _⟩
  cases digitValues with
  | cons digit _ =>
      have noLetter := digit.not_isAlpha
      rcases marked with rfl | rfl <;> exact absurd noLetter (by decide)

theorem magnitude?_eq_some_iff {text : List Char} {number : Nat} :
    magnitude? text = some number ↔ Literal.Unsigned text number ∧ number < 2 ^ 63 := by
  have bound : literalBound = 2 ^ 63 := rfl
  unfold magnitude?
  rw [Option.filter_eq_some_iff, decide_eq_true_iff, bound]
  apply and_congr_left
  intro _
  cases text with
  | nil =>
      constructor
      · intro read
        contradiction
      · rintro ⟨some, _⟩
        exact absurd rfl some
  | cons c digits =>
      dsimp only
      by_cases marked : c = 'h' ∨ c = 'H'
      · rw [if_pos marked, Text.natural?_eq_some_iff (.inr rfl)]
        constructor
        · exact .hexadecimal marked
        · intro written
          cases written with
          | decimal written => exact absurd written (not_positional_marked marked digits number)
          | hexadecimal _ written => exact written
      · rw [if_neg marked, Text.natural?_eq_some_iff (.inl rfl)]
        constructor
        · exact .decimal
        · intro written
          cases written with
          | decimal written => exact written
          | hexadecimal marked' _ => exact absurd marked' marked

theorem literal?_eq_some_iff {text : List Char} {value : Int} :
    literal? text = some value ↔ Literal text value := by
  constructor
  · intro read
    obtain ⟨magnitude, ⟨digits, rfl, found, rfl⟩ | ⟨digits, rfl, found, rfl⟩ | ⟨found, rfl⟩⟩ :=
      literal?_eq_some read
    all_goals obtain ⟨written, small⟩ := magnitude?_eq_some_iff.mp found
    · exact .minus written small
    · exact .plus written small
    · exact .plain written small
  · intro written
    cases written with
    | plain written small =>
        have found := magnitude?_eq_some_iff.mpr ⟨written, small⟩
        have noSign : ∀ sign, sign.isAlphanum = false → ∀ digits, text ≠ sign :: digits := by
          rintro sign strange digits rfl
          have plain := written.isAlphanum sign (by simp)
          simp [strange] at plain
        rw [literal?.eq_3 text (noSign '-' (by decide)) (noSign '+' (by decide)), found]
        rfl
    | plus written small => simp [literal?, magnitude?_eq_some_iff.mpr ⟨written, small⟩]
    | minus written small => simp [literal?, magnitude?_eq_some_iff.mpr ⟨written, small⟩]

/-! ## Labels -/

/-- A literal that is a label is hexadecimal and has no sign. -/
theorem isLabel_literal_iff {text : List Char} {value : Int} :
    isLabel text = true ∧ Literal text value ↔
      ∃ mark digits, text = mark :: digits ∧ (mark = 'h' ∨ mark = 'H') ∧
        ∃ number < 2 ^ 63, Text.Positional 16 digits number ∧ value = (number : Nat) := by
  constructor
  · rintro ⟨label, written⟩
    cases written with
    | plain written small =>
        cases written with
        | decimal written =>
            obtain ⟨_, _, digitValues, _⟩ := written
            cases digitValues with
            | nil => contradiction
            | @cons first _ _ _ digit _ =>
                have noUnderscore : first ≠ '_' := by
                  rintro rfl
                  exact absurd digit.isAlphanum (by decide)
                simp [isLabel, isLabelStart, digit.not_isAlpha, noUnderscore] at label
        | hexadecimal marked written => exact ⟨_, _, rfl, marked, _, small, written, rfl⟩
    | plus => simp [isLabel, isLabelStart] at label
    | minus => simp [isLabel, isLabelStart] at label
  · rintro ⟨mark, digits, rfl, marked, number, small, written, rfl⟩
    refine ⟨?_, .plain (.hexadecimal marked written) small⟩
    have start : isLabelStart mark = true := by
      rcases marked with rfl | rfl <;> decide
    have others : ∀ c ∈ digits, isLabelChar c = true := by
      intro c member
      simp [isLabelChar, written.isAlphanum c member]
    rw [isLabel, start, List.all_eq_true.mpr others, Bool.and_self]

/--
The texts that are read as numbers are those of the grammar, with the numbers
that they write.  A label is among them exactly if it is an `h` with hexadecimal
digits whose number is in bounds.  Reading in stages, with a filter in front of
a reader that gives up when its words are full, gives the same.
-/
theorem literal?_accepts :
    (∀ (text : List Char) (value : Int), literal? text = some value ↔ Literal text value) ∧
    (∀ (text : List Char) (value : Int), isLabel text = true ∧ literal? text = some value ↔
      ∃ mark digits, text = mark :: digits ∧ (mark = 'h' ∨ mark = 'H') ∧
        ∃ number < 2 ^ 63, Text.Positional 16 digits number ∧ value = (number : Nat)) ∧
    ∀ text : List Char, Filtered.literal? text = literal? text := by
  refine ⟨fun text value => literal?_eq_some_iff, fun text value => ?_, Filtered.literal?_eq⟩
  rw [literal?_eq_some_iff]
  exact isLabel_literal_iff

-- The bound is on the magnitude: the least number of 64 bits with a sign is no literal.
example : literal? "-h7fffffffffffffff".toList = some (1 - 2 ^ 63) ∧
    literal? "-h8000000000000000".toList = none := by
  decide +kernel

end ClassroomCpu.Assembly
