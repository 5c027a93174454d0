import ClassroomCpu.Proofs.Text.LetterCase
import Mathlib.Data.List.Forall2
import Mathlib.Data.Nat.Digits.Defs
import Mathlib.Tactic.Ring

/-!
# Positional numbers

A digit counts its place among the digits, in either letter case, and a number
is the sum of its digits, each weighed by its position.  Digits that are read
one after another make up this number.
-/

namespace ClassroomCpu.Text

/-- The digits of the bases up to sixteen, each behind as many others as it counts. -/
def digitMarks : List Char :=
  ['0', '1', '2', '3', '4', '5', '6', '7', '8', '9', 'a', 'b', 'c', 'd', 'e', 'f']

/-- A character is a digit of a base, in either letter case, and counts a value. -/
def IsDigit (base : Nat) (c : Char) (value : Nat) : Prop :=
  value < base ∧ digitMarks[value]? = some c.toLower

/-- One or more digits write a number in a base. -/
def Positional (base : Nat) (digits : List Char) (number : Nat) : Prop :=
  digits ≠ [] ∧ ∃ values, List.Forall₂ (IsDigit base) digits values ∧
    number = Nat.ofDigits base values.reverse

/-! ## Digits -/

theorem digit?_of_not_ascii {base : Nat} {c : Char} (foreign : ¬ c.toNat < 128) :
    digit? base c = none := by
  have above (last : Char) (ascii : last.toNat < 128) : ¬ c ≤ last := by
    rw [Char.le_def, UInt32.le_iff_toNat_le]
    change ¬ c.toNat ≤ last.toNat
    omega
  simp [digit?, above '9' (by decide), above 'z' (by decide), above 'Z' (by decide)]

theorem digit?_lt {base value : Nat} {c : Char} (digit : digit? base c = some value) :
    value < base := by
  obtain ⟨small, same⟩ := Option.ite_none_right_eq_some.mp digit
  exact (Option.some.inj same).symm.trans_lt small

theorem digit?_eq_some_iff {base : Nat} (usual : base = 10 ∨ base = 16) {c : Char} {value : Nat} :
    digit? base c = some value ↔ IsDigit base c value := by
  by_cases ascii : c.toNat < 128
  · have each : ∀ code < 128, ∀ value < base, digit? base (Char.ofNat code) = some value ↔
        digitMarks[value]? = some (Char.ofNat code).toLower := by
      rcases usual with rfl | rfl <;> decide +kernel
    have told := ascii_cases (motive := fun c => ∀ value < base, digit? base c = some value ↔
      digitMarks[value]? = some c.toLower) each ascii value
    constructor
    · intro digit
      exact ⟨digit?_lt digit, (told (digit?_lt digit)).mp digit⟩
    · rintro ⟨small, mark⟩
      exact (told small).mpr mark
  · have marks : digitMarks.all (fun mark => mark.toNat < 128) = true := by decide
    rw [digit?_of_not_ascii ascii]
    constructor
    · simp
    · rintro ⟨_, mark⟩
      rw [toLower_of_not_ascii ascii] at mark
      have inside := List.all_eq_true.mp marks c (List.mem_of_getElem? mark)
      exact absurd (of_decide_eq_true inside) ascii

theorem IsDigit.isAlphanum {base value : Nat} {c : Char} (digit : IsDigit base c value) :
    c.isAlphanum = true := by
  have marks : digitMarks.all Char.isAlphanum = true := by decide
  rw [← isAlphanum_toLower]
  exact List.all_eq_true.mp marks _ (List.mem_of_getElem? digit.2)

/-- A decimal digit is no letter. -/
theorem IsDigit.not_isAlpha {value : Nat} {c : Char} (digit : IsDigit 10 c value) :
    c.isAlpha = false := by
  have marks : ∀ value < 10, digitMarks[value]?.any Char.isAlpha = false := by decide
  have told := marks value digit.1
  rwa [digit.2, Option.any_some, isAlpha_toLower] at told

/-! ## Numbers -/

theorem Positional.isAlphanum {base number : Nat} {digits : List Char}
    (written : Positional base digits number) : ∀ c ∈ digits, c.isAlphanum = true := by
  obtain ⟨_, values, marks, _⟩ := written
  intro c member
  obtain ⟨place, inside, rfl⟩ := List.mem_iff_getElem.mp member
  exact (List.Forall₂.get marks inside (marks.length_eq ▸ inside)).isAlphanum

/-- The first digit has the greatest weight. -/
theorem ofDigits_reverse_cons (base value : Nat) (values : List Nat) :
    Nat.ofDigits base (value :: values).reverse =
      value * base ^ values.length + Nat.ofDigits base values.reverse := by
  rw [List.reverse_cons, Nat.ofDigits_append, Nat.ofDigits_singleton, List.length_reverse,
    Nat.add_comm, Nat.mul_comm]

/-- What is in front of some digits gets as many positions more as there are digits. -/
theorem digitsFrom?_eq_some_iff {base : Nat} (usual : base = 10 ∨ base = 16) {start number : Nat}
    {digits : List Char} :
    digitsFrom? base start digits = some number ↔
      ∃ values, List.Forall₂ (IsDigit base) digits values ∧
        number = start * base ^ values.length + Nat.ofDigits base values.reverse := by
  induction digits generalizing start with
  | nil => simp [digitsFrom?, eq_comm]
  | cons c digits induction =>
      constructor
      · intro read
        rw [digitsFrom?] at read
        split at read
        · rename_i value digit
          obtain ⟨values, marks, rfl⟩ := induction.mp read
          refine ⟨value :: values, .cons ((digit?_eq_some_iff usual).mp digit) marks, ?_⟩
          rw [ofDigits_reverse_cons, List.length_cons]
          ring
        · contradiction
      · rintro ⟨_, marks, rfl⟩
        cases marks with
        | @cons _ value _ values mark marks =>
            have digit := (digit?_eq_some_iff usual).mpr mark
            simp only [digitsFrom?, digit]
            refine induction.mpr ⟨values, marks, ?_⟩
            rw [ofDigits_reverse_cons, List.length_cons]
            ring

theorem natural?_eq_some_iff {base : Nat} (usual : base = 10 ∨ base = 16) {number : Nat}
    {digits : List Char} :
    natural? base digits = some number ↔ Positional base digits number := by
  rw [natural?, Option.ite_none_left_eq_some, digitsFrom?_eq_some_iff usual, List.isEmpty_iff]
  simp only [Nat.zero_mul, Nat.zero_add]
  rfl

/-- Digits never make a number smaller. -/
theorem le_of_digitsFrom? {base : Nat} (usual : base = 10 ∨ base = 16) {start number : Nat}
    {digits : List Char} (read : digitsFrom? base start digits = some number) :
    start ≤ number := by
  obtain ⟨values, _, rfl⟩ := (digitsFrom?_eq_some_iff usual).mp read
  have weight : 0 < base ^ values.length := Nat.pow_pos (by omega)
  exact Nat.le_trans (Nat.le_mul_of_pos_right start weight) (Nat.le_add_right _ _)

end ClassroomCpu.Text
