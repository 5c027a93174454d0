import ClassroomCpu.Assembly.Literal
import ClassroomCpu.Proofs.Text.Positional

/-!
# Literals through a filter

A literal can be read in stages: a sign is split off, what is left has to be of
letters and digits, an `h` is split off, and the rest goes to a reader of numbers
of 64 bits, which itself accepts signs and gives up at the first digit that
leaves its words.  The filter keeps signs away from the reader, and the reader
gives up exactly where the number is too large: the stages read the same.
-/

namespace ClassroomCpu.Assembly.Filtered

open Text

/-- Whether a number has room in a word of 64 bits with a sign. -/
def hasRoom (number : Int) : Bool :=
  decide (-literalBound ≤ number ∧ number < literalBound)

/-- Reads digits after those that make up `start`, as long as the number has room. -/
def digitsFrom? (base : Nat) (sign start : Int) : List Char → Option Int
  | [] => some start
  | c :: rest =>
      match digit? base c with
      | some value =>
          let shifted := start * base
          let next := shifted + sign * value
          if hasRoom shifted && hasRoom next then digitsFrom? base sign next rest else none
      | none => none

/-- The number that one or more digits write. -/
def magnitude? (base : Nat) (sign : Int) (digits : List Char) : Option Int :=
  if digits.isEmpty then none else digitsFrom? base sign 0 digits

/-- The number that digits write, with or without a sign in front. -/
def integer? (base : Nat) : List Char → Option Int
  | '+' :: digits => magnitude? base 1 digits
  | '-' :: digits => magnitude? base (-1) digits
  | digits => magnitude? base 1 digits

/-- The number that a text of letters and digits writes. -/
def unsigned? (text : List Char) : Option Int :=
  if text.isEmpty || !text.all Char.isAlphanum then none
  else
    match text with
    | [] => integer? 10 []
    | c :: rest =>
        if c = 'h' ∨ c = 'H' then if rest.isEmpty then none else integer? 16 rest
        else integer? 10 (c :: rest)

/-- The number that a text writes, with or without a sign in front. -/
def literal? : List Char → Option Int
  | '-' :: text => (unsigned? text).map fun number => -number
  | '+' :: text => unsigned? text
  | text => unsigned? text

/-! ## Digits with room -/

theorem hasRoom_natCast {number : Nat} : hasRoom number = decide (number < literalBound) := by
  rw [hasRoom, decide_eq_decide]
  omega

/-- The reader gives up at a digit exactly if the whole number is too large. -/
theorem digitsFrom?_eq {base : Nat} (usual : base = 10 ∨ base = 16) {start : Nat}
    (room : start < literalBound) (digits : List Char) :
    digitsFrom? base 1 start digits =
      ((Text.digitsFrom? base start digits).filter (· < literalBound)).map Nat.cast := by
  induction digits generalizing start with
  | nil => simp [digitsFrom?, Text.digitsFrom?, room]
  | cons c rest induction =>
      rw [digitsFrom?, Text.digitsFrom?]
      cases digit : digit? base c with
      | none => rfl
      | some value =>
          have shifted : (start : Int) * base = (start * base : Nat) := by push_cast; rfl
          have next : (start : Int) * base + 1 * value = (start * base + value : Nat) := by
            push_cast
            ring
          dsimp only
          rw [next, shifted, hasRoom_natCast, hasRoom_natCast]
          by_cases fits : start * base + value < literalBound
          · have fitsShifted : start * base < literalBound := by omega
            simp only [fits, fitsShifted, decide_true, Bool.and_self, if_true]
            exact induction fits
          · have tooLarge : (Text.digitsFrom? base (start * base + value) rest).filter
                (· < literalBound) = none := by
              rw [Option.filter_eq_none_iff]
              intro number read
              have grown := le_of_digitsFrom? usual read
              simp only [decide_eq_true_eq]
              omega
            simp [fits, tooLarge]

/-- A text of letters and digits has no sign that the reader could take. -/
theorem integer?_eq {base : Nat} (usual : base = 10 ∨ base = 16) {digits : List Char}
    (plain : ∀ c ∈ digits, c.isAlphanum = true) :
    integer? base digits =
      ((natural? base digits).filter (· < literalBound)).map Nat.cast := by
  have bare : integer? base digits = magnitude? base 1 digits := by
    unfold integer?
    split
    · exact absurd (plain '+' (by simp)) (by decide)
    · exact absurd (plain '-' (by simp)) (by decide)
    · rfl
  rw [bare, magnitude?, natural?]
  split
  · rfl
  · exact digitsFrom?_eq usual (show 0 < literalBound by decide) digits

/-! ## Texts -/

theorem isAlphanum_of_magnitude? {text : List Char} {number : Nat}
    (read : Assembly.magnitude? text = some number) :
    text ≠ [] ∧ ∀ c ∈ text, c.isAlphanum = true := by
  obtain ⟨written, _⟩ := Option.filter_eq_some_iff.mp read
  cases text with
  | nil => contradiction
  | cons c rest =>
      refine ⟨List.cons_ne_nil c rest, ?_⟩
      dsimp only at written
      split at written
      · rename_i mark
        have digits := ((natural?_eq_some_iff (.inr rfl)).mp written).isAlphanum
        have letter : c.isAlphanum = true := by
          rcases mark with rfl | rfl <;> decide
        exact List.forall_mem_cons.mpr ⟨letter, digits⟩
      · exact ((natural?_eq_some_iff (.inl rfl)).mp written).isAlphanum

theorem unsigned?_eq (text : List Char) :
    unsigned? text = (Assembly.magnitude? text).map Nat.cast := by
  unfold unsigned?
  split
  · rename_i refused
    cases read : Assembly.magnitude? text with
    | none => rfl
    | some number =>
        obtain ⟨some, plain⟩ := isAlphanum_of_magnitude? read
        have passes := List.all_eq_true.mpr plain
        simp [some, passes] at refused
  · rename_i passed
    simp only [Bool.or_eq_true, Bool.not_eq_true', not_or, Bool.not_eq_false,
      List.all_eq_true] at passed
    obtain ⟨_, plain⟩ := passed
    cases text with
    | nil => rfl
    | cons c rest =>
        have others := (List.forall_mem_cons.mp plain).2
        dsimp only [Assembly.magnitude?]
        split
        · rw [integer?_eq (.inr rfl) others]
          cases rest <;> simp [natural?]
        · exact integer?_eq (.inl rfl) plain

/-- The stages read the same literals. -/
theorem literal?_eq (text : List Char) : literal? text = Assembly.literal? text := by
  unfold literal?
  split
  · rename_i text
    rw [unsigned?_eq, Assembly.literal?]
    cases Assembly.magnitude? text <;> rfl
  · rename_i text
    rw [unsigned?_eq, Assembly.literal?]
    cases Assembly.magnitude? text <;> rfl
  · rename_i noMinus noPlus
    rw [unsigned?_eq, Assembly.literal?.eq_3 text noMinus noPlus]
    cases Assembly.magnitude? text <;> rfl

end ClassroomCpu.Assembly.Filtered
