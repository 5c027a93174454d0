import ClassroomCpu.Proofs.Alu.Masked
import Mathlib.Data.Int.ModEq
import Mathlib.Order.Interval.Set.Basic

/-!
# Exact arithmetic on words

The words of a width stand one-to-one for the numbers from the least to the
greatest that are written with as many bits in two's complement.  Sums and
differences of words, with a carry or a borrow, are the exact ones as far as a
word can hold them; the carry tells whether the words without a sign leave their
range, and the overflow whether the numbers with a sign leave theirs.
-/

namespace ClassroomCpu.Alu

/-- The numbers with a sign that the words of a width stand for. -/
def signedRange (width : Nat) : Set Int :=
  {number | -(powerOfTwo (width - 1) : Int) ≤ number ∧ number ≤ powerOfTwo (width - 1) - 1}

/-- The sum of two words and a carry, what it carries and whether it overflows. -/
structure IsSum (width left right : Nat) (carry : Bool) (outcome : Outcome) : Prop where
  value : outcome.value = (left + right + carry.toNat) % powerOfTwo width
  carries : outcome.carry = true ↔ powerOfTwo width ≤ left + right + carry.toNat
  overflows : outcome.overflow = true ↔
    signed width left + signed width right + carry.toNat ∉ signedRange width

/-- The difference of two words and a borrow, what it borrows and whether it overflows. -/
structure IsDifference (width left right : Nat) (borrow : Bool) (outcome : Outcome) : Prop where
  value : (outcome.value : Int) = ((left : Int) - right - borrow.toNat) % powerOfTwo width
  borrows : outcome.carry = true ↔ left < right + borrow.toNat
  overflows : outcome.overflow = true ↔
    signed width left - signed width right - borrow.toNat ∉ signedRange width

section Width

variable {width : Nat}

/-! ## Two's complement -/

theorem signed_modEq (width value : Nat) : signed width value ≡ value [ZMOD powerOfTwo width] :=
  signed_emod width value

theorem mem_signedRange_iff {number : Int} :
    number ∈ signedRange width ↔
      -(powerOfTwo (width - 1) : Int) ≤ number ∧ number < powerOfTwo (width - 1) := by
  rw [signedRange, Set.mem_ofPred_eq, Int.le_sub_one_iff]

theorem signed_mem_signedRange (positive : 0 < width) (value : Nat) :
    signed width value ∈ signedRange width :=
  mem_signedRange_iff.mpr (signed_bounds positive value)

theorem signed_mapsTo (positive : 0 < width) :
    Set.MapsTo (signed width) (Set.Iio (powerOfTwo width)) (signedRange width) :=
  fun word _ => signed_mem_signedRange positive word

/-- Words with the same number have the same remainder, and are their own remainders. -/
theorem signed_injOn (width : Nat) : Set.InjOn (signed width) (Set.Iio (powerOfTwo width)) := by
  intro word inside other otherInside same
  have remainders : (word : Int) ≡ other [ZMOD powerOfTwo width] :=
    (signed_modEq width word).symm.trans (same ▸ signed_modEq width other)
  exact Nat.ModEq.eq_of_lt_of_lt (Int.natCast_modEq_iff.mp remainders) inside otherInside

/-- A number is that of its remainder. -/
theorem signed_surjOn (positive : 0 < width) :
    Set.SurjOn (signed width) (Set.Iio (powerOfTwo width)) (signedRange width) := by
  intro number inside
  obtain ⟨low, high⟩ := mem_signedRange_iff.mp inside
  have size : (0 : Int) < powerOfTwo width := Int.natCast_pos.mpr (powerOfTwo_pos width)
  have notNegative := Int.emod_nonneg number size.ne'
  have small := Int.emod_lt_of_pos number size
  refine ⟨(number % powerOfTwo width).toNat, ?_, signed_eq_of_emod positive low high ?_⟩
  · rw [Set.mem_Iio]
    omega
  · rw [Int.toNat_of_nonneg notNegative, Int.emod_emod_of_dvd _ (Int.dvd_refl _)]

theorem signed_bijOn (positive : 0 < width) :
    Set.BijOn (signed width) (Set.Iio (powerOfTwo width)) (signedRange width) :=
  ⟨signed_mapsTo positive, signed_injOn width, signed_surjOn positive⟩

/-- A number is not the one of the word that is left of it exactly if no word has it. -/
theorem bne_signed_iff (positive : 0 < width) {number : Int} {value : Nat}
    (remainder : number ≡ value [ZMOD powerOfTwo width]) :
    (number != signed width value) = true ↔ number ∉ signedRange width := by
  rw [bne_iff_ne]
  apply not_congr
  constructor
  · rintro rfl
    exact signed_mem_signedRange positive value
  · intro inside
    obtain ⟨low, high⟩ := mem_signedRange_iff.mp inside
    exact (signed_eq_of_emod positive low high remainder.symm).symm

/-! ## Sums and differences -/

theorem isSum_add (positive : 0 < width) (left right : Nat) (carry : Bool) :
    IsSum width left right carry (add width left right carry) where
  value := rfl
  carries := by rw [add, decide_eq_true_iff]
  overflows := by
    apply bne_signed_iff positive
    have unsigned : signed width left + signed width right + carry.toNat ≡
        ((left + right + carry.toNat : Nat) : Int) [ZMOD powerOfTwo width] :=
      ((signed_modEq width left).add (signed_modEq width right)).add_right carry.toNat
    have cut : ((left + right + carry.toNat : Nat) : Int) ≡
        truncate width (left + right + carry.toNat) [ZMOD powerOfTwo width] :=
      Int.natCast_modEq_iff.mpr (Nat.mod_modEq _ _).symm
    exact unsigned.trans cut

theorem isDifference_sub (positive : 0 < width) (left right : Nat) (borrow : Bool) :
    IsDifference width left right borrow (sub width left right borrow) := by
  have size : (powerOfTwo width : Int) ≠ 0 := by
    have some := powerOfTwo_pos width
    omega
  have value : ((sub width left right borrow).value : Int) =
      ((left : Int) - right - borrow.toNat) % powerOfTwo width :=
    Int.toNat_of_nonneg (Int.emod_nonneg _ size)
  constructor
  · exact value
  · rw [sub, decide_eq_true_iff]
    omega
  · apply bne_signed_iff positive
    have unsigned : signed width left - signed width right - borrow.toNat ≡
        (left : Int) - right - borrow.toNat [ZMOD powerOfTwo width] :=
      ((signed_modEq width left).sub (signed_modEq width right)).sub_right borrow.toNat
    have cut : (left : Int) - right - borrow.toNat ≡
        (sub width left right borrow).value [ZMOD powerOfTwo width] := by
      rw [value]
      exact (Int.mod_modEq _ _).symm
    exact unsigned.trans cut

/--
Arithmetic is exact at every width.  The words stand one-to-one for the numbers
in the range of two's complement, and have their remainders.  Two words with a
carry are added, and subtracted with a borrow, up to a whole number of turns;
the carry tells whether there is one, and the overflow whether the result with a
sign is out of range.  Words of up to thirty-two bits can be worked out by masks
in wider ones.
-/
theorem exact_at_width (positive : 0 < width) (narrow : width ≤ 32) :
    Set.BijOn (signed width) (Set.Iio (powerOfTwo width)) (signedRange width) ∧
    (∀ word : Nat, signed width word ≡ word [ZMOD powerOfTwo width]) ∧
    ∀ left < powerOfTwo width, ∀ right < powerOfTwo width, ∀ carry : Bool,
      IsSum width left right carry (add width left right carry) ∧
      IsDifference width left right carry (sub width left right carry) ∧
      (Masked.signed (.ofNat width) (.ofNat left)).toInt = signed width left ∧
      Masked.add (.ofNat width) (.ofNat left) (.ofNat right) carry = add width left right carry ∧
      Masked.sub (.ofNat width) (.ofNat left) (.ofNat right) carry = sub width left right carry := by
  refine ⟨signed_bijOn positive, signed_modEq width, ?_⟩
  intro left leftInside right rightInside carry
  have widthSmall : (UInt32.ofNat width).toNat = width :=
    UInt32.toNat_ofNat_of_lt' (Nat.lt_of_le_of_lt narrow (by decide))
  have some : 0 < UInt32.ofNat width :=
    UInt32.lt_iff_toNat_lt.mpr (Nat.lt_of_lt_of_eq positive widthSmall.symm)
  have few : UInt32.ofNat width ≤ 32 :=
    UInt32.le_iff_toNat_le.mpr (Nat.le_trans widthSmall.le narrow)
  have words := Masked.powerOfTwo_le few
  rw [widthSmall] at words
  have leftSmall : (UInt32.ofNat left).toNat = left :=
    UInt32.toNat_ofNat_of_lt' (Nat.lt_of_lt_of_le leftInside words)
  have rightSmall : (UInt32.ofNat right).toNat = right :=
    UInt32.toNat_ofNat_of_lt' (Nat.lt_of_lt_of_le rightInside words)
  refine ⟨isSum_add positive left right carry, isDifference_sub positive left right carry,
    ?_, ?_, ?_⟩
  · rw [Masked.toInt_signed some few, widthSmall, leftSmall]
  · rw [Masked.add_eq some few, widthSmall, leftSmall, rightSmall]
  · rw [Masked.sub_eq some few, widthSmall, leftSmall, rightSmall]

end Width

/-- A carry alone takes the greatest number of sixteen bits out of range, and a borrow the least. -/
theorem exact_at_width_extremes :
    0 < 16 ∧ 16 ≤ 32 ∧ 0x7FFF < powerOfTwo 16 ∧ 0x8000 < powerOfTwo 16 ∧
      Masked.add 16 0x7FFF 0 true = ⟨0x8000, false, true⟩ ∧
      Masked.sub 16 0x8000 0 true = ⟨0x7FFF, false, true⟩ ∧
      signed 16 0x7FFF + signed 16 0 + 1 ∉ signedRange 16 ∧
      signed 16 0x8000 - signed 16 0 - 1 ∉ signedRange 16 := by
  have positive : 0 < 16 := by decide
  have narrow : 16 ≤ 32 := by decide
  have greatest : 0x7FFF < powerOfTwo 16 := by decide
  have least : 0x8000 < powerOfTwo 16 := by decide
  obtain ⟨_, _, exact⟩ := exact_at_width positive narrow
  obtain ⟨sum, _, _, masked, _⟩ := exact 0x7FFF greatest 0 (by decide) true
  obtain ⟨_, difference, _, _, maskedToo⟩ := exact 0x8000 least 0 (by decide) true
  exact ⟨positive, narrow, greatest, least, masked.trans (by decide), maskedToo.trans (by decide),
    sum.overflows.mp (by decide), difference.overflows.mp (by decide)⟩

end ClassroomCpu.Alu
