import ClassroomCpu.Alu

/-!
# Signed words

A word stands for the one signed number of as many bits that has its remainder.
-/

namespace ClassroomCpu.Alu

theorem powerOfTwo_pred {width : Nat} (positive : 0 < width) :
    powerOfTwo width = 2 * powerOfTwo (width - 1) := by
  rw [← powerOfTwo_succ, Nat.sub_add_cancel positive]

/-- The sign does not matter to the remainder. -/
theorem signed_emod (width value : Nat) :
    signed width value % powerOfTwo width = (value : Int) % powerOfTwo width := by
  unfold signed truncate
  dsimp only
  split
  · rw [Int.natCast_emod, Int.emod_emod_of_dvd _ (Int.dvd_refl _)]
  · rw [Int.natCast_emod, Int.sub_emod_right, Int.emod_emod_of_dvd _ (Int.dvd_refl _)]

theorem signed_bounds {width : Nat} (positive : 0 < width) (value : Nat) :
    -(powerOfTwo (width - 1) : Int) ≤ signed width value ∧
      signed width value < powerOfTwo (width - 1) := by
  have double := powerOfTwo_pred positive
  have small := Nat.mod_lt value (powerOfTwo_pos width)
  unfold signed truncate
  dsimp only
  split <;> omega

/-- A word is the signed number of its bits with its remainder. -/
theorem signed_eq_of_emod {width value : Nat} (positive : 0 < width) {number : Int}
    (low : -(powerOfTwo (width - 1) : Int) ≤ number) (high : number < powerOfTwo (width - 1))
    (same : (value : Int) % powerOfTwo width = number % powerOfTwo width) :
    signed width value = number := by
  have double := powerOfTwo_pred positive
  obtain ⟨signedLow, signedHigh⟩ := signed_bounds positive value
  have remainders : (signed width value - number) % powerOfTwo width = 0 :=
    Int.emod_eq_emod_iff_emod_sub_eq_zero.mp ((signed_emod width value).trans same)
  have difference : signed width value - number = 0 :=
    Int.eq_zero_of_dvd_of_natAbs_lt_natAbs (Int.dvd_of_emod_eq_zero remainders) (by omega)
  omega

/-- The two's complement reading of a word is its balanced remainder. -/
theorem signed_eq_bmod {width : Nat} (positive : 0 < width) (value : Nat) :
    signed width value = (value : Int).bmod (powerOfTwo width) := by
  have double := powerOfTwo_pred positive
  have half := powerOfTwo_pos (width - 1)
  have size := powerOfTwo_pos width
  apply signed_eq_of_emod positive
  · have low := Int.le_bmod (x := (value : Int)) size
    omega
  · have high := Int.bmod_lt (x := (value : Int)) size
    omega
  · exact Int.bmod_emod.symm

end ClassroomCpu.Alu
