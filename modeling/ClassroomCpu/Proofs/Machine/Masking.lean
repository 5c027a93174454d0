import ClassroomCpu.Machine.Basic
import Mathlib.Data.Nat.Bitwise

/-!
# Masked addresses

A cell is found by the low bits of an address, of which there are as many as
the number of cells needs.  A mask never leads out of memory, and wraps an
address around whether it is counted from the start or back from it.
-/

namespace ClassroomCpu

/-- Masking with one less than a power of two is taking the remainder. -/
theorem and_pred_powerOfTwo {size : Nat} (power : powerOfTwo size.log2 = size) (number : Nat) :
    number &&& (size - 1) = number % size := by
  have mask := Nat.and_two_pow_sub_one_eq_mod number size.log2
  rwa [show 2 ^ size.log2 = size from power] at mask

namespace Architecture

variable (arch : Architecture)

/-- The low bits of an address are the cell that it means. -/
theorem masked_eq_cell (address : Nat) :
    address &&& (arch.memorySize - 1) = arch.cell address :=
  and_pred_powerOfTwo arch.memorySize_eq address

/-- The low bits of a word of 64 bits, a negative one included, are the cell that it means. -/
theorem maskedWord_eq_wrap (small : arch.memorySize.log2 ≤ 64) (address : Int) :
    (BitVec.ofInt 64 address &&& BitVec.ofNat 64 (arch.memorySize - 1)).toNat =
      arch.wrap address := by
  have size : arch.memorySize = 2 ^ arch.memorySize.log2 := arch.memorySize_eq.symm
  have below : arch.memorySize - 1 < 2 ^ 64 := by
    have bound := Nat.pow_le_pow_right (show 0 < 2 by decide) small
    have positive := arch.memorySize_pos
    omega
  have divides : ((arch.memorySize : Nat) : Int) ∣ ((2 ^ 64 : Nat) : Int) := by
    rw [size]
    exact Int.natCast_dvd_natCast.mpr (Nat.pow_dvd_pow 2 small)
  have low : 0 ≤ address % ((2 ^ 64 : Nat) : Int) := Int.emod_nonneg _ (by decide)
  rw [BitVec.toNat_and, BitVec.toNat_ofNat, Nat.mod_eq_of_lt below, BitVec.toNat_ofInt,
    masked_eq_cell]
  apply Int.ofNat_inj.mp
  change (((address % ((2 ^ 64 : Nat) : Int)).toNat % arch.memorySize : Nat) : Int) = _
  rw [arch.val_wrap, Int.natCast_emod, Int.toNat_of_nonneg low, Int.emod_emod_of_dvd _ divides]

end Architecture

end ClassroomCpu
