import ClassroomCpu.Proofs.Alu
import Mathlib.Data.Nat.Bitwise

/-!
# Arithmetic by masks

Words of up to thirty-two bits are kept in words of thirty-two bits.  Sums are
worked out in words of sixty-four bits, differences and two's complement
numbers in such words with a sign, and a mask cuts the result out.  None of
these words is too narrow on the way: sums, differences and two's complement
numbers are the same as those that are worked out without any bound.
-/

namespace ClassroomCpu.Alu.Masked

/-- The word with a single bit. -/
def bit (place : UInt32) : UInt64 :=
  1 <<< place.toUInt64

/-- The word whose low `width` bits are set. -/
def mask (width : UInt32) : UInt32 :=
  (bit width - 1).toUInt32

/-- The word whose highest bit of `width` is set. -/
def signMask (width : UInt32) : UInt32 :=
  1 <<< (width - 1)

/-- A word in a wider one with a sign. -/
def widened (word : UInt32) : Int64 :=
  word.toUInt64.toInt64

/-- The low `width` bits of a word, read as a two's complement number. -/
def signed (width value : UInt32) : Int64 :=
  let word := value &&& mask width
  if word &&& signMask width ≠ 0 then widened word - (bit width).toInt64 else widened word

/-- The sum of two words and a carry. -/
def add (width left right : UInt32) (carry : Bool) : Outcome :=
  let full := left.toUInt64 + right.toUInt64 + carry.toUInt64
  let value := (full &&& (mask width).toUInt64).toUInt32
  let exact := signed width left + signed width right + carry.toInt64
  { value := value.toNat
    carry := decide ((mask width).toUInt64 < full)
    overflow := exact != signed width value }

/-- The difference of two words and a borrow. -/
def sub (width left right : UInt32) (borrow : Bool) : Outcome :=
  let full := widened left - widened right - borrow.toInt64
  let value := (full &&& widened (mask width)).toUInt64.toUInt32
  let exact := signed width left - signed width right - borrow.toInt64
  { value := value.toNat
    carry := decide (full < 0)
    overflow := exact != signed width value }

/-! ## Words with a sign -/

theorem toInt_toInt64 {word : UInt64} (small : word.toNat < 2 ^ 63) :
    word.toInt64.toInt = word.toNat :=
  BitVec.toInt_eq_toNat_of_lt (x := word.toBitVec) (by
    change 2 * word.toNat < 2 ^ 64
    omega)

theorem toInt_widened (word : UInt32) : (widened word).toInt = word.toNat := by
  have small := word.toNat_lt
  rw [widened, toInt_toInt64, UInt32.toNat_toUInt64]
  rw [UInt32.toNat_toUInt64]
  omega

theorem toInt_bool (flag : Bool) : flag.toInt64.toInt = flag.toNat := by
  cases flag <;> rfl

theorem toNat_bool (flag : Bool) : flag.toUInt64.toNat = flag.toNat := by
  cases flag <;> rfl

/-- Without its sign a word is the remainder of the number that it is with one. -/
theorem toNat_toUInt64 (number : Int64) :
    (number.toUInt64.toNat : Int) = number.toInt % 2 ^ 64 := by
  have reading : number.toInt = (number.toUInt64.toNat : Int).bmod (2 ^ 64) :=
    BitVec.toInt_eq_toNat_bmod number.toBitVec
  have remainder : (number.toUInt64.toNat : Int).bmod (2 ^ 64) % (2 ^ 64 : Nat) = _ :=
    Int.bmod_emod
  have small := number.toUInt64.toNat_lt
  omega

/-- A sum that has room in a word with a sign is exact. -/
theorem toInt_add_of_room {left right : Int64} {x y : Int} (first : left.toInt = x)
    (second : right.toInt = y) (low : -2 ^ 63 ≤ x + y) (high : x + y < 2 ^ 63) :
    (left + right).toInt = x + y := by
  rw [Int64.toInt_add, first, second]
  exact Int.bmod_eq_of_le (by omega) (by omega)

/-- A difference that has room in a word with a sign is exact. -/
theorem toInt_sub_of_room {left right : Int64} {x y : Int} (first : left.toInt = x)
    (second : right.toInt = y) (low : -2 ^ 63 ≤ x - y) (high : x - y < 2 ^ 63) :
    (left - right).toInt = x - y := by
  rw [Int64.toInt_sub, first, second]
  exact Int.bmod_eq_of_le (by omega) (by omega)

section Width

variable {width : UInt32}

/-! ## Masks -/

theorem powerOfTwo_le (narrow : width ≤ 32) : powerOfTwo width.toNat ≤ 2 ^ 32 :=
  Nat.pow_le_pow_right (by decide) (UInt32.le_iff_toNat_le.mp narrow)

theorem toNat_bit (narrow : width ≤ 32) : (bit width).toNat = powerOfTwo width.toNat := by
  have places : width.toNat ≤ 32 := UInt32.le_iff_toNat_le.mp narrow
  rw [bit, UInt64.toNat_shiftLeft, UInt32.toNat_toUInt64, Nat.mod_eq_of_lt (by omega : _ < 64),
    UInt64.toNat_one, Nat.one_shiftLeft]
  exact Nat.mod_eq_of_lt (Nat.pow_lt_pow_right (by decide) (by omega))

theorem toNat_mask (narrow : width ≤ 32) : (mask width).toNat = powerOfTwo width.toNat - 1 := by
  have small := powerOfTwo_le narrow
  have positive := powerOfTwo_pos width.toNat
  have one : (1 : UInt64) ≤ bit width := by
    rw [UInt64.le_iff_toNat_le, toNat_bit narrow]
    exact positive
  rw [mask, UInt64.toNat_toUInt32, UInt64.toNat_sub_of_le _ _ one, toNat_bit narrow,
    UInt64.toNat_one]
  omega

theorem and_toNat_mask (narrow : width ≤ 32) (value : Nat) :
    value &&& (mask width).toNat = truncate width.toNat value := by
  rw [toNat_mask narrow]
  exact Nat.and_two_pow_sub_one_eq_mod value width.toNat

theorem truncate_lt (narrow : width ≤ 32) (value : Nat) :
    truncate width.toNat value < 2 ^ 32 :=
  Nat.lt_of_lt_of_le (Nat.mod_lt _ (powerOfTwo_pos _)) (powerOfTwo_le narrow)

/-- The mask cuts the low bits out of a word without a sign. -/
theorem toNat_and_mask (narrow : width ≤ 32) (word : UInt64) :
    (word &&& (mask width).toUInt64).toUInt32.toNat = truncate width.toNat word.toNat := by
  rw [UInt64.toNat_toUInt32, UInt64.toNat_and, UInt32.toNat_toUInt64, and_toNat_mask narrow]
  exact Nat.mod_eq_of_lt (truncate_lt narrow _)

/-- The mask cuts the remainder out of a word with a sign, also if it is negative. -/
theorem toNat_and_widened_mask (narrow : width ≤ 32) {word : Int64} {number : Int}
    (same : word.toInt = number) :
    (word &&& widened (mask width)).toUInt64.toUInt32.toNat =
      (number % powerOfTwo width.toNat).toNat := by
  have places : width.toNat ≤ 64 :=
    Nat.le_trans (UInt32.le_iff_toNat_le.mp narrow) (by decide)
  have divides : (powerOfTwo width.toNat : Int) ∣ 2 ^ 64 :=
    Int.natCast_dvd_natCast.mpr (Nat.pow_dvd_pow 2 places)
  have unsigned : (word &&& widened (mask width)).toUInt64 =
      word.toUInt64 &&& (mask width).toUInt64 :=
    Int64.toUInt64_and _ _
  have cut : (truncate width.toNat word.toUInt64.toNat : Int) =
      number % powerOfTwo width.toNat := by
    rw [truncate, Int.natCast_emod, toNat_toUInt64, same, Int.emod_emod_of_dvd _ divides]
  rw [unsigned, toNat_and_mask narrow, ← cut, Int.toNat_natCast]

theorem toNat_signMask (positive : 0 < width) (narrow : width ≤ 32) :
    (signMask width).toNat = powerOfTwo (width.toNat - 1) := by
  have places : width.toNat ≤ 32 := UInt32.le_iff_toNat_le.mp narrow
  have one : (1 : UInt32) ≤ width := UInt32.le_iff_toNat_le.mpr (UInt32.lt_iff_toNat_lt.mp positive)
  rw [signMask, UInt32.toNat_shiftLeft, UInt32.toNat_sub_of_le _ _ one, UInt32.toNat_one,
    Nat.mod_eq_of_lt (by omega : _ < 32), Nat.one_shiftLeft]
  exact Nat.mod_eq_of_lt (Nat.pow_lt_pow_right (by decide) (by omega))

/-! ## Two's complement -/

/-- The highest bit is set in the upper half of all words. -/
theorem testBit_highest {places number : Nat} (small : number < 2 * powerOfTwo places) :
    number.testBit places = decide (powerOfTwo places ≤ number) := by
  rw [Nat.testBit_eq_decide_div_mod_eq, decide_eq_decide]
  change number / powerOfTwo places % 2 = 1 ↔ _
  rcases Nat.lt_or_ge number (powerOfTwo places) with below | above
  · rw [Nat.div_eq_of_lt below]
    omega
  · rw [Nat.div_eq_of_lt_le (k := 1) (by omega) (by omega)]
    omega

theorem and_signMask_ne_zero (positive : 0 < width) (narrow : width ≤ 32) {word : UInt32}
    (small : word.toNat < powerOfTwo width.toNat) :
    word &&& signMask width ≠ 0 ↔ ¬ word.toNat < powerOfTwo (width.toNat - 1) := by
  have double := powerOfTwo_pred (UInt32.lt_iff_toNat_lt.mp positive)
  have half := powerOfTwo_pos (width.toNat - 1)
  have single : word.toNat &&& powerOfTwo (width.toNat - 1) =
      (word.toNat.testBit (width.toNat - 1)).toNat * powerOfTwo (width.toNat - 1) :=
    Nat.and_two_pow _ _
  rw [ne_eq, ← UInt32.toNat_inj, UInt32.toNat_and, toNat_signMask positive narrow, single,
    testBit_highest (double ▸ small), UInt32.toNat_zero]
  by_cases above : powerOfTwo (width.toNat - 1) ≤ word.toNat
  · simp only [above, decide_true, Bool.toNat_true]
    omega
  · simp only [above, decide_false, Bool.toNat_false]
    omega

theorem toInt_signed (positive : 0 < width) (narrow : width ≤ 32) (value : UInt32) :
    (signed width value).toInt = Alu.signed width.toNat value.toNat := by
  have low : (value &&& mask width).toNat = truncate width.toNat value.toNat := by
    rw [UInt32.toNat_and, and_toNat_mask narrow]
  have small : truncate width.toNat value.toNat < powerOfTwo width.toNat :=
    Nat.mod_lt _ (powerOfTwo_pos _)
  have size := powerOfTwo_le narrow
  have modulus : (bit width).toInt64.toInt = powerOfTwo width.toNat := by
    rw [toInt_toInt64, toNat_bit narrow]
    rw [toNat_bit narrow]
    omega
  have upper := and_signMask_ne_zero positive narrow (low ▸ small)
  rw [low] at upper
  have word : (widened (value &&& mask width)).toInt = truncate width.toNat value.toNat := by
    rw [toInt_widened, low]
  unfold signed Alu.signed
  simp only [upper, ite_not]
  split
  · exact word
  · exact toInt_sub_of_room word modulus (by omega) (by omega)

theorem signed_small (positive : 0 < width) (narrow : width ≤ 32) (value : Nat) :
    -2 ^ 32 ≤ Alu.signed width.toNat value ∧ Alu.signed width.toNat value < 2 ^ 32 := by
  have some : 0 < width.toNat := UInt32.lt_iff_toNat_lt.mp positive
  have bounds := signed_bounds some value
  have double := powerOfTwo_pred some
  have size := powerOfTwo_le narrow
  omega

theorem bne_signed (positive : 0 < width) (narrow : width ≤ 32) {exact : Int64} {number : Int}
    (same : exact.toInt = number) (value : UInt32) :
    (exact != signed width value) = (number != Alu.signed width.toNat value.toNat) := by
  rw [Bool.eq_iff_iff, bne_iff_ne, bne_iff_ne, ne_eq, ne_eq, ← Int64.toInt_inj, same,
    toInt_signed positive narrow]

/-! ## Sums and differences -/

/-- No sum leaves its word. -/
theorem add_eq (positive : 0 < width) (narrow : width ≤ 32) (left right : UInt32) (carry : Bool) :
    add width left right carry = Alu.add width.toNat left.toNat right.toNat carry := by
  have leftSmall := left.toNat_lt
  have rightSmall := right.toNat_lt
  have carrySmall := carry.toNat_lt
  have some := powerOfTwo_pos width.toNat
  have full : (left.toUInt64 + right.toUInt64 + carry.toUInt64).toNat =
      left.toNat + right.toNat + carry.toNat := by
    rw [UInt64.toNat_add, UInt64.toNat_add, UInt32.toNat_toUInt64, UInt32.toNat_toUInt64,
      toNat_bool]
    omega
  have value := toNat_and_mask narrow (left.toUInt64 + right.toUInt64 + carry.toUInt64)
  rw [full] at value
  have leftBounds := signed_small positive narrow left.toNat
  have rightBounds := signed_small positive narrow right.toNat
  have exact : (signed width left + signed width right + carry.toInt64).toInt =
      Alu.signed width.toNat left.toNat + Alu.signed width.toNat right.toNat + carry.toNat :=
    toInt_add_of_room
      (toInt_add_of_room (toInt_signed positive narrow left) (toInt_signed positive narrow right)
        (by omega) (by omega))
      (toInt_bool carry) (by omega) (by omega)
  have carries : (mask width).toUInt64 < left.toUInt64 + right.toUInt64 + carry.toUInt64 ↔
      powerOfTwo width.toNat ≤ left.toNat + right.toNat + carry.toNat := by
    rw [UInt64.lt_iff_toNat_lt, full, UInt32.toNat_toUInt64, toNat_mask narrow]
    omega
  simp only [add, Alu.add, bne_signed positive narrow exact, value, carries]

/-- No difference leaves its word. -/
theorem sub_eq (positive : 0 < width) (narrow : width ≤ 32) (left right : UInt32) (borrow : Bool) :
    sub width left right borrow = Alu.sub width.toNat left.toNat right.toNat borrow := by
  have leftSmall := left.toNat_lt
  have rightSmall := right.toNat_lt
  have borrowSmall := borrow.toNat_lt
  have full : (widened left - widened right - borrow.toInt64).toInt =
      (left.toNat : Int) - right.toNat - borrow.toNat :=
    toInt_sub_of_room
      (toInt_sub_of_room (toInt_widened left) (toInt_widened right) (by omega) (by omega))
      (toInt_bool borrow) (by omega) (by omega)
  have value := toNat_and_widened_mask narrow full
  have leftBounds := signed_small positive narrow left.toNat
  have rightBounds := signed_small positive narrow right.toNat
  have exact : (signed width left - signed width right - borrow.toInt64).toInt =
      Alu.signed width.toNat left.toNat - Alu.signed width.toNat right.toNat - borrow.toNat :=
    toInt_sub_of_room
      (toInt_sub_of_room (toInt_signed positive narrow left) (toInt_signed positive narrow right)
        (by omega) (by omega))
      (toInt_bool borrow) (by omega) (by omega)
  have borrows : widened left - widened right - borrow.toInt64 < 0 ↔
      (left.toNat : Int) - right.toNat - borrow.toNat < 0 := by
    rw [Int64.lt_iff_toInt_lt, full, Int64.toInt_zero]
  simp only [sub, Alu.sub, bne_signed positive narrow exact, value, borrows]

end Width

end ClassroomCpu.Alu.Masked
