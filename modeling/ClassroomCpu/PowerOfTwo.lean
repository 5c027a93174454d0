/-!
# Powers of two

The number of values of a word, the size of a memory whose addresses wrap
around, and the bounds of the numbers that are read are powers of two.
-/

namespace ClassroomCpu

/-- Two to the power of a number: how many words have that many bits. -/
def powerOfTwo (exponent : Nat) : Nat :=
  Nat.pow 2 exponent

/-- A power of two is positive. -/
theorem powerOfTwo_pos (exponent : Nat) : 0 < powerOfTwo exponent :=
  Nat.two_pow_pos exponent

/-- One more bit doubles the number of words. -/
theorem powerOfTwo_succ (exponent : Nat) :
    powerOfTwo (exponent + 1) = 2 * powerOfTwo exponent :=
  Nat.mul_comm _ _

end ClassroomCpu
