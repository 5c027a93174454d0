import ClassroomCpu.ByteOrder
import Mathlib.Algebra.Group.Int.Defs
import Mathlib.Algebra.Group.Nat.Defs

/-!
# Bytes and remainders

The bytes of a number hold its remainder by a power of 256.
-/

namespace ClassroomCpu

/-- A byte holds its own number. -/
theorem ofInt_toNat (byte : UInt8) : UInt8.ofInt byte.toNat = byte := by
  have kept := ByteOrder.toNat_ofInt byte.toNat
  have small := byte.toNat_lt
  apply UInt8.toNat.inj
  omega

namespace ByteOrder

/-- The low bytes of a number make up its remainder. -/
theorem ofLowBytes_lowBytes (width : Nat) (value : Int) :
    (ofLowBytes (lowBytes width value) : Int) = value % 256 ^ width := by
  induction width generalizing value with
  | zero => simp [lowBytes, ofLowBytes]
  | succ width induction =>
      have quotient : value / (256 * 256 ^ width) = value / 256 / 256 ^ width :=
        (Int.ediv_ediv_of_nonneg (by decide)).symm
      rw [lowBytes, ofLowBytes, Int.natCast_add, Int.natCast_mul, induction, toNat_ofInt,
        Int.pow_succ, Int.mul_comm ((256 : Int) ^ width) 256, Int.emod_def value (_ * _), quotient,
        Int.emod_def (value / 256), Int.mul_assoc]
      omega

/-- Decoding gives back what was encoded, up to what the bytes cannot hold. -/
theorem decode_encode (order : ByteOrder) (width : Nat) (value : Int) :
    (order.decode (order.encode width value) : Int) = value % 256 ^ width := by
  cases order <;> simp [decode, encode, ofLowBytes_lowBytes]

/-- Bytes make up no number that their count cannot hold. -/
theorem decode_lt (order : ByteOrder) (bytes : List UInt8) :
    order.decode bytes < 256 ^ bytes.length := by
  have same := order.decode_encode bytes.length (order.decode bytes)
  rw [encode_decode] at same
  have power : ((256 ^ bytes.length : Nat) : Int) = 256 ^ bytes.length := Int.natCast_pow 256 _
  have positive : 0 < 256 ^ bytes.length := Nat.pow_pos (by decide)
  have small := Int.emod_lt_of_pos (order.decode bytes : Int) (Int.natCast_pos.mpr positive)
  rw [power, ← same, ← power] at small
  exact Int.ofNat_lt.mp small

end ByteOrder

end ClassroomCpu
