/-!
# Byte order

Numbers of several bytes are written lowest byte first or highest byte first.
Encoding keeps the low bytes of a number, decoding puts them together again.
-/

namespace ClassroomCpu

/-- Which end of a number comes first in memory. -/
inductive ByteOrder
  /-- The highest byte comes first. -/
  | big
  /-- The lowest byte comes first. -/
  | little
  deriving DecidableEq, Repr

namespace ByteOrder

/-- The `width` lowest bytes of a number, lowest first. -/
def lowBytes : Nat → Int → List UInt8
  | 0, _ => []
  | width + 1, value => UInt8.ofInt value :: lowBytes width (value / 256)

@[simp] theorem length_lowBytes (width : Nat) (value : Int) :
    (lowBytes width value).length = width := by
  induction width generalizing value with
  | zero => rfl
  | succ width induction => simp [lowBytes, induction]

/-- The number whose bytes are given lowest first. -/
def ofLowBytes : List UInt8 → Nat
  | [] => 0
  | byte :: bytes => byte.toNat + 256 * ofLowBytes bytes

theorem toNat_ofInt (value : Int) : ((UInt8.ofInt value).toNat : Int) = value % 256 := by
  have low := Int.emod_nonneg value (b := 256) (by decide)
  have high := Int.emod_lt_of_pos value (b := 256) (by decide)
  simp only [UInt8.ofInt, UInt8.toNat_ofNat']
  omega

/-- Bytes are the low bytes of the number that they make up. -/
theorem lowBytes_ofLowBytes (bytes : List UInt8) :
    lowBytes bytes.length (ofLowBytes bytes) = bytes := by
  induction bytes with
  | nil => rfl
  | cons byte bytes induction =>
      have small := byte.toNat_lt
      have first : UInt8.ofInt ((byte.toNat + 256 * ofLowBytes bytes : Nat) : Int) = byte := by
        apply UInt8.toNat_inj.mp
        have remainder := toNat_ofInt ((byte.toNat + 256 * ofLowBytes bytes : Nat) : Int)
        omega
      have others : ((byte.toNat + 256 * ofLowBytes bytes : Nat) : Int) / 256 =
          (ofLowBytes bytes : Int) := by
        omega
      rw [ofLowBytes, List.length_cons, lowBytes, first, others, induction]

/-- The `width` lowest bytes of a number in the given order. -/
def encode : ByteOrder → Nat → Int → List UInt8
  | .big, width, value => (lowBytes width value).reverse
  | .little, width, value => lowBytes width value

@[simp] theorem length_encode (order : ByteOrder) (width : Nat) (value : Int) :
    (order.encode width value).length = width := by
  cases order <;> simp [encode]

/-- The number that bytes in the given order make up. -/
def decode : ByteOrder → List UInt8 → Nat
  | .big, bytes => ofLowBytes bytes.reverse
  | .little, bytes => ofLowBytes bytes

/-- Encoding gives back what was decoded. -/
theorem encode_decode (order : ByteOrder) (bytes : List UInt8) :
    order.encode bytes.length (order.decode bytes) = bytes := by
  cases order with
  | big =>
      have reversed := lowBytes_ofLowBytes bytes.reverse
      rw [List.length_reverse] at reversed
      rw [encode, decode, reversed, List.reverse_reverse]
  | little => exact lowBytes_ofLowBytes bytes

end ByteOrder

end ClassroomCpu
