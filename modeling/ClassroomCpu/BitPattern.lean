/-!
# Bit patterns

A bit pattern picks out bytes by their bits, most significant bit first.  A
point is a position that does not matter: it matches either bit and adds
nothing to the value of the pattern.
-/

namespace ClassroomCpu

/-- A text over `0`, `1` and `.` that describes the bits of a byte. -/
structure BitPattern where
  /-- The symbols of the pattern, most significant bit first. -/
  text : String
  deriving DecidableEq, Repr

namespace BitPattern

/-- The symbol for one bit. -/
def symbol (bit : Bool) : Char :=
  if bit then '1' else '0'

/-- The eight bits of a byte as symbols, most significant bit first. -/
def symbols (byte : UInt8) : List Char :=
  [7, 6, 5, 4, 3, 2, 1, 0].map fun position => symbol (byte.toNat.testBit position)

/-- The pattern that only the given byte matches. -/
def ofByte (byte : UInt8) : BitPattern :=
  ⟨String.ofList (symbols byte)⟩

/-- The number that the ones of a text write, in eight bits. -/
def valueOf (text : List Char) : UInt8 :=
  text.foldl (fun value c => (value <<< 1) ||| (if c = '1' then 1 else 0)) 0

/--
The value of a pattern: positions that do not matter count as zero, a short
pattern gives the low bits, and of a long one the last eight symbols count.
-/
def value (pattern : BitPattern) : UInt8 :=
  valueOf pattern.text.toList

/-- Whether two texts are equally long and agree wherever the first one is no point. -/
def agrees : List Char → List Char → Bool
  | [], [] => true
  | wanted :: pattern, bit :: bits => (wanted == '.' || wanted == bit) && agrees pattern bits
  | _, _ => false

/--
Whether a byte has a given bit wherever the pattern asks for one.  A pattern
that does not have eight symbols, such as the empty one, matches no byte.
-/
def isMatch (pattern : BitPattern) (byte : UInt8) : Bool :=
  agrees pattern.text.toList (symbols byte)

/-- All bytes that match, in ascending order. -/
def matching (pattern : BitPattern) : List UInt8 :=
  ((List.range 256).map UInt8.ofNat).filter pattern.isMatch

end BitPattern

end ClassroomCpu
