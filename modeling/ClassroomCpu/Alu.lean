import ClassroomCpu.PowerOfTwo

/-!
# Arithmetic on words

Addition and subtraction of words of any width, with carry in and out and the
overflow of the two's complement reading.
-/

namespace ClassroomCpu.Alu

/-- The word that keeps the low `width` bits of a number. -/
def truncate (width value : Nat) : Nat :=
  value % powerOfTwo width

/-- The low `width` bits of a number, read as a two's complement number. -/
def signed (width value : Nat) : Int :=
  let word := truncate width value
  if word < powerOfTwo (width - 1) then word else (word : Int) - powerOfTwo width

/-- Whether the highest bit of a word is set. -/
def signBit (width value : Nat) : Bool :=
  value.testBit (width - 1)

/-- What an addition or a subtraction leaves behind. -/
structure Outcome where
  /-- The word of the result. -/
  value : Nat
  /-- The carry out of an addition, the borrow of a subtraction. -/
  carry : Bool
  /-- Whether the signed result does not fit into the word. -/
  overflow : Bool
  deriving DecidableEq, Repr

/-- The sum of two words and a carry. -/
def add (width left right : Nat) (carry : Bool) : Outcome :=
  let full := left + right + carry.toNat
  let value := truncate width full
  { value
    carry := decide (powerOfTwo width ≤ full)
    overflow := signed width left + signed width right + carry.toNat != signed width value }

/-- The difference of two words and a borrow. -/
def sub (width left right : Nat) (borrow : Bool) : Outcome :=
  let full : Int := (left : Int) - right - borrow.toNat
  let value := (full % powerOfTwo width).toNat
  { value
    carry := decide (full < 0)
    overflow := signed width left - signed width right - borrow.toNat != signed width value }

/-- The word with all bits turned around. -/
def complement (width value : Nat) : Nat :=
  powerOfTwo width - 1 - truncate width value

end ClassroomCpu.Alu
