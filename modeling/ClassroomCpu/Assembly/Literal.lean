import ClassroomCpu.PowerOfTwo
import ClassroomCpu.Text.Numeral

/-!
# Literal numbers

A literal is a decimal number, or a hexadecimal one behind an `h`, with or
without a sign; its magnitude is below the sixty-third power of two.
-/

namespace ClassroomCpu.Assembly

/-- The magnitudes of literals are below this number. -/
def literalBound : Nat :=
  powerOfTwo 63

/-- The magnitude of a literal without a sign. -/
def magnitude? (text : List Char) : Option Nat :=
  let number :=
    match text with
    | [] => none
    | c :: rest =>
        if c = 'h' ∨ c = 'H' then Text.natural? 16 rest else Text.natural? 10 (c :: rest)
  number.filter (· < literalBound)

/-- The number that a literal writes. -/
def literal? : List Char → Option Int
  | '-' :: text => (magnitude? text).map fun magnitude => -(magnitude : Int)
  | '+' :: text => (magnitude? text).map fun magnitude => (magnitude : Int)
  | text => (magnitude? text).map fun magnitude => (magnitude : Int)

end ClassroomCpu.Assembly
