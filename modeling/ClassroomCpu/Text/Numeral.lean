/-!
# Numerals

How numbers are written and read: decimal output, digits of either letter case
in any base up to thirty-six, and unsigned numbers below a bound, which may
carry a plus sign.
-/

namespace ClassroomCpu.Text

/-- A number in decimal digits. -/
def decimal (number : Nat) : String :=
  String.ofList (Nat.toDigits 10 number)

/-- A signed number in decimal digits, negative ones after a minus sign. -/
def signedDecimal (number : Int) : String :=
  if number < 0 then "-" ++ decimal number.natAbs else decimal number.natAbs

/-- The value of a digit below `base`; letters of either case follow the nine. -/
def digit? (base : Nat) (c : Char) : Option Nat :=
  let value :=
    if '0' ≤ c ∧ c ≤ '9' then c.toNat - '0'.toNat
    else if 'a' ≤ c ∧ c ≤ 'z' then c.toNat - 'a'.toNat + 10
    else if 'A' ≤ c ∧ c ≤ 'Z' then c.toNat - 'A'.toNat + 10
    else base
  if value < base then some value else none

/-- Reads digits after those that make up `start`. -/
def digitsFrom? (base start : Nat) : List Char → Option Nat
  | [] => some start
  | c :: rest =>
      match digit? base c with
      | some value => digitsFrom? base (start * base + value) rest
      | none => none

/-- The number that one or more digits write. -/
def natural? (base : Nat) (digits : List Char) : Option Nat :=
  if digits.isEmpty then none else digitsFrom? base 0 digits

/-- An unsigned number below `bound`, with or without a plus sign in front. -/
def unsigned? (base bound : Nat) (text : List Char) : Option Nat :=
  let digits :=
    match text with
    | '+' :: rest => rest
    | _ => text
  (natural? base digits).filter (· < bound)

/-- The text, with spaces in front up to the given width. -/
def alignRight (width : Nat) (text : String) : String :=
  String.ofList (List.replicate (width - text.length) ' ') ++ text

/-- The text, with spaces behind it up to the given width. -/
def alignLeft (width : Nat) (text : String) : String :=
  text ++ String.ofList (List.replicate (width - text.length) ' ')

/-- A byte as two hexadecimal digits in lower case. -/
def hexByte (byte : UInt8) : String :=
  String.ofList [Nat.digitChar (byte.toNat / 16), Nat.digitChar (byte.toNat % 16)]

end ClassroomCpu.Text
