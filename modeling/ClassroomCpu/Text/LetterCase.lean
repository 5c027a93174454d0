import ClassroomCpu.Text.UppercaseTable

/-!
# Letter case

Names are compared without regard to the case of ASCII letters, and are shown
and filed in upper case, where every letter of Unicode has its capital.
-/

namespace ClassroomCpu.Text

/-- The capital of a character above `U+007F`, if a run of small letters holds it. -/
def capitalInRuns? (code : Nat) : Option Nat :=
  (caseRuns.find? fun run =>
      run.first ≤ code && code ≤ run.last && (code - run.first) % run.step == 0).map
    fun run => ((code : Int) + run.shift).toNat

/-- The upper-case form of one character, which may be several characters long. -/
def capital (c : Char) : List Char :=
  if c.toNat < 128 then [c.toUpper]
  else
    match capitalInRuns? c.toNat with
    | some code => [Char.ofNat code]
    | none =>
        match caseExpansions.lookup c.toNat with
        | some codes => codes.map Char.ofNat
        | none => [c]

/-- The text in upper case. -/
def uppercase (text : String) : String :=
  String.ofList (text.toList.flatMap capital)

/-- The text with its ASCII letters in lower case. -/
def lowercase (text : String) : String :=
  String.ofList (text.toList.map Char.toLower)

/-- Whether two texts differ at most in the case of ASCII letters. -/
def sameLetters (left right : String) : Bool :=
  left.toList.map Char.toLower == right.toList.map Char.toLower

end ClassroomCpu.Text
