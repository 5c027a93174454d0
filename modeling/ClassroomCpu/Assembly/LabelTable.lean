import ClassroomCpu.Assembly.Literal
import ClassroomCpu.Text.LetterCase

/-!
# Labels

The labels of a program with their addresses, and the numbers that words stand
for with their help.
-/

namespace ClassroomCpu.Assembly

/-- The addresses of labels under their names in upper case, the newest label first. -/
abbrev LabelTable := List (String × Nat)

namespace LabelTable

/-- The address of a label, whatever the case of its letters. -/
def find? (labels : LabelTable) (name : String) : Option Nat :=
  labels.lookup (Text.uppercase name)

/-- The table with a further label. -/
def define (labels : LabelTable) (name : String) (address : Nat) : LabelTable :=
  (Text.uppercase name, address) :: labels

end LabelTable

/-- Whether a character may stand at the start of a label. -/
def isLabelStart (c : Char) : Bool :=
  c.isAlpha || c == '_'

/-- Whether a character may stand in a label. -/
def isLabelChar (c : Char) : Bool :=
  c.isAlphanum || c == '_'

/-- Whether a text can be a label. -/
def isLabel : List Char → Bool
  | [] => false
  | c :: rest => isLabelStart c && rest.all isLabelChar

/-- The number that a word stands for. -/
structure Resolved where
  value : Int
  /-- Whether the number comes from a label. -/
  isLabel : Bool
  deriving DecidableEq, Repr

/-- Whether a character starts an offset. -/
def isSign (c : Char) : Bool :=
  c == '+' || c == '-'

/-- Cuts a text in front of its last sign, the first character apart. -/
def cutAtSign? : List Char → Option (List Char × List Char)
  | [] => none
  | first :: rest =>
      match rest.reverse.dropWhile fun c => !isSign c with
      | [] => none
      | sign :: before =>
          some (first :: before.reverse,
            sign :: (rest.reverse.takeWhile fun c => !isSign c).reverse)

/-- The number of a label or of a literal. -/
def resolvePlain? (labels : LabelTable) (text : String) : Option Resolved :=
  match labels.find? text with
  | some address => some ⟨address, true⟩
  | none => (literal? text.toList).map fun value => ⟨value, false⟩

/--
The number of a word: of a known label with an offset behind it, of a label, or
of a literal, in this order of preference.
-/
def resolve? (labels : LabelTable) (text : String) : Option Resolved :=
  match cutAtSign? text.toList with
  | none => resolvePlain? labels text
  | some (name, offset) =>
      match labels.find? (String.ofList name) with
      | some address => (literal? offset).map fun offset => ⟨address + offset, true⟩
      | none => resolvePlain? labels text

end ClassroomCpu.Assembly
