import ClassroomCpu.Machine.Listing
import ClassroomCpu.Text.Quoted

/-!
# Memory images

A memory image is the length of the identifier of a machine, the identifier,
and two bytes for every memory cell: its value and a byte of padding.  An image
is taken over only as a whole: it has to have the right length and to come from
the same kind of machine.
-/

namespace ClassroomCpu

/-- Why a memory image is refused. -/
inductive ImportError
  /-- The image does not have the length that its first byte and the machine ask for. -/
  | invalidSize (expected found : Nat)
  /-- The image belongs to another machine. -/
  | identifierMismatch (expected found : String)
  /-- The identifier is no text. -/
  | malformed
  deriving DecidableEq, Repr

namespace ImportError

/-- The wording of a refusal. -/
def message : ImportError → String
  | invalidSize expected found =>
      "invalid file size: expected " ++ Text.decimal expected ++ " bytes, found "
        ++ Text.decimal found
  | identifierMismatch expected found =>
      "file belongs to machine " ++ Text.quoted found ++ ", expected " ++ Text.quoted expected
  | malformed => "malformed memory dump"

end ImportError

namespace MemoryImage

/-- The text that bytes encode, if they encode one. -/
def text? (bytes : List UInt8) : Option String :=
  String.fromUTF8? ⟨bytes.toArray⟩

/-- The bytes that encode a text. -/
def textBytes (text : String) : List UInt8 :=
  text.toUTF8.data.toList

/-- The identifier in a memory image, if the image starts with one. -/
def identifier? : List UInt8 → Option String
  | [] => none
  | length :: rest =>
      if rest.length < length.toNat then none else text? (rest.take length.toNat)

/-- The values of cells without their padding. -/
def withoutPadding : List UInt8 → List UInt8
  | value :: _ :: rest => value :: withoutPadding rest
  | _ => []

/-- The values of cells with a byte of padding behind each. -/
def withPadding : List UInt8 → List UInt8
  | [] => []
  | value :: rest => value :: 0 :: withPadding rest

/-- The length that an image has to have for a machine. -/
def expectedSize (arch : Architecture) : List UInt8 → Nat
  | [] => 1 + (textBytes arch.identifier).length + 2 * arch.memorySize
  | length :: _ => 1 + length.toNat + 2 * arch.memorySize

/-- The values of the cells in an image for a machine, or why the image is refused. -/
def cells (arch : Architecture) (image : List UInt8) : Except ImportError (List UInt8) :=
  if image.length ≠ expectedSize arch image then
    .error (.invalidSize (expectedSize arch image) image.length)
  else
    match image with
    | [] => .error .malformed
    | length :: rest =>
        match text? (rest.take length.toNat) with
        | none => .error .malformed
        | some identifier =>
            if identifier = arch.identifier then .ok (withoutPadding (rest.drop length.toNat))
            else .error (.identifierMismatch arch.identifier identifier)

end MemoryImage

namespace Machine

variable {arch : Architecture}

/-- The length of the memory image of a machine. -/
def imageSize (arch : Architecture) : Nat :=
  1 + (MemoryImage.textBytes arch.identifier).length + 2 * arch.memorySize

/-- The memory image of a machine. -/
def exportImage (machine : Machine arch) : List UInt8 :=
  let identifier := MemoryImage.textBytes arch.identifier
  UInt8.ofNat identifier.length :: identifier
    ++ MemoryImage.withPadding machine.memory.toList

/--
Writes those of the given values that neighbouring cells do not hold yet, and
takes away the labels of all these cells.
-/
def takeCells (machine : Machine arch) (address : Nat) : List UInt8 → Machine arch
  | [] => machine
  | value :: values =>
      let machine :=
        if machine.peek address = value then machine else machine.poke address value.toNat
      (machine.setLabel (arch.cell address) "").takeCells (address + 1) values

/-- Takes over a memory image; events are held back meanwhile. -/
def importImage (machine : Machine arch) (image : List UInt8) :
    Except ImportError (Machine arch) :=
  match MemoryImage.cells arch image with
  | .error error => .error error
  | .ok values => .ok (machine.startQueue.takeCells 0 values).refreshTexts.flush

end Machine

end ClassroomCpu
