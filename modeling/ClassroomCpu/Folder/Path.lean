import ClassroomCpu.Folder.Error

/-!
# Paths

A path is a chain of names between slashes.  It starts at the folder in which
it is read, or at the root if a slash stands in front.  Empty pieces count for
nothing, except that a slash at the end says that a directory is meant; one
point names the directory itself and two points the directory that holds it.
-/

namespace ClassroomCpu

/-- A directory that can be reached without going down into another one. -/
inductive Directory
  /-- The folder itself, or the directory so many levels above it. -/
  | above (levels : Nat)
  /-- The directory that holds all others. -/
  | root
  deriving DecidableEq, Repr

namespace Directory

/-- The directory that holds this one; the root holds itself. -/
def parent : Directory → Directory
  | above levels => above (levels + 1)
  | root => root

/-- The shortest path of an entry of a directory: the bare name in the folder itself. -/
def pathOf : Directory → String → String
  | above levels, name => String.join (List.replicate levels "../") ++ name
  | root, name => "/" ++ name

end Directory

/-- A path cut into its names. -/
structure Path where
  /-- Where the path starts. -/
  start : Directory
  /-- The names in front of the last one; each must be that of a directory. -/
  way : List String
  /-- The last name. -/
  last : String
  /-- Whether a slash follows the last name. -/
  slashed : Bool
  deriving DecidableEq, Repr

namespace Path

/-- The pieces of a path between its slashes, after the start of a piece. -/
def piecesFrom (current : List Char) : List Char → List (List Char)
  | [] => [current.reverse]
  | c :: rest =>
      if c = '/' then current.reverse :: piecesFrom [] rest else piecesFrom (c :: current) rest

/-- The names along a path. -/
def names (text : String) : List String :=
  ((piecesFrom [] text.toList).filter fun piece => !piece.isEmpty).map String.ofList

/-- Cuts a path into its names; slashes alone lead to the root. -/
def cut (text : String) : Path where
  start := if text.toList.head? = some '/' then .root else .above 0
  way := (names text).dropLast
  last := (names text).getLastD "."
  slashed := text.toList.getLast? = some '/'

/-- Names have at most this number of bytes. -/
def nameLimit : Nat :=
  255

/-- Whole paths have at most this number of bytes. -/
def limit : Nat :=
  4095

/-- The path that a text writes, unless its characters or its length forbid it. -/
def ofText (text : String) : Except FileError Path :=
  if '\x00' ∈ text.toList then .error .nulInPath
  else if text.isEmpty then .error .missing
  else if limit < text.utf8ByteSize then .error .nameTooLong
  else .ok (cut text)

end Path

end ClassroomCpu
