import ClassroomCpu.Folder.Path
import ClassroomCpu.MemoryImage

/-!
# Files

What a session or a run may want of the files around it, and a folder of
files that answers without an operating system.  No directory is known except
the folder and those above it, so every other name on the way to a file either
is that of a file, which leads nowhere, or is missing.
-/

namespace ClassroomCpu

/-- How the bytes of a file are found. -/
abbrev FileReader := String → Except FileError (List UInt8)

/-- The text of a file. -/
def FileReader.text (read : FileReader) (path : String) : Except FileError String := do
  let bytes ← read path
  match MemoryImage.text? bytes with
  | some text => return text
  | none => throw .notText

/-- The files that can be reached from a folder, by their shortest paths. -/
abbrev Folder := List (String × List UInt8)

/-- What a path leads to, as far as directories tell. -/
inductive Destination
  /-- A directory. -/
  | directory
  /-- An entry of a directory, which may be there or not. -/
  | entry (directory : Directory) (name : String)
  deriving DecidableEq, Repr

namespace Folder

/-- The folder with a file, in place of the one that had its path. -/
def insert (folder : Folder) (path : String) (bytes : List UInt8) : Folder :=
  (path, bytes) :: folder.filter fun file => file.1 ≠ path

/-- The folder into which files were put in order. -/
def ofFiles (files : List (String × List UInt8)) : Folder :=
  files.foldl (fun folder file => folder.insert file.1 file.2) []

/-- The directory at the end of a chain of names. -/
def walk (folder : Folder) (directory : Directory) : List String → Except FileError Directory
  | [] => .ok directory
  | name :: names =>
      if name = "." then folder.walk directory names
      else if name = ".." then folder.walk directory.parent names
      else if Path.nameLimit < name.utf8ByteSize then .error .nameTooLong
      else if (folder.lookup (directory.pathOf name)).isSome then .error .notDirectory
      else .error .missing

/-- What a path leads to. -/
def destination (folder : Folder) (path : Path) : Except FileError Destination := do
  let directory ← folder.walk path.start path.way
  if path.last = "." ∨ path.last = ".." then return .directory
  return .entry directory path.last

/-- The bytes of a file. -/
def read (folder : Folder) (text : String) : Except FileError (List UInt8) := do
  let path ← Path.ofText text
  match ← folder.destination path with
  | .directory => throw .isDirectory
  | .entry directory name =>
      if Path.nameLimit < name.utf8ByteSize then throw .nameTooLong
      match folder.lookup (directory.pathOf name) with
      | none => throw .missing
      | some bytes => if path.slashed then throw .notDirectory else return bytes

/-- The folder after a file was written; a path that ends in a slash is refused at once. -/
def write (folder : Folder) (text : String) (bytes : List UInt8) : Except FileError Folder := do
  let path ← Path.ofText text
  match ← folder.destination path with
  | .directory => throw .isDirectory
  | .entry directory name =>
      if path.slashed then throw .isDirectory
      if Path.nameLimit < name.utf8ByteSize then throw .nameTooLong
      return folder.insert (directory.pathOf name) bytes

end Folder

end ClassroomCpu
