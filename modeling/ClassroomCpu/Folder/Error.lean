/-!
# File errors

Why a file cannot be read or written.
-/

namespace ClassroomCpu

/-- Why a file cannot be read or written. -/
inductive FileError
  /-- There is no such file. -/
  | missing
  /-- The path leads to a directory. -/
  | isDirectory
  /-- The path goes through a file. -/
  | notDirectory
  /-- A name, or the whole path, is too long. -/
  | nameTooLong
  /-- The path holds the character with the number zero. -/
  | nulInPath
  /-- The file holds no text. -/
  | notText
  /-- The operating system says something else. -/
  | other (message : String)
  deriving DecidableEq, Repr

namespace FileError

/-- The wording of an error. -/
def message : FileError → String
  | missing => "No such file or directory (os error 2)"
  | isDirectory => "Is a directory (os error 21)"
  | notDirectory => "Not a directory (os error 20)"
  | nameTooLong => "File name too long (os error 36)"
  | nulInPath => "file name contained an unexpected NUL byte"
  | notText => "stream did not contain valid UTF-8"
  | other message => message

end FileError

end ClassroomCpu
