import ClassroomCpu.Batch
import ClassroomCpu.Session

/-!
# The command line

`run` carries out a request on files, `repl` holds a conversation with a
machine.  All that is decided here is how files and lines are read and written.
-/

namespace ClassroomCpu.CommandLine

/-- The reason that an operation on a file failed. -/
def fileError (error : IO.Error) : FileError :=
  match error with
  | .noFileOrDirectory .. => .missing
  | .inappropriateType _ code _ =>
      if code = 21 ∨ code = 0 - 21 then .isDirectory else .notDirectory
  | .invalidArgument _ code _ => if code = 22 then .nulInPath else .nameTooLong
  | _ => .other (toString error)

/-- The bytes of a file. -/
def readFile (path : String) : IO (Except FileError (List UInt8)) := do
  try
    let bytes ← IO.FS.readBinFile path
    return .ok bytes.data.toList
  catch error => return .error (fileError error)

/-- Writes a file. -/
def writeFile (path : String) (bytes : List UInt8) : IO (Except FileError Unit) := do
  try
    IO.FS.writeBinFile path ⟨bytes.toArray⟩
    return .ok ()
  catch error => return .error (fileError error)

/-- Writes lines to the error output. -/
def complain (lines : List String) : IO Unit :=
  lines.forM IO.eprintln

/-- Carries out a request. -/
def run (request : Batch.Request) : IO Unit := do
  let source ← readFile request.source
  match Batch.prepare (fun _ => source) request with
  | .error error => complain error.lines
  | .ok prepared =>
      let written ←
        match request.output with
        | some path => writeFile path prepared.machine.exportImage
        | none => pure (.ok ())
      match written with
      | .error error => complain (Batch.Error.file error).lines
      | .ok () =>
          match Batch.finish prepared with
          | .error error => complain error.lines
          | .ok lines => lines.forM IO.println

/-- The file that a line asks for. -/
def wantedFile? (line : String) : Option String :=
  match Text.trimEnd line.toList with
  | '.' :: text =>
      match Session.Command.ofText text with
      | .ok (.load path) => some path
      | _ => none
  | _ => none

/-- Answers lines until there are no more. -/
partial def converse (session : Session) : IO Unit := do
  IO.print session.invitation
  (← IO.getStdout).flush
  let line ← (← IO.getStdin).getLine
  if line.isEmpty then return
  let file ←
    match wantedFile? line with
    | some path => readFile path
    | none => pure (.error .missing)
  let reply := session.handle (fun _ => file) line
  reply.output.forM IO.println
  match reply.error with
  | some error => IO.eprintln ("Error: " ++ error.message)
  | none => pure ()
  converse reply.session

/-- Holds a conversation with the machine of the given name. -/
def talk (name : String) : IO Unit := do
  match Session.start name with
  | .ok session =>
      IO.println "Type .help for a list of all available commands or start typing instructions"
      converse session
  | .error error => IO.eprintln ("Error: " ++ error.message)

/-- Says how the program is called. -/
def explain : IO UInt32 := do
  IO.eprintln "usage: run SOURCE [-m MACHINE] [-s STEPS] [-o FILE] | repl [-m MACHINE]"
  return 1

/-- Carries out what the arguments ask for. -/
def dispatch (arguments : List String) : IO UInt32 := do
  match arguments with
  | ["repl"] => talk "neander"
  | ["repl", "-m", name] | ["repl", "--machine", name] => talk name
  | "run" :: arguments =>
      match Batch.Request.ofArguments? arguments with
      | some request => run request
      | none => return ← explain
  | _ => return ← explain
  return 0

end ClassroomCpu.CommandLine

/-- Runs a program from a file, or holds a conversation with a machine. -/
def main (arguments : List String) : IO UInt32 :=
  ClassroomCpu.CommandLine.dispatch arguments
