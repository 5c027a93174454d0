import ClassroomCpu.PowerOfTwo
import ClassroomCpu.Text.Blank
import ClassroomCpu.Text.Numeral

/-!
# Commands of a session

A command is a word behind a point, with its arguments behind it.  Numbers are
decimal, or hexadecimal behind an `h`.
-/

namespace ClassroomCpu.Session

/-- What a command asks for. -/
inductive Command
  | help
  /-- Go on with another machine. -/
  | machine (name : String)
  /-- Read a program or a memory image from a file. -/
  | load (path : String)
  /-- Show the program. -/
  | list
  /-- Forget the program. -/
  | clear
  /-- Make some steps. -/
  | step (count : Nat)
  | run
  | reset
  /-- Show the registers. -/
  | registers
  /-- Show the flags. -/
  | flags
  /-- Show memory cells. -/
  | memory (start count : Nat)
  /-- Show instructions in memory, from the program counter on if no start is given. -/
  | disassemble (start : Option Nat) (count : Nat)
  /-- Show the labels. -/
  | labels
  deriving DecidableEq, Repr

/-- Why a command is not understood. -/
inductive CommandError
  | invalidNumber (text : String)
  | unknownCommand (name : String)
  deriving DecidableEq, Repr

namespace CommandError

/-- The wording of an error. -/
def message : CommandError → String
  | invalidNumber text => "invalid number: " ++ text
  | unknownCommand name => "unknown command: ." ++ name

end CommandError

/-- Numbers in commands are below this one. -/
def numberBound : Nat :=
  powerOfTwo 64

/-- The number that an argument writes. -/
def number (text : String) : Except CommandError Nat :=
  let found :=
    match text.toList with
    | [] => none
    | c :: rest =>
        if c = 'h' ∨ c = 'H' then Text.unsigned? 16 numberBound rest
        else Text.unsigned? 10 numberBound (c :: rest)
  match found with
  | some number => .ok number
  | none => .error (.invalidNumber text)

namespace Command

/-- The command with the given name and arguments. -/
def ofWords (name : String) (arguments : List String) : Except CommandError Command :=
  match name, arguments with
  | "help", _ => .ok .help
  | "machine", [name] => .ok (.machine name)
  | "load", [path] => .ok (.load path)
  | "list", _ => .ok .list
  | "clear", _ => .ok .clear
  | "step", [] => .ok (.step 1)
  | "step", [count] => do return .step (← number count)
  | "run", _ => .ok .run
  | "reset", _ => .ok .reset
  | "regs", _ | "registers", _ => .ok .registers
  | "flags", _ => .ok .flags
  | "mem", [start] => do return .memory (← number start) 1
  | "mem", [start, count] => do
      let start ← number start
      let count ← number count
      return .memory start count
  | "dis", [] => .ok (.disassemble none 8)
  | "dis", [start] => do return .disassemble (some (← number start)) 8
  | "dis", start :: count :: _ => do
      let start ← number start
      let count ← number count
      return .disassemble (some start) count
  | "labels", _ => .ok .labels
  | _, _ => .error (.unknownCommand name)

/-- The command in a text behind the point. -/
def ofText (text : List Char) : Except CommandError Command :=
  let name := text.takeWhile fun c => !Text.isBlank c
  let rest := text.dropWhile fun c => !Text.isBlank c
  ofWords (String.ofList name) ((Text.words rest).map String.ofList)

end Command

end ClassroomCpu.Session
