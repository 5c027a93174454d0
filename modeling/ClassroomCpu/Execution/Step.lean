import ClassroomCpu.Execution.Standard
import ClassroomCpu.Execution.Stack
import ClassroomCpu.Execution.Word

/-!
# Steps and runs

A step fetches one instruction and executes it; an opcode that stands for no
instruction is passed over.  A run starts the machine and steps it until it
halts or has made as many steps as it may.
-/

namespace ClassroomCpu

namespace Exec

variable {arch : Architecture}

/-- Fetches and executes an instruction of a byte machine. -/
def byteInstruction : Exec arch Unit := do
  match ← fetch with
  | none => pure ()
  | some fetched =>
      match arch.model with
      | .stack => fetched.executeStack
      | _ => fetched.executeStandard

/-- Fetches and executes an instruction of a word machine. -/
def wordInstruction : Exec arch Unit := do
  let opcode ← fetchByte
  match arch.instruction? opcode with
  | none => pure ()
  | some instruction =>
      let second ← if instruction.size ≠ 1 then fetchByte else pure 0
      (FetchedWord.ofBytes arch instruction opcode second).execute

/-- Executes one instruction and counts it, whether or not the machine runs. -/
def step : Exec arch Unit := do
  match arch.model with
  | .word => wordInstruction
  | .standard | .stack => byteInstruction
  modify Machine.countInstruction

/-- Makes steps while the machine runs, but no more than `limit`, after `done` others. -/
def stepsFrom (done : Nat) : Nat → Exec arch Nat
  | 0 => pure done
  | limit + 1 => do
      if (← get).running then
        step
        stepsFrom (done + 1) limit
      else return done

/-- Starts the machine and makes at most `limit` steps; gives the number of steps made. -/
def run (limit : Nat) : Exec arch Nat := do
  setRunning true
  stepsFrom 0 limit

/-- More steps than any run can make in practice: the limit of a run without one. -/
def noLimit : Nat :=
  powerOfTwo 62

end Exec

end ClassroomCpu
