import ClassroomCpu.Architecture.Basic
import ClassroomCpu.Assembly.Argument
import ClassroomCpu.Assembly.LabelTable

/-!
# Values of operands

The numbers that the operands of a statement stand for.  While memory is being
reserved a word that stands for no number may be a label that comes later: it
counts as zero then, and only its place is taken.
-/

namespace ClassroomCpu.Assembly

/-- What an assembly run over the lines of a program is for. -/
inductive Pass
  /-- Labels are collected and memory is reserved. -/
  | reserve
  /-- Bytes are emitted, with every label known. -/
  | emit
  deriving DecidableEq, Repr

/-- What is known where a statement stands. -/
structure Scope where
  pass : Pass
  labels : LabelTable
  /-- The address of the first byte of the statement. -/
  cursor : Nat

/-- A range of numbers with its two ends. -/
structure Bounds where
  low : Int
  high : Int
  deriving DecidableEq, Repr

namespace Bounds

/-- Whether a number lies in a range. -/
def holds (bounds : Bounds) (value : Int) : Bool :=
  decide (bounds.low ≤ value) && decide (value ≤ bounds.high)

theorem holds_iff {bounds : Bounds} {value : Int} :
    bounds.holds value = true ↔ bounds.low ≤ value ∧ value ≤ bounds.high := by
  simp [holds]

/-- The numbers that fit into some bytes, with or without a sign. -/
def ofBytes (width : Nat) : Bounds :=
  ⟨-powerOfTwo (8 * width - 1), powerOfTwo (8 * width) - 1⟩

/-- The numbers that are addresses, negative ones from the end of memory. -/
def ofMemory (arch : Architecture) : Bounds :=
  ⟨-arch.memorySize, arch.memorySize - 1⟩

end Bounds

namespace Scope

/-- The number that a word stands for, within bounds; the problem names the word. -/
def number (scope : Scope) (bounds : Bounds) (problem : String → Problem) :
    Token → Outcome Int
  | .word text =>
      match resolve? scope.labels text, scope.pass with
      | some resolved, _ =>
          if bounds.holds resolved.value then .ok resolved.value else reject (problem text)
      | none, .reserve => .ok 0
      | none, .emit => reject (problem text)
  | token => reject (.invalidArgument token.text)

/-- The address that an operand stands for. -/
def address (scope : Scope) (arch : Architecture) (token : Token) : Outcome Nat := do
  let value ← scope.number (.ofMemory arch) .invalidAddress token
  return arch.wrap value

/-- The value of an immediate operand; a quoted character gives its code. -/
def immediate (scope : Scope) (width : Nat) : Token → Outcome Int
  | .quoted text =>
      match Token.unquote text.toList with
      | [c] => if c.toNat < 128 then .ok c.toNat else reject (.invalidString text)
      | _ => reject (.invalidString text)
  | token => scope.number (.ofBytes width) .invalidValue token

/-- The distance from the next instruction to an address, in the direction of the branch. -/
def distance (scope : Scope) (instruction : Instruction) (target : Int) : Int × Bounds :=
  let next : Int := scope.cursor + 2
  if instruction.operation = .loop then (next - target, ⟨0, 255⟩)
  else (target - next, ⟨-128, 127⟩)

/-- The second byte of a branch: the distance to a label, or a number as it is. -/
def offset (scope : Scope) (instruction : Instruction) (text : String) : Outcome UInt8 :=
  match resolve? scope.labels text, scope.pass with
  | some resolved, _ =>
      if resolved.isLabel then
        let (distance, bounds) := scope.distance instruction resolved.value
        if bounds.holds distance then .ok (UInt8.ofInt distance)
        else reject (.invalidAddress text)
      else if (Bounds.ofBytes 1).holds resolved.value then .ok (UInt8.ofInt resolved.value)
      else reject (.invalidValue text)
  | none, .reserve => .ok 0
  | none, .emit => reject (.invalidAddress text)

end Scope

end ClassroomCpu.Assembly
