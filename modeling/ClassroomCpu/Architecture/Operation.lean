/-!
# Operations

What the instructions of the machines do, and the tests on condition codes and
numbers that decide whether a jump, a branch or a skip is taken.
-/

namespace ClassroomCpu

/-- The condition codes a machine may have. -/
inductive FlagCode
  | negative
  | zero
  | carry
  | borrow
  | overflow
  deriving DecidableEq, Repr

/-- The name of a condition code. -/
def FlagCode.name : FlagCode → String
  | negative => "Negative"
  | zero => "Zero"
  | carry => "Carry"
  | borrow => "Borrow"
  | overflow => "Overflow"

/-- The condition codes of a machine; one that it lacks is clear. -/
structure Status where
  negative : Bool
  zero : Bool
  carry : Bool
  borrow : Bool
  overflow : Bool
  deriving DecidableEq, Repr

/-- The tests of the conditional jumps of a byte machine. -/
inductive JumpTest
  | always
  | negative
  | positive
  | overflow
  | noOverflow
  | zero
  | notZero
  | carry
  | noCarry
  | borrow
  | noBorrow
  deriving DecidableEq, Repr

/-- Whether a jump is taken under the given condition codes. -/
def JumpTest.holds : JumpTest → Status → Bool
  | always, _ => true
  | negative, status => status.negative
  | positive, status => !status.negative && !status.zero
  | overflow, status => status.overflow
  | noOverflow, status => !status.overflow
  | zero, status => status.zero
  | notZero, status => !status.zero
  | carry, status => status.carry
  | noCarry, status => !status.carry
  | borrow, status => status.borrow
  | noBorrow, status => !status.borrow

/-- The tests of the skips of a stack machine. -/
inductive SkipTest
  | zero
  | notZero
  | positive
  | negative
  | notNegative
  | notPositive
  deriving DecidableEq, Repr

/-- Whether a skip is taken for a number taken from the stack. -/
def SkipTest.holds : SkipTest → Int → Bool
  | zero, value => value == 0
  | notZero, value => value != 0
  | positive, value => decide (0 < value)
  | negative, value => decide (value < 0)
  | notNegative, value => decide (0 ≤ value)
  | notPositive, value => decide (value ≤ 0)

/-- The conditions of the relative branches of a word machine. -/
inductive Condition
  | always
  | notEqual
  | equal
  | plus
  | minus
  | overflowClear
  | overflowSet
  | carryClear
  | carrySet
  | greaterOrEqual
  | less
  | greater
  | lessOrEqual
  | higher
  | lowerOrSame
  deriving DecidableEq, Repr

/-- Whether a branch is taken under the given condition codes. -/
def Condition.holds : Condition → Status → Bool
  | always, _ => true
  | notEqual, status => !status.zero
  | equal, status => status.zero
  | plus, status => !status.negative
  | minus, status => status.negative
  | overflowClear, status => !status.overflow
  | overflowSet, status => status.overflow
  | carryClear, status => !status.carry
  | carrySet, status => status.carry
  | greaterOrEqual, status => status.negative == status.overflow
  | less, status => status.negative != status.overflow
  | greater, status => !status.zero && status.negative == status.overflow
  | lessOrEqual, status => status.zero || status.negative != status.overflow
  | higher, status => !status.carry && !status.zero
  | lowerOrSame, status => status.carry || status.zero

/--
What an instruction does.  The details depend on the model of the machine:
`add` takes a register and an operand on an accumulator machine, the two
topmost cells on a stack machine and two operands on a word machine.  A machine
whose model does not know an operation passes over it.
-/
inductive Operation
  /-- Does nothing. -/
  | nop
  /-- Copies a register into memory. -/
  | store
  /-- Copies an operand into a register. -/
  | load
  | add
  | sub
  | or
  | and
  | not
  | neg
  | inc
  | dec
  | clear
  /-- Shifts right and brings in a zero. -/
  | shiftRight
  /-- Shifts left and brings in a zero. -/
  | shiftLeft
  | rotateRight
  | rotateLeft
  /-- Shifts right and keeps the sign. -/
  | halve
  /-- Shifts left as the counterpart of `halve`. -/
  | double
  /-- Adds the carry. -/
  | addCarry
  /-- Subtracts the carry. -/
  | subCarry
  /-- Sets the condition codes from an operand. -/
  | test
  | move
  /-- Sets the condition codes from a difference. -/
  | compare
  | jump (test : JumpTest)
  /-- Jumps to a subroutine. -/
  | call
  /-- Returns from a subroutine. -/
  | ret
  /-- Jumps to a first address if a register is zero and to a second one otherwise. -/
  | choose
  /-- Puts an operand onto the stack. -/
  | push
  /-- Takes a cell from the stack into memory. -/
  | pop
  /-- Passes over the next instruction if a test holds. -/
  | skip (test : SkipTest)
  /-- Clears the selected condition codes. -/
  | clearFlags
  /-- Sets the selected condition codes. -/
  | setFlags
  /-- Branches to a place relative to the next instruction. -/
  | branch (condition : Condition)
  /-- Counts a register down and branches backwards until it is zero. -/
  | loop
  /-- Stops the machine. -/
  | halt
  deriving DecidableEq, Repr

end ClassroomCpu
