import ClassroomCpu.Proofs.Execution.StackCells
import ClassroomCpu.Session

/-!
# Expressions on the stack

Volta evaluates an expression whose operands stand in front of its operators.
A literal pushes a cell, and an operator takes the cells of its operands and
pushes its result, so that an expression leaves one cell more, whatever lies
below.  Code and stack may wrap around.
-/

namespace ClassroomCpu

open Catalog (volta)

namespace Session

variable {arch : Architecture}

theorem steps_add (first second : Nat) {machine between : Machine arch}
    (reached : Session.steps first machine = .ok () between) :
    Session.steps (first + second) machine = Session.steps second between := by
  induction first generalizing machine with
  | zero =>
      cases reached
      rw [Nat.zero_add]
  | succ first induction =>
      rw [Nat.succ_add]
      simp only [Session.steps, Bind.bind, EStateM.bind] at reached ⊢
      cases steps : Exec.step machine with
      | ok result next =>
          rw [steps] at reached
          exact induction reached
      | error fault next =>
          rw [steps] at reached
          contradiction

theorem steps_one {machine after : Machine arch}
    (ends : Exec.step machine = .ok () after) : Session.steps 1 machine = .ok () after := by
  rw [Session.steps, Exec.bind_of_ok ends]
  rfl

end Session

namespace Postfix

/-! ## Expressions -/

/-- The operators with one operand. -/
inductive UnaryOperator
  | clear
  | not
  | neg
  | inc
  | dec
  | halve
  | double
  | rotateRight
  | rotateLeft
  deriving DecidableEq, Repr

namespace UnaryOperator

/-- The opcodes of CLR, NOT, NEG, INC, DEC, ASR, ASL, ROR and ROL. -/
def opcode : UnaryOperator → UInt8
  | clear => 0x11
  | not => 0x12
  | neg => 0x13
  | inc => 0x14
  | dec => 0x15
  | halve => 0x16
  | double => 0x17
  | rotateRight => 0x18
  | rotateLeft => 0x19

/-- The operation that the operator stands for. -/
def operation : UnaryOperator → Operation
  | clear => .clear
  | not => .not
  | neg => .neg
  | inc => .inc
  | dec => .dec
  | halve => .halve
  | double => .double
  | rotateRight => .rotateRight
  | rotateLeft => .rotateLeft

/-- What the operator gives in arithmetic on eight bits. -/
def apply : UnaryOperator → UInt8 → UInt8
  | clear, _ => 0
  | not, value => ~~~value
  | neg, value => -value
  | inc, value => value + 1
  | dec, value => value - 1
  | halve, value => ⟨value.toBitVec.sshiftRight 1⟩
  | double, value => value <<< 1
  | rotateRight, value => ⟨value.toBitVec.rotateRight 1⟩
  | rotateLeft, value => ⟨value.toBitVec.rotateLeft 1⟩

theorem instruction?_opcode (operator : UnaryOperator) :
    (volta.instruction? operator.opcode).map (fun found => (found.size, found.operation)) =
      some (1, operator.operation) := by
  cases operator <;> decide +kernel

theorem onCell?_operation (operator : UnaryOperator) (value : UInt8) :
    operator.operation.onCell? value.toNat = some (operator.apply value).toNat := by
  revert value
  cases operator <;> exact forall_byte (by decide +kernel)

/-- The operator takes a cell and pushes what it gives. -/
theorem executeStack_eq (operator : UnaryOperator) {fetched : Fetched volta}
    (operation : fetched.instruction.operation = operator.operation) :
    fetched.executeStack = (do
      let top ← Exec.pop
      match operator.operation.onCell? top with
      | some value => Exec.push value
      | none => pure ()) := by
  unfold Fetched.executeStack
  rw [operation]
  cases operator <;> rfl

end UnaryOperator

/-- The operators with two operands. -/
inductive BinaryOperator
  | add
  | sub
  | and
  | or
  deriving DecidableEq, Repr

namespace BinaryOperator

/-- The opcodes of ADD, SUB, AND and OR. -/
def opcode : BinaryOperator → UInt8
  | add => 0x01
  | sub => 0x02
  | and => 0x03
  | or => 0x04

/-- The operation that the operator stands for. -/
def operation : BinaryOperator → Operation
  | add => .add
  | sub => .sub
  | and => .and
  | or => .or

/-- What the operator gives in arithmetic on eight bits. -/
def apply : BinaryOperator → UInt8 → UInt8 → UInt8
  | add, left, right => left + right
  | sub, left, right => left - right
  | and, left, right => left &&& right
  | or, left, right => left ||| right

theorem instruction?_opcode (operator : BinaryOperator) :
    (volta.instruction? operator.opcode).map (fun found => (found.size, found.operation)) =
      some (1, operator.operation) := by
  cases operator <;> decide +kernel

theorem onTwoCells?_operation (operator : BinaryOperator) (left right : UInt8) :
    operator.operation.onTwoCells? left.toNat right.toNat =
      some (operator.apply left right).toNat := by
  have small := left.toNat_lt
  have smallRight := right.toNat_lt
  cases operator with
  | add =>
      simp only [operation, Operation.onTwoCells?, apply, Option.some.injEq, UInt8.toNat_add,
        Alu.add, Alu.truncate, Bool.toNat_false, Nat.add_zero]
      rfl
  | sub =>
      have modulus : (powerOfTwo 8 : Int) = 256 := rfl
      simp only [operation, Operation.onTwoCells?, apply, Option.some.injEq, UInt8.toNat_sub,
        Alu.sub, modulus, Bool.toNat_false, Nat.reducePow]
      omega
  | and => simp [operation, Operation.onTwoCells?, apply]
  | or => simp [operation, Operation.onTwoCells?, apply]

/-- The operator takes two cells, the right one first, and pushes what it gives. -/
theorem executeStack_eq (operator : BinaryOperator) {fetched : Fetched volta}
    (operation : fetched.instruction.operation = operator.operation) :
    fetched.executeStack = (do
      let right ← Exec.pop
      let left ← Exec.pop
      match operator.operation.onTwoCells? left right with
      | some value => Exec.push value
      | none => pure ()) := by
  unfold Fetched.executeStack
  rw [operation]
  cases operator <;> rfl

end BinaryOperator

/-- An expression on bytes. -/
inductive Expression
  | literal (value : UInt8)
  | unary (operator : UnaryOperator) (operand : Expression)
  | binary (operator : BinaryOperator) (left right : Expression)
  deriving DecidableEq, Repr

namespace Expression

/-- The opcode of PSH with an immediate operand. -/
def pushImmediate : UInt8 :=
  0x72

/-- The code: a push for each literal, and each operator behind its operands. -/
def code : Expression → List UInt8
  | literal value => [pushImmediate, value]
  | unary operator operand => operand.code ++ [operator.opcode]
  | binary operator left right => left.code ++ right.code ++ [operator.opcode]

/-- The number of instructions of the code. -/
def size : Expression → Nat
  | literal _ => 1
  | unary _ operand => operand.size + 1
  | binary _ left right => left.size + right.size + 1

/-- The number of cells of the stack that the evaluation needs. -/
def needs : Expression → Nat
  | literal _ => 1
  | unary _ operand => operand.needs
  | binary _ left right => max left.needs (right.needs + 1)

/-- The value in arithmetic on eight bits. -/
def value : Expression → UInt8
  | literal value => value
  | unary operator operand => operator.apply operand.value
  | binary operator left right => operator.apply left.value right.value

end Expression

/-! ## Single instructions -/

/--
Executing some bytes of code moved the program counter behind them and left
memory alone; the stack pointer and the cells of the stack are as described.
-/
structure Leaves (machine : Machine volta) (distance pointer : Nat) (cells : Nat → UInt8)
    (after : Machine volta) : Prop where
  counter : after.counter = (machine.counter + distance) % 256
  memory : after.memory = machine.memory
  stackPointer : after.stackPointer = pointer % 64
  stack : ∀ index, after.peekStack index = cells index

section Steps

variable {machine between : Machine volta} {distance pointer : Nat} {cells : Nat → UInt8}

/-- A number was taken from the stack behind the fetch of an instruction. -/
theorem leaves_popped (instruction : Instruction) (size : instruction.size = 1) :
    Leaves machine 1 (machine.stackPointer + 63) machine.peekStack
      (machine.pastFetch instruction).popped where
  counter := by rw [Machine.counter_popped, machine.counter_pastFetch_volta _ size (by decide)]
  memory := by rw [Machine.memory_popped, Machine.memory_pastFetch]
  stackPointer := by rw [Machine.stackPointer_popped, Machine.stackPointer_pastFetch]
  stack index := by rw [Machine.peekStack_popped, Machine.peekStack_pastFetch]

theorem Leaves.popped (leaves : Leaves machine distance pointer cells between) :
    Leaves machine distance (pointer + 63) cells between.popped where
  counter := by rw [Machine.counter_popped, leaves.counter]
  memory := by rw [Machine.memory_popped, leaves.memory]
  stackPointer := by
    rw [Machine.stackPointer_popped, leaves.stackPointer, Nat.mod_add_mod]
  stack index := by rw [Machine.peekStack_popped, leaves.stack]

/-- An instruction ended with a push. -/
theorem Leaves.pushed (leaves : Leaves machine distance pointer cells between) (value : UInt8) :
    Leaves machine distance (pointer + 1)
      (fun index => if index % 64 = (pointer + 1) % 64 then value else cells index)
      (between.pushed value.toNat).countInstruction where
  counter := by rw [Machine.counter_countInstruction, Machine.counter_pushed, leaves.counter]
  memory := (between.memory_pushed value.toNat).trans leaves.memory
  stackPointer := by
    rw [Machine.stackPointer_countInstruction, Machine.stackPointer_pushed, leaves.stackPointer, Nat.mod_add_mod]
  stack index := by
    rw [Machine.peekStack_countInstruction, Machine.peekStack_pushed, leaves.stackPointer, Nat.mod_add_mod, leaves.stack,
      UInt8.ofNat_toNat]

theorem step_literal (value : UInt8)
    (there : machine.Holds machine.counter [Expression.pushImmediate, value]) :
    Exec.Ends Exec.step machine fun _ => Leaves machine 2 (machine.stackPointer + 1) fun index =>
      if index % 64 = (machine.stackPointer + 1) % 64 then value else machine.peekStack index := by
  obtain ⟨opcode, further⟩ := Machine.holds_cons.mp there
  obtain ⟨operand, _⟩ := Machine.holds_cons.mp further
  have decoded : (volta.instruction? Expression.pushImmediate).map
      (fun found => (found.size, found.operation)) = some (2, .push) := by decide +kernel
  have kind : volta.addressingKind Expression.pushImmediate = .immediate := by decide +kernel
  obtain ⟨instruction, known, same⟩ := Option.map_eq_some_iff.mp decoded
  obtain ⟨size, operation⟩ := Prod.mk.inj same
  rw [← opcode] at known kind
  let between := machine.pastFetch instruction
  have memory : between.memory = machine.memory := machine.memory_pastFetch instruction
  have read : between.peek (volta.cell machine.pastOpcode.counter) = value := by
    rw [Machine.peek_cell, ← operand, ← machine.peek_pastOpcode (by decide +kernel)]
    simp only [Machine.peek, memory, Machine.memory_pastOpcode]
  have ends : (machine.fetched instruction).executeStack between =
      .ok () (between.countAccess.pushed value.toNat) := by
    have execute : (machine.fetched instruction).executeStack = (do
        let operand ← OperandAccess.cellValue volta .immediate machine.pastOpcode.counter
        Exec.push operand) := by
      unfold Fetched.executeStack Machine.fetched
      simp only [operation, kind]
      rfl
    have operandRead : OperandAccess.cellValue volta .immediate machine.pastOpcode.counter between =
        .ok value.toNat between.countAccess := by
      rw [← read]
      rfl
    rw [execute, Exec.bind_of_ok operandRead]
    exact Exec.push_volta _ _
  refine .of_eq (Exec.step_volta known ends) ⟨?_, memory, ?_, fun index => ?_⟩
  · rw [Machine.counter_countInstruction, Machine.counter_pushed, Machine.counter_countAccess,
      machine.counter_pastFetch_volta _ size (by decide)]
  · rw [Machine.stackPointer_countInstruction, Machine.stackPointer_pushed,
      Machine.stackPointer_countAccess, Machine.stackPointer_pastFetch]
  · rw [Machine.peekStack_countInstruction, Machine.peekStack_pushed,
      Machine.stackPointer_countAccess, Machine.stackPointer_pastFetch, UInt8.ofNat_toNat,
      Machine.peekStack_countAccess, Machine.peekStack_pastFetch]

theorem step_unary (operator : UnaryOperator)
    (there : machine.Holds machine.counter [operator.opcode]) :
    Exec.Ends Exec.step machine fun _ => Leaves machine 1 (machine.stackPointer + 64) fun index =>
      if index % 64 = (machine.stackPointer + 64) % 64 then
        operator.apply (machine.peekStack machine.stackPointer)
      else machine.peekStack index := by
  have opcode : machine.peek machine.counter = operator.opcode := (Machine.holds_cons.mp there).1
  obtain ⟨instruction, known, same⟩ := Option.map_eq_some_iff.mp operator.instruction?_opcode
  obtain ⟨size, operation⟩ := Prod.mk.inj same
  rw [← opcode] at known
  let value := operator.apply (machine.peekStack machine.stackPointer)
  have ends : (machine.fetched instruction).executeStack (machine.pastFetch instruction) =
      .ok () ((machine.pastFetch instruction).popped.pushed value.toNat) := by
    rw [operator.executeStack_eq operation, Exec.bind_of_ok (Exec.pop_volta _),
      Machine.stackPointer_pastFetch, Machine.peekStack_pastFetch, operator.onCell?_operation]
    exact Exec.push_volta _ _
  exact .of_eq (Exec.step_volta known ends) ((leaves_popped instruction size).pushed value)

theorem step_binary (operator : BinaryOperator)
    (there : machine.Holds machine.counter [operator.opcode]) :
    Exec.Ends Exec.step machine fun _ => Leaves machine 1 (machine.stackPointer + 127) fun index =>
      if index % 64 = (machine.stackPointer + 127) % 64 then
        operator.apply (machine.peekStack (machine.stackPointer + 63))
          (machine.peekStack machine.stackPointer)
      else machine.peekStack index := by
  have opcode : machine.peek machine.counter = operator.opcode := (Machine.holds_cons.mp there).1
  obtain ⟨instruction, known, same⟩ := Option.map_eq_some_iff.mp operator.instruction?_opcode
  obtain ⟨size, operation⟩ := Prod.mk.inj same
  rw [← opcode] at known
  let value := operator.apply (machine.peekStack (machine.stackPointer + 63))
    (machine.peekStack machine.stackPointer)
  have leaves : Leaves machine 1 (machine.stackPointer + 63) machine.peekStack
      (machine.pastFetch instruction).popped := leaves_popped instruction size
  have left : (machine.pastFetch instruction).popped.peekStack
      (machine.pastFetch instruction).popped.stackPointer =
        machine.peekStack (machine.stackPointer + 63) := by
    rw [leaves.stack, leaves.stackPointer]
    exact machine.peekStack_congr (Nat.mod_mod _ _)
  have ends : (machine.fetched instruction).executeStack (machine.pastFetch instruction) =
      .ok () ((machine.pastFetch instruction).popped.popped.pushed value.toNat) := by
    rw [operator.executeStack_eq operation, Exec.bind_of_ok (Exec.pop_volta _),
      Exec.bind_of_ok (Exec.pop_volta _), left, Machine.stackPointer_pastFetch,
      Machine.peekStack_pastFetch, operator.onTwoCells?_operation]
    exact Exec.push_volta _ _
  exact .of_eq (Exec.step_volta known ends) (leaves.popped.pushed value)

end Steps

/-! ## Evaluation -/

/-- What evaluating an expression leaves: one cell more, and the rest as it was. -/
structure Evaluated (machine : Machine volta) (expression : Expression) (after : Machine volta) :
    Prop where
  counter : after.counter = (machine.counter + expression.code.length) % 256
  memory : after.memory = machine.memory
  stackPointer : after.stackPointer = (machine.stackPointer + 1) % 64
  value : after.peekStack (machine.stackPointer + 1) = expression.value
  /-- Only cells that the evaluation needs have changed, the lowest of which holds the value. -/
  stack : ∀ index, (∀ depth, 0 < depth → depth ≤ expression.needs →
      index % 64 ≠ (machine.stackPointer + depth) % 64) →
    after.peekStack index = machine.peekStack index

theorem needs_pos (expression : Expression) : 0 < expression.needs := by
  induction expression with
  | literal value => exact Nat.one_pos
  | unary operator operand induction => exact induction
  | binary operator left right _ _ => simp only [Expression.needs]; omega

/-- The code of a part lies where the evaluation of the part in front of it ended. -/
theorem Evaluated.holds {machine after : Machine volta} {expression : Expression}
    (evaluated : Evaluated machine expression after) {further : List UInt8}
    (there : machine.Holds machine.counter (expression.code ++ further)) :
    after.Holds after.counter further :=
  (Machine.holds_append.mp there).2.congr evaluated.memory (by
    rw [evaluated.counter]
    exact Nat.mod_mod _ 256)

/-- The operator behind an operand works on the cell that the operand left. -/
theorem Evaluated.unary {machine between after : Machine volta} {operator : UnaryOperator}
    {operand : Expression} (evaluated : Evaluated machine operand between)
    (leaves : Leaves between 1 (between.stackPointer + 64) (fun index =>
      if index % 64 = (between.stackPointer + 64) % 64 then
        operator.apply (between.peekStack between.stackPointer)
      else between.peekStack index) after) :
    Evaluated machine (.unary operator operand) after := by
  have pointer := evaluated.stackPointer
  refine ⟨?_, ?_, ?_, ?_, ?_⟩
  · rw [leaves.counter, evaluated.counter, Expression.code, List.length_append]
    simp only [List.length_singleton]
    omega
  · rw [leaves.memory, evaluated.memory]
  · rw [leaves.stackPointer]
    omega
  · have value : between.peekStack between.stackPointer = operand.value := by
      rw [← evaluated.value]
      exact between.peekStack_congr (by omega)
    rw [leaves.stack, if_pos (by omega), value]
    rfl
  · intro index apart
    have other := apart 1 Nat.one_pos (needs_pos operand)
    rw [leaves.stack, if_neg (by omega), evaluated.stack index apart]

/-- The operator behind two operands works on the cells that they left. -/
theorem Evaluated.binary {machine middle between after : Machine volta}
    {operator : BinaryOperator} {left right : Expression} (needs : right.needs ≤ 63)
    (evaluatedLeft : Evaluated machine left middle) (evaluatedRight : Evaluated middle right between)
    (leaves : Leaves between 1 (between.stackPointer + 127) (fun index =>
      if index % 64 = (between.stackPointer + 127) % 64 then
        operator.apply (between.peekStack (between.stackPointer + 63))
          (between.peekStack between.stackPointer)
      else between.peekStack index) after) :
    Evaluated machine (.binary operator left right) after := by
  have pointerLeft := evaluatedLeft.stackPointer
  have pointerRight := evaluatedRight.stackPointer
  refine ⟨?_, ?_, ?_, ?_, ?_⟩
  · rw [leaves.counter, evaluatedRight.counter, evaluatedLeft.counter, Expression.code]
    simp only [List.length_append, List.length_singleton]
    omega
  · rw [leaves.memory, evaluatedRight.memory, evaluatedLeft.memory]
  · rw [leaves.stackPointer]
    omega
  · have valueRight : between.peekStack between.stackPointer = right.value := by
      rw [← evaluatedRight.value]
      exact between.peekStack_congr (by omega)
    -- The right operand needs at most 63 cells and so does not come round to the left one.
    have valueLeft : between.peekStack (between.stackPointer + 63) = left.value := by
      have kept := evaluatedRight.stack (machine.stackPointer + 1) (by omega)
      rw [← evaluatedLeft.value, ← kept]
      exact between.peekStack_congr (by omega)
    rw [leaves.stack, if_pos (by omega), valueLeft, valueRight]
    rfl
  · intro index apart
    simp only [Expression.needs] at apart
    have result := apart 1 Nat.one_pos (by omega)
    have keptRight : between.peekStack index = middle.peekStack index :=
      evaluatedRight.stack index fun depth positive bounded => by
        have other := apart (depth + 1) (by omega) (by omega)
        omega
    have keptLeft : middle.peekStack index = machine.peekStack index :=
      evaluatedLeft.stack index fun depth positive bounded => apart depth positive (by omega)
    rw [leaves.stack, if_neg (by omega), keptRight, keptLeft]

/--
With the code of an expression at the program counter, a step for each of its
instructions evaluates it, if the stack has the cells that this needs.
-/
theorem evaluated_steps (expression : Expression) (machine : Machine volta)
    (needs : expression.needs ≤ 64)
    (there : machine.Holds machine.counter expression.code) :
    Exec.Ends (Session.steps expression.size) machine fun _ =>
      Evaluated machine expression := by
  induction expression generalizing machine with
  | literal value =>
      obtain ⟨_, after, ends, leaves⟩ := step_literal value there
      refine .of_eq (Session.steps_one ends)
        ⟨leaves.counter, leaves.memory, leaves.stackPointer, ?_, fun index apart => ?_⟩
      · rw [leaves.stack, if_pos rfl]
        rfl
      · rw [leaves.stack, if_neg (apart 1 Nat.one_pos (Nat.le_refl 1))]
  | unary operator operand induction =>
      obtain ⟨_, between, reached, evaluated⟩ :=
        induction machine needs (Machine.holds_append.mp there).1
      obtain ⟨_, after, ends, leaves⟩ := step_unary operator (evaluated.holds there)
      exact .of_eq ((Session.steps_add _ 1 reached).trans (Session.steps_one ends))
        (evaluated.unary leaves)
  | binary operator left right inductionLeft inductionRight =>
      have needsLeft : left.needs ≤ 64 := by
        rw [Expression.needs] at needs
        omega
      have needsRight : right.needs ≤ 63 := by
        rw [Expression.needs] at needs
        omega
      rw [Expression.code, List.append_assoc] at there
      obtain ⟨_, middle, reachedLeft, evaluatedLeft⟩ :=
        inductionLeft machine needsLeft (Machine.holds_append.mp there).1
      have thereRight := evaluatedLeft.holds there
      obtain ⟨_, between, reachedRight, evaluatedRight⟩ :=
        inductionRight middle (by omega) (Machine.holds_append.mp thereRight).1
      obtain ⟨_, after, ends, leaves⟩ := step_binary operator (evaluatedRight.holds thereRight)
      have reached : Session.steps (left.size + right.size) machine = .ok () between :=
        (Session.steps_add _ _ reachedLeft).trans reachedRight
      exact .of_eq ((Session.steps_add _ 1 reached).trans (Session.steps_one ends))
        (evaluatedLeft.binary needsRight evaluatedRight leaves)

/-- Both the code of `7 - (-3)` and the stack come round here. -/
theorem evaluated_steps_around :
    let expression : Expression := .binary .sub (.literal 7) (.unary .neg (.literal 3))
    let machine := (((((((Machine.new volta).poke 254 0x72).poke 255 7).poke 0 0x72).poke 1 3).poke
      2 0x13).poke 3 0x02).setCounter 254 |>.setRegister ⟨1, by decide⟩ 63
    expression.needs ≤ 64 ∧ machine.Holds machine.counter expression.code ∧
      ∃ after, Session.steps 4 machine = .ok () after ∧ after.counter = 4 ∧
        after.stackPointer = 0 ∧ after.peekStack 0 = 10 := by
  intro expression machine
  have needs : expression.needs ≤ 64 := by decide
  have there : machine.Holds machine.counter expression.code := by
    unfold Machine.Holds
    decide +kernel
  obtain ⟨_, after, ends, evaluated⟩ := evaluated_steps expression machine needs there
  have counter : machine.counter = 254 := by decide +kernel
  have pointer : machine.stackPointer = 63 := by decide +kernel
  refine ⟨needs, there, after, ends, ?_, ?_, ?_⟩
  · rw [evaluated.counter, counter]
    decide
  · rw [evaluated.stackPointer, pointer]
  · have value := evaluated.value
    rw [pointer] at value
    exact value

end Postfix

end ClassroomCpu
