import ClassroomCpu.Assembly.Statement

/-!
# Architectures that understand each other's programs

An architecture understands the programs of another one if its memory,
registers and ways to write operands are the same, and it has every instruction
of the other one under the same mnemonic, with the same form and the same
opcode.  Opcodes that the other one leaves open may stand for further
instructions.  A statement that the other one accepts then has the same effect.
-/

namespace ClassroomCpu

/-- What programs for an architecture say means the same to another one. -/
structure Architecture.Understands (other arch : Architecture) : Prop where
  byteMachine : arch.model ≠ .word
  model : other.model = arch.model
  memorySize : other.memorySize = arch.memorySize
  byteOrder : other.byteOrder = arch.byteOrder
  immediateBytes : other.immediateBytes = arch.immediateBytes
  registers : other.registers = arch.registers
  addressingModes : other.addressingModes = arch.addressingModes
  instruction : ∀ mnemonic instruction, arch.instructionNamed? mnemonic = some instruction →
    ∃ counterpart, other.instructionNamed? mnemonic = some counterpart ∧
      counterpart.opcode = instruction.opcode ∧ counterpart.size = instruction.size ∧
      counterpart.format = instruction.format

namespace Assembly

/-- Two effects that are the same, on memories of one size. -/
inductive Effect.Same {arch other : Architecture} : Effect arch → Effect other → Prop
  | origin {address : Fin arch.memorySize} {counterpart : Fin other.memorySize}
      (same : counterpart.val = address.val) : Same (.origin address) (.origin counterpart)
  | data (bytes : List UInt8) : Same (.data bytes) (.data bytes)

/-- What the first outcome gives the second one gives, too, up to a relation. -/
def Outcome.Follows {α β : Type} (related : α → β → Prop) (first : Outcome α)
    (second : Outcome β) : Prop :=
  ∀ result, first = .ok result → ∃ counterpart, second = .ok counterpart ∧
    related result counterpart

theorem Outcome.Follows.map {α β γ δ : Type} {related : α → β → Prop} {later : γ → δ → Prop}
    {first : Outcome α} {second : Outcome β} (follows : Outcome.Follows related first second)
    {change : α → γ} {counterchange : β → δ}
    (keeps : ∀ result counterpart, related result counterpart →
      later (change result) (counterchange counterpart)) :
    Outcome.Follows later (first.map change) (second.map counterchange) := by
  intro result given
  obtain ⟨before, first, rfl⟩ := Outcome.map_eq_ok.mp given
  obtain ⟨counterpart, second, same⟩ := follows before first
  exact ⟨counterchange counterpart, by rw [second]; rfl, keeps before counterpart same⟩

end Assembly

end ClassroomCpu

namespace ClassroomCpu.Architecture.Understands

open Assembly

variable {arch other : Architecture} (understands : other.Understands arch)
include understands

/-! ## Operands -/

theorem selectableRegister? (name : String) :
    other.selectableRegister? name = arch.selectableRegister? name := by
  simp only [Datasheet.selectableRegister?, understands.registers]

theorem compiledModes : compiledModes other.toDatasheet = compiledModes arch.toDatasheet := by
  simp only [Assembly.compiledModes, understands.addressingModes]

theorem matchItem? (parts : OperandParts) (item : FormItem) (token : Token) :
    matchItem? other.toDatasheet parts item token =
      matchItem? arch.toDatasheet parts item token := by
  simp only [Assembly.matchItem?, understands.selectableRegister?]

theorem matchItems? (parts : OperandParts) (items : List FormItem) (tokens : List Token) :
    matchItems? other.toDatasheet parts items tokens =
      matchItems? arch.toDatasheet parts items tokens := by
  induction items generalizing parts tokens with
  | nil => rfl
  | cons item items induction =>
      cases tokens with
      | nil => rfl
      | cons token tokens =>
          simp only [Assembly.matchItems?, understands.matchItem?, induction]

theorem matchOperand? (tokens : List Token) :
    matchOperand? other.toDatasheet tokens = matchOperand? arch.toDatasheet tokens := by
  simp only [Assembly.matchOperand?, understands.compiledModes, understands.matchItems?]

section Arguments

variable {instruction counterpart : Instruction} (form : counterpart.format = instruction.format)
include form

theorem parseArgument (parameter : Parameter) (tokens : List Token) :
    parseArgument other.toDatasheet counterpart parameter tokens =
      parseArgument arch.toDatasheet instruction parameter tokens := by
  have wrong : wrongNumber counterpart = wrongNumber instruction := by
    simp only [wrongNumber, Instruction.title, Instruction.mnemonic, form]
  unfold Assembly.parseArgument
  simp only [understands.selectableRegister?, understands.matchOperand?, wrong]

theorem parseFurther (parameters : List Parameter) (tokens : List Token) :
    parseFurther other.toDatasheet counterpart parameters tokens =
      parseFurther arch.toDatasheet instruction parameters tokens := by
  have wrong : wrongNumber counterpart = wrongNumber instruction := by
    simp only [wrongNumber, Instruction.title, Instruction.mnemonic, form]
  induction parameters generalizing tokens with
  | nil => cases tokens <;> simp only [Assembly.parseFurther, wrong]
  | cons parameter parameters induction =>
      simp only [Assembly.parseFurther, understands.parseArgument form, induction]

theorem parseArguments (tokens : List Token) :
    parseArguments other.toDatasheet counterpart tokens =
      parseArguments arch.toDatasheet instruction tokens := by
  have wrong : wrongNumber counterpart = wrongNumber instruction := by
    simp only [wrongNumber, Instruction.title, Instruction.mnemonic, form]
  have parameters : counterpart.parameters = instruction.parameters := by
    simp only [Instruction.parameters, form]
  unfold Assembly.parseArguments
  simp only [parameters, wrong, understands.parseArgument form, understands.parseFurther form]

end Arguments

/-! ## Bytes -/

theorem operandBytes (kind : AddressingMode.Kind) :
    other.operandBytes kind = arch.operandBytes kind := by
  have byteMachine : other.model ≠ .word := by
    rw [understands.model]
    exact understands.byteMachine
  rw [Datasheet.operandBytes_of_byte byteMachine,
    Datasheet.operandBytes_of_byte understands.byteMachine]
  simp only [Datasheet.addressBytes, understands.memorySize, understands.immediateBytes]

theorem ofMemory : Bounds.ofMemory other = Bounds.ofMemory arch := by
  simp only [Bounds.ofMemory, understands.memorySize]

theorem val_cell (address : Nat) : (other.cell address).val = (arch.cell address).val := by
  simp only [cell, understands.memorySize]

theorem val_wrap (address : Int) : (other.wrap address).val = (arch.wrap address).val := by
  rw [wrap, understands.val_cell, understands.memorySize, wrap]

theorem address (scope : Scope) (token : Token) :
    scope.address other token = scope.address arch token := by
  simp only [Scope.address, understands.ofMemory, understands.val_wrap]

theorem operandValue (scope : Scope) (operand : Operand) :
    ByteParts.operandValue scope other operand = ByteParts.operandValue scope arch operand := by
  simp only [ByteParts.operandValue, understands.operandBytes, understands.address]

theorem addArgument (scope : Scope) (parts : ByteParts) (argument : Argument) :
    ByteParts.addArgument scope other parts argument =
      ByteParts.addArgument scope arch parts argument := by
  cases argument <;>
    simp only [ByteParts.addArgument, understands.operandValue, understands.operandBytes,
      understands.byteOrder]

theorem encode {instruction counterpart : Instruction}
    (opcode : counterpart.opcode = instruction.opcode)
    (size : counterpart.size = instruction.size) (scope : Scope) (arguments : List Argument) :
    encode scope other counterpart arguments = encode scope arch instruction arguments := by
  have bytes : ∀ kinds, other.instructionBytes counterpart kinds =
      arch.instructionBytes instruction kinds := by
    intro kinds
    simp only [Datasheet.instructionBytes, size, understands.model, understands.operandBytes]
  have added : ByteParts.addArgument scope other = ByteParts.addArgument scope arch := by
    funext parts argument
    exact understands.addArgument scope parts argument
  have encoded : encodeBytes scope other counterpart arguments =
      encodeBytes scope arch instruction arguments := by
    simp only [encodeBytes, opcode, added, bytes]
  unfold Assembly.encode
  rw [understands.model]
  cases model : arch.model with
  | word => exact absurd model understands.byteMachine
  | standard | stack => exact encoded

/-! ## Directives -/

theorem originAddress (scope : Scope) (text : String) :
    Outcome.Follows Effect.Same (originAddress scope arch text)
      (originAddress scope other text) := by
  intro effect given
  unfold Assembly.originAddress at given ⊢
  obtain ⟨resolved, known, placed⟩ := Outcome.bind_eq_ok.mp given
  rw [understands.ofMemory, known]
  split at placed
  · rename_i inside
    cases placed
    refine ⟨.origin (other.wrap resolved.value), ?_, .origin (understands.val_wrap _)⟩
    simp only [Bind.bind, Except.bind, inside, if_true]
    rfl
  · contradiction

theorem allocation (scope : Scope) (width : Nat) (count : Token) :
    Outcome.Follows Effect.Same (allocation scope arch width count)
      (allocation scope other width count) := by
  intro effect given
  unfold Assembly.allocation at given ⊢
  cases count with
  | word text =>
      obtain ⟨resolved, known, allocated⟩ := Outcome.bind_eq_ok.mp given
      simp only [understands.memorySize, known]
      split at allocated
      · contradiction
      · rename_i fits
        cases allocated
        refine ⟨_, ?_, .data _⟩
        simp only [Bind.bind, Except.bind, fits]
        rfl
  | _ => contradiction

theorem data (scope : Scope) (width : Nat) (tokens : List Token) :
    Outcome.Follows Effect.Same
      ((dataBytes scope arch.byteOrder width tokens).map Effect.data : Outcome (Effect arch))
      ((dataBytes scope other.byteOrder width tokens).map Effect.data : Outcome (Effect other)) := by
  rw [understands.byteOrder]
  have same : Outcome.Follows Eq (dataBytes scope arch.byteOrder width tokens)
      (dataBytes scope arch.byteOrder width tokens) := fun bytes given => ⟨bytes, given, rfl⟩
  exact same.map fun bytes _ same => same ▸ .data bytes

theorem directiveEffect (scope : Scope) (directive : Directive) (arguments : List Token) :
    Outcome.Follows Effect.Same (directiveEffect scope arch directive arguments)
      (directiveEffect scope other directive arguments) := by
  have rejected {problem : Problem} :
      Outcome.Follows (@Effect.Same arch other) (reject problem)
        (reject problem) := by
    intro effect given
    contradiction
  have zeros (count : Nat) : Outcome.Follows (@Effect.Same arch other)
      (.ok (.data (List.replicate count 0))) (.ok (.data (List.replicate count 0))) := by
    intro effect given
    cases given
    exact ⟨_, rfl, .data _⟩
  unfold Assembly.directiveEffect
  dsimp only
  split
  · exact understands.originAddress scope _
  · exact rejected
  · exact rejected
  · exact zeros _
  · exact zeros _
  · exact understands.data scope _ _
  · exact understands.data scope _ _
  · exact rejected
  · exact rejected
  · exact rejected
  · exact rejected
  · exact understands.allocation scope _ _
  · exact understands.allocation scope _ _
  · exact understands.data scope _ _
  · exact understands.data scope _ _

/-! ## Statements -/

theorem mnemonicEffect (scope : Scope) (mnemonic : String) (arguments : List Token) :
    Outcome.Follows Effect.Same (mnemonicEffect scope arch mnemonic arguments)
      (mnemonicEffect scope other mnemonic arguments) := by
  unfold Assembly.mnemonicEffect
  split
  · exact understands.directiveEffect scope _ arguments
  · intro effect given
    split at given
    · rename_i instruction named
      obtain ⟨counterpart, there, opcode, size, form⟩ := understands.instruction _ _ named
      obtain ⟨parsed, parses, encoding⟩ := Outcome.bind_eq_ok.mp given
      obtain ⟨bytes, encodes, given⟩ := Outcome.bind_eq_ok.mp encoding
      cases given
      refine ⟨.data bytes, ?_, .data bytes⟩
      rw [there]
      simp only [understands.parseArguments form, understands.encode opcode size, parses, encodes,
        Bind.bind, Except.bind]
      rfl
    · contradiction

/-- A statement that one architecture accepts has the same effect on the other one. -/
theorem statementEffect (scope : Scope) (statement : String) :
    Outcome.Follows Effect.Same (statementEffect scope arch statement)
      (statementEffect scope other statement) := by
  unfold Assembly.statementEffect
  split
  · intro effect given
    contradiction
  · exact understands.mnemonicEffect scope _ _
  · intro effect given
    contradiction

end ClassroomCpu.Architecture.Understands
