import ClassroomCpu.Assembly.Statement

/-!
# What is wrong with statements

A statement without an effect has a problem of its own: neither the label in
front of it nor the cells of its bytes are a matter of the statement.  It ends in
a fault only if the form of an addressing mode cannot be read.
-/

namespace ClassroomCpu.Assembly

/-! ## Failures of statements -/

/-- The problem is one of statements, not of labels or of cells. -/
def Problem.isOfStatement : Problem → Bool
  | .invalidLabel _ | .duplicateLabel _ | .memoryOverlap _ => false
  | _ => true

/-- A failure in which a statement can end. -/
inductive Failure.OfStatement (sheet : Datasheet) : Failure → Prop
  | problem {problem : Problem} (isOfStatement : problem.isOfStatement = true) :
      OfStatement sheet (.problem problem)
  | fault {fault : Fault} (unreadable : compiledModes sheet = .error fault) :
      OfStatement sheet (.fault fault)

/-- If the computation fails, then as statements do. -/
def FailsAsStatement {α : Type} (sheet : Datasheet) (outcome : Outcome α) : Prop :=
  ∀ failure, outcome = .error failure → failure.OfStatement sheet

namespace FailsAsStatement

variable {α β : Type} {sheet : Datasheet}

@[simp] theorem ok (value : α) : FailsAsStatement sheet (.ok value) :=
  nofun

@[simp] theorem pure (value : α) : FailsAsStatement sheet (Pure.pure value) :=
  nofun

theorem reject {problem : Problem} (isOfStatement : problem.isOfStatement = true) :
    FailsAsStatement sheet (Assembly.reject problem : Outcome α) := by
  rintro failure same
  obtain rfl := Except.error.inj same
  exact .problem isOfStatement

theorem orReject {problem : Problem} (isOfStatement : problem.isOfStatement = true)
    (option : Option α) : FailsAsStatement sheet (Assembly.orReject problem option) := by
  cases option with
  | none => exact reject isOfStatement
  | some value => exact ok value

theorem bind {first : Outcome α} {next : α → Outcome β} (here : FailsAsStatement sheet first)
    (further : ∀ value, FailsAsStatement sheet (next value)) :
    FailsAsStatement sheet (first >>= next) := by
  cases first with
  | ok value => exact further value
  | error failure =>
      rintro other same
      obtain rfl := Except.error.inj same
      exact here failure rfl

theorem map {outcome : Outcome α} (change : α → β) (here : FailsAsStatement sheet outcome) :
    FailsAsStatement sheet (outcome.map change) := by
  cases outcome with
  | ok value => exact ok _
  | error failure =>
      rintro other same
      obtain rfl := Except.error.inj same
      exact here failure rfl

theorem foldlM {step : β → α → Outcome β}
    (each : ∀ state element, FailsAsStatement sheet (step state element)) (list : List α)
    (state : β) : FailsAsStatement sheet (list.foldlM step state) := by
  induction list generalizing state with
  | nil => exact pure state
  | cons element list induction =>
      rw [List.foldlM_cons]
      exact bind (each state element) fun after => induction after

end FailsAsStatement

/-! ## Values -/

section Values

variable {sheet : Datasheet} (scope : Scope)

theorem failsAsStatement_number {bounds : Bounds} {problem : String → Problem} (token : Token)
    (isOfStatement : ∀ text, (problem text).isOfStatement = true) :
    FailsAsStatement sheet (scope.number bounds problem token) := by
  unfold Scope.number
  split
  · split
    · split
      · exact .ok _
      · exact .reject (isOfStatement _)
    · exact .ok 0
    · exact .reject (isOfStatement _)
  · exact .reject rfl

theorem failsAsStatement_address (arch : Architecture) (token : Token) :
    FailsAsStatement sheet (scope.address arch token) :=
  .bind (failsAsStatement_number scope token fun _ => rfl) fun _ => .pure _

theorem failsAsStatement_immediate (width : Nat) (token : Token) :
    FailsAsStatement sheet (scope.immediate width token) := by
  unfold Scope.immediate
  split
  · split
    · split
      · exact .ok _
      · exact .reject rfl
    · exact .reject rfl
  · exact failsAsStatement_number scope token fun _ => rfl

theorem failsAsStatement_offset (instruction : Instruction) (text : String) :
    FailsAsStatement sheet (scope.offset instruction text) := by
  unfold Scope.offset
  repeat' split
  all_goals first
    | exact .ok _
    | exact .reject rfl

/-! ## Directives -/

theorem failsAsStatement_dataItem (order : ByteOrder) (width : Nat) (token : Token) :
    FailsAsStatement sheet (dataItem scope order width token) := by
  unfold dataItem
  dsimp only
  split
  · split
    · exact .reject rfl
    · exact .ok _
  · exact .bind (failsAsStatement_number scope _ fun _ => rfl) fun _ => .pure _
  · exact .reject rfl

theorem failsAsStatement_dataBytes (order : ByteOrder) (width : Nat) (tokens : List Token) :
    FailsAsStatement sheet (dataBytes scope order width tokens) := by
  induction tokens with
  | nil => exact .ok []
  | cons token tokens induction =>
      exact .bind (failsAsStatement_dataItem scope order width token) fun _ =>
        .bind induction fun _ => .pure _

theorem failsAsStatement_originAddress (arch : Architecture) (text : String) :
    FailsAsStatement sheet (originAddress scope arch text) := by
  apply FailsAsStatement.bind (.orReject rfl _)
  intro resolved
  split
  · exact .pure _
  · exact .reject rfl

theorem failsAsStatement_allocation (arch : Architecture) (width : Nat) (count : Token) :
    FailsAsStatement sheet (allocation scope arch width count) := by
  unfold allocation
  split
  · apply FailsAsStatement.bind (.orReject rfl _)
    intro resolved
    split
    · exact .reject rfl
    · exact .pure _
  · exact .reject rfl

theorem failsAsStatement_directiveEffect (arch : Architecture) (directive : Directive)
    (arguments : List Token) :
    FailsAsStatement sheet (directiveEffect scope arch directive arguments) := by
  have data : ∀ tokens, FailsAsStatement sheet
      ((dataBytes scope arch.byteOrder directive.width tokens).map (@Effect.data arch)) :=
    fun tokens => .map _ (failsAsStatement_dataBytes scope _ _ tokens)
  unfold directiveEffect
  split
  all_goals first
    | exact .ok _
    | exact .reject rfl
    | exact failsAsStatement_originAddress scope arch _
    | exact failsAsStatement_allocation scope arch _ _
    | exact data _

/-! ## Instructions -/

theorem failsAsStatement_byteOperandValue (arch : Architecture) (operand : Operand) :
    FailsAsStatement sheet (ByteParts.operandValue scope arch operand) := by
  unfold ByteParts.operandValue
  split
  · exact .ok 0
  · split
    · exact failsAsStatement_immediate scope _ _
    · exact .map _ (.bind (failsAsStatement_address scope arch _) fun _ => .pure _)

theorem failsAsStatement_encodeBytes (arch : Architecture) (instruction : Instruction)
    (arguments : List Argument) :
    FailsAsStatement sheet (encodeBytes scope arch instruction arguments) := by
  apply FailsAsStatement.bind _ fun _ => .pure _
  apply FailsAsStatement.foldlM
  intro parts argument
  cases argument with
  | operand operand =>
      exact .bind (failsAsStatement_byteOperandValue scope arch operand) fun _ => .pure _
  | register register => exact .ok _
  | _ => exact .reject rfl

theorem failsAsStatement_wordOperandValue (arch : Architecture) (operand : Operand) :
    FailsAsStatement sheet (WordParts.operandValue scope arch operand) := by
  unfold WordParts.operandValue
  split
  · exact .ok 0
  · exact failsAsStatement_immediate scope _ _
  · exact .map _ (.bind (failsAsStatement_address scope arch _) fun _ => .pure _)
  · exact failsAsStatement_number scope _ fun _ => rfl

theorem failsAsStatement_flagBits (letters : String) :
    FailsAsStatement sheet (WordParts.flagBits letters) := by
  apply FailsAsStatement.foldlM
  intro bits letter
  split
  · exact .ok _
  · exact .reject rfl

theorem failsAsStatement_encodeWord (arch : Architecture) (instruction : Instruction)
    (arguments : List Argument) :
    FailsAsStatement sheet (encodeWord scope arch instruction arguments) := by
  apply FailsAsStatement.bind _ fun _ => .pure _
  apply FailsAsStatement.foldlM
  rintro parts ⟨parameter, argument⟩
  cases argument with
  | register register => exact .ok _
  | flags letters => exact .bind (failsAsStatement_flagBits letters) fun _ => .pure _
  | offset text => exact .bind (failsAsStatement_offset scope instruction text) fun _ => .pure _
  | operand operand =>
      simp only [WordParts.addArgument]
      split
      · exact .bind (failsAsStatement_wordOperandValue scope arch operand) fun _ => .pure _
      · exact .ok _

theorem failsAsStatement_encode (arch : Architecture) (instruction : Instruction)
    (arguments : List Argument) :
    FailsAsStatement sheet (encode scope arch instruction arguments) := by
  unfold encode
  split
  · exact failsAsStatement_encodeWord scope arch instruction arguments
  · exact failsAsStatement_encodeBytes scope arch instruction arguments
  · exact failsAsStatement_encodeBytes scope arch instruction arguments

end Values

/-! ## Arguments -/

section Arguments

variable (sheet : Datasheet)

theorem matchOperand?_eq_error {tokens : List Token} {fault : Fault}
    (failed : matchOperand? sheet tokens = .error fault) : compiledModes sheet = .error fault := by
  unfold matchOperand? at failed
  cases compiled : compiledModes sheet with
  | error other =>
      rw [compiled] at failed
      exact congrArg Except.error (Except.error.inj failed)
  | ok modes =>
      rw [compiled] at failed
      contradiction

theorem failsAsStatement_parseArgument (instruction : Instruction) (parameter : Parameter)
    (tokens : List Token) :
    FailsAsStatement sheet (parseArgument sheet instruction parameter tokens) := by
  unfold parseArgument
  split
  case h_8 =>
    split
    · rename_i fault failed
      rintro failure same
      obtain rfl := Except.error.inj same
      exact .fault (matchOperand?_eq_error sheet failed)
    · exact .reject rfl
    · exact .ok _
  case h_5 =>
    split
    · exact .ok _
    · exact .reject rfl
  all_goals first
    | exact .ok _
    | exact .reject rfl

theorem failsAsStatement_parseFurther (instruction : Instruction) (parameters : List Parameter)
    (tokens : List Token) :
    FailsAsStatement sheet (parseFurther sheet instruction parameters tokens) := by
  induction parameters generalizing tokens with
  | nil =>
      cases tokens with
      | nil => exact .ok []
      | cons token tokens => exact .reject rfl
  | cons parameter parameters induction =>
      simp only [parseFurther]
      exact .bind (failsAsStatement_parseArgument sheet instruction parameter _) fun parsed =>
        .bind (induction parsed.2) fun _ => .pure _

theorem failsAsStatement_parseArguments (instruction : Instruction) (tokens : List Token) :
    FailsAsStatement sheet (parseArguments sheet instruction tokens) := by
  unfold parseArguments
  split
  · exact .ok _
  · exact .reject rfl
  · exact .bind (failsAsStatement_parseArgument sheet instruction _ _) fun parsed =>
      .bind (failsAsStatement_parseFurther sheet instruction _ parsed.2) fun _ => .pure _

end Arguments

/-! ## Statements -/

theorem lexicalProblem_isOfStatement (rest : List Char) :
    (lexicalProblem rest).isOfStatement = true := by
  unfold lexicalProblem
  split <;> rfl

/-- A statement fails with a problem of its own, or since an addressing mode cannot be read. -/
theorem failsAsStatement_statementEffect (scope : Scope) (arch : Architecture)
    (statement : String) :
    FailsAsStatement arch.toDatasheet (statementEffect scope arch statement) := by
  unfold statementEffect
  split
  · exact .reject (lexicalProblem_isOfStatement _)
  · unfold mnemonicEffect
    split
    · exact failsAsStatement_directiveEffect scope arch _ _
    · split
      · exact .bind (failsAsStatement_parseArguments _ _ _) fun _ =>
          .bind (failsAsStatement_encode scope arch _ _) fun _ => .pure _
      · exact .reject rfl
  · exact .reject rfl

end ClassroomCpu.Assembly
