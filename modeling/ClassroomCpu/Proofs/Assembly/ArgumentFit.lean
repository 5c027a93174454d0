import ClassroomCpu.Assembly.Argument
import ClassroomCpu.Proofs.Assembly.StatementSize
import Mathlib.Data.List.Forall2

/-!
# Arguments fit their parameters

Matching gives one argument for each parameter.  A register argument is one
that opcodes can select; an operand has a mode of the machine, and names a value
and a register as the form of the mode asks for.
-/

namespace ClassroomCpu.Assembly

/-- A register that the operands of a statement can name. -/
def Selectable (sheet : Datasheet) (register : RegisterSpec) : Prop :=
  register ∈ sheet.registers ∧ register.pattern.text.isEmpty = false

theorem selectable_of_selectableRegister? {sheet : Datasheet} {name : String}
    {register : RegisterSpec} (found : sheet.selectableRegister? name = some register) :
    Selectable sheet register := by
  refine ⟨List.mem_of_find?_eq_some found, ?_⟩
  have selected := List.find?_some found
  simp only [Bool.and_eq_true, Bool.not_eq_true'] at selected
  exact selected.1

/-- A token that may stand for the value of an operand. -/
def Token.IsValue : Token → Prop
  | .word _ | .quoted _ => True
  | _ => False

/-- The parts of an operand are those that some items ask for. -/
structure OperandParts.Fits (sheet : Datasheet) (items : List FormItem)
    (parts : OperandParts) : Prop where
  hasValue : parts.value.isSome = items.contains .value
  hasRegister : parts.register.isSome = items.contains .register
  value : ∀ token, parts.value = some token → token.IsValue
  register : ∀ register, parts.register = some register → Selectable sheet register

/-- An operand has a mode of the machine and the parts that its form asks for. -/
def Operand.Fits (sheet : Datasheet) (operand : Operand) : Prop :=
  operand.mode ∈ sheet.addressingModes ∧
    ∃ items, formItems operand.mode.form = .ok items ∧ operand.toOperandParts.Fits sheet items

/-- An argument is of the kind that a parameter asks for. -/
def Argument.Fits (sheet : Datasheet) : Parameter → Argument → Prop
  | .register, .register selected => Selectable sheet selected
  | .flags, .flags _ => True
  | .offset, .offset _ => True
  | .operand _, .operand addressed => addressed.Fits sheet
  | _, _ => False

/-! ## Operands -/

theorem matchItem?_fits {sheet : Datasheet} {before : List FormItem} {parts result : OperandParts}
    {item : FormItem} {token : Token} (fits : parts.Fits sheet before)
    (matched : matchItem? sheet parts item token = some result) :
    result.Fits sheet (before ++ [item]) := by
  obtain ⟨hasValue, hasRegister, value, register⟩ := fits
  unfold matchItem? at matched
  split at matched
  · split at matched
    · obtain rfl := Option.some.inj matched
      exact ⟨by simp, by simpa using hasRegister, by simp [Token.IsValue], register⟩
    · simp at matched
  · obtain rfl := Option.some.inj matched
    exact ⟨by simp, by simpa using hasRegister, by simp [Token.IsValue], register⟩
  · obtain ⟨named, found, rfl⟩ := Option.map_eq_some_iff.mp matched
    refine ⟨by simpa using hasValue, by simp, value, ?_⟩
    rintro other ⟨⟩
    exact selectable_of_selectableRegister? found
  · split at matched
    · obtain rfl := Option.some.inj matched
      exact ⟨by simpa using hasValue, by simpa using hasRegister, value, register⟩
    · simp at matched
  · simp at matched

theorem matchItems?_fits {sheet : Datasheet} {before items : List FormItem}
    {parts result : OperandParts} {tokens rest : List Token} (fits : parts.Fits sheet before)
    (matched : matchItems? sheet parts items tokens = some (result, rest)) :
    result.Fits sheet (before ++ items) := by
  induction items generalizing before parts tokens with
  | nil =>
      simp only [matchItems?, Option.some.injEq, Prod.mk.injEq] at matched
      rw [← matched.1, List.append_nil]
      exact fits
  | cons item items induction =>
      cases tokens with
      | nil => simp [matchItems?] at matched
      | cons token tokens =>
          simp only [matchItems?] at matched
          split at matched
          · rename_i middle first
            have whole := induction (matchItem?_fits fits first) matched
            rwa [List.append_assoc] at whole
          · simp at matched

theorem mem_insertByLength {entry other : CompiledMode} {entries : List CompiledMode}
    (member : other ∈ insertByLength entry entries) : other = entry ∨ other ∈ entries := by
  induction entries with
  | nil => exact .inl (by simpa [insertByLength] using member)
  | cons first entries induction =>
      simp only [insertByLength] at member
      split at member
      · simpa using member
      · rcases List.mem_cons.mp member with here | later
        · exact .inr (by simp [here])
        · rcases induction later with same | among
          · exact .inl same
          · exact .inr (by simp [among])

theorem mem_foldr_insertByLength {entry : CompiledMode} {entries : List CompiledMode}
    (member : entry ∈ entries.foldr insertByLength []) : entry ∈ entries := by
  induction entries with
  | nil => exact member
  | cons first entries induction =>
      rcases mem_insertByLength member with same | among
      · simp [same]
      · exact List.mem_cons_of_mem _ (induction among)

/-- The modes with their items are those of the machine, in another order. -/
theorem mem_compiledModes {sheet : Datasheet} {modes : List CompiledMode}
    (compiled : compiledModes sheet = .ok modes) {entry : CompiledMode} (member : entry ∈ modes) :
    entry.mode ∈ sheet.addressingModes ∧ formItems entry.mode.form = .ok entry.items := by
  unfold compiledModes at compiled
  obtain ⟨entries, listed, sorted⟩ := Outcome.bind_eq_ok.mp compiled
  rw [← Outcome.pure_eq_ok.mp sorted] at member
  obtain ⟨mode, known, made⟩ := Outcome.mem_of_mapM_eq_ok listed (mem_foldr_insertByLength member)
  obtain ⟨items, lexed, same⟩ := Outcome.bind_eq_ok.mp made
  rw [← Outcome.pure_eq_ok.mp same]
  exact ⟨known, lexed⟩

theorem matchOperand?_fits {sheet : Datasheet} {tokens rest : List Token} {operand : Operand}
    (matched : matchOperand? sheet tokens = .ok (some (operand, rest))) :
    operand.Fits sheet := by
  unfold matchOperand? at matched
  obtain ⟨modes, compiled, found⟩ := Outcome.bind_eq_ok.mp matched
  obtain ⟨entry, member, here⟩ :=
    List.exists_of_findSome?_eq_some (Outcome.pure_eq_ok.mp found)
  obtain ⟨⟨parts, after⟩, items, same⟩ := Option.map_eq_some_iff.mp here
  simp only [Prod.mk.injEq] at same
  obtain ⟨known, lexed⟩ := mem_compiledModes compiled member
  rw [← same.1]
  have start : OperandParts.Fits sheet [] ⟨none, none⟩ :=
    ⟨rfl, rfl, by simp, by simp⟩
  exact ⟨known, entry.items, lexed, matchItems?_fits start items⟩

/-! ## Arguments -/

theorem parseArgument_fits {sheet : Datasheet} {instruction : Instruction}
    {parameter : Parameter} {tokens rest : List Token} {argument : Argument}
    (parsed : parseArgument sheet instruction parameter tokens = .ok (argument, rest)) :
    Argument.Fits sheet parameter argument := by
  unfold parseArgument at parsed
  split at parsed
  · obtain ⟨rfl, _⟩ := Prod.mk.inj (Except.ok.inj parsed)
    trivial
  · obtain ⟨rfl, _⟩ := Prod.mk.inj (Except.ok.inj parsed)
    trivial
  · exact absurd parsed Outcome.reject_ne_ok
  · obtain ⟨rfl, _⟩ := Prod.mk.inj (Except.ok.inj parsed)
    trivial
  · split at parsed
    · rename_i register found
      obtain ⟨rfl, _⟩ := Prod.mk.inj (Except.ok.inj parsed)
      exact selectable_of_selectableRegister? found
    · exact absurd parsed Outcome.reject_ne_ok
  · exact absurd parsed Outcome.reject_ne_ok
  · exact absurd parsed Outcome.reject_ne_ok
  · split at parsed
    · simp at parsed
    · exact absurd parsed Outcome.reject_ne_ok
    · rename_i operand after matched
      obtain ⟨rfl, _⟩ := Prod.mk.inj (Except.ok.inj parsed)
      exact matchOperand?_fits matched

theorem parseFurther_fits {sheet : Datasheet} {instruction : Instruction}
    {parameters : List Parameter} {tokens : List Token} {arguments : List Argument}
    (parsed : parseFurther sheet instruction parameters tokens = .ok arguments) :
    List.Forall₂ (Argument.Fits sheet)
      parameters arguments := by
  induction parameters generalizing tokens arguments with
  | nil =>
      cases tokens with
      | nil => rw [← Except.ok.inj parsed]; exact .nil
      | cons token tokens => exact absurd parsed Outcome.reject_ne_ok
  | cons parameter parameters induction =>
      obtain ⟨⟨argument, rest⟩, first, parsed⟩ := Outcome.bind_eq_ok.mp parsed
      obtain ⟨others, later, done⟩ := Outcome.bind_eq_ok.mp parsed
      rw [← Outcome.pure_eq_ok.mp done]
      exact .cons (parseArgument_fits first) (induction later)

theorem parseArguments_fits {sheet : Datasheet} {instruction : Instruction}
    {tokens : List Token} {arguments : List Argument}
    (parsed : parseArguments sheet instruction tokens = .ok arguments) :
    List.Forall₂ (Argument.Fits sheet)
      instruction.parameters arguments := by
  unfold parseArguments at parsed
  split at parsed
  · rename_i noParameters
    rw [← Except.ok.inj parsed, noParameters]
    exact .nil
  · exact absurd parsed Outcome.reject_ne_ok
  · rename_i parameters
    obtain ⟨⟨argument, rest⟩, first, parsed⟩ := Outcome.bind_eq_ok.mp parsed
    obtain ⟨others, later, done⟩ := Outcome.bind_eq_ok.mp parsed
    rw [← Outcome.pure_eq_ok.mp done, parameters]
    exact .cons (parseArgument_fits first) (parseFurther_fits later)

end ClassroomCpu.Assembly
