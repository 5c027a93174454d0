import ClassroomCpu.Catalog
import ClassroomCpu.Proofs.Assembly.ArgumentText

/-!
# The machines of the catalog are legible

Mnemonics and names of registers are words of their own, and the forms of the
addressing modes can be told apart.  These facts are about the datasheets
alone, and are checked entry by entry.
-/

namespace ClassroomCpu.Catalog

open Assembly

/-! ## Checks -/

/-- Whether the name of a register is a word that is no number, and leads to the register. -/
def legibleName (sheet : Datasheet) (named : RegisterSpec) : Bool :=
  Token.isPlainWord named.name.toList && Text.hasLetter named.name
    && sheet.selectableRegister? named.name == some named

/-- Whether a token of a form stands for a value or a register, or for nothing but itself. -/
def legibleToken (token : Token) : Bool :=
  token == .word "a" || token == .word "r"
    || !token.text.toList.contains 'a' && !token.text.toList.contains 'r'

/-- Whether a form is nothing but its tokens. -/
def legibleForm (form : String) : Bool :=
  let tokens := formTokens form
  (Token.lex form.toList).isOk && Token.textOf tokens == form.toList
    && tokens.all Token.isPlain
    && decide (tokens.IsChain fun (token next : Token) => token.endsBeforeToken next = true)
    && tokens.all legibleToken && tokens.head?.any (fun token => token != .comma)

/-- Whether a mode is tried, and no rival fits its form. -/
def legibleMode (sheet : Datasheet) (mode : AddressingMode) : Bool :=
  legibleForm mode.form && sheet.triedModes.any (fun entry => entry.mode == mode)
    && (sheet.rivals mode).all fun rival => excludesForm sheet rival.items (formTokens mode.form)

/-- Whether a mnemonic is a word that leads to the instruction. -/
def legibleTitle (sheet : Datasheet) (instruction : Instruction) : Bool :=
  Token.isPlainWord instruction.title.toList
    && (Directive.ofMnemonic? instruction.title).isNone
    && sheet.instructionNamed? instruction.title == some instruction

theorem legibleNames_of_check {sheet : Datasheet}
    (check : (sheet.registers.all fun named =>
      named.pattern.text.isEmpty || legibleName sheet named) = true) : sheet.LegibleNames := by
  have each : ∀ named, Selectable sheet named → legibleName sheet named = true := by
    intro named selectable
    have here := List.all_eq_true.mp check named selectable.1
    rwa [selectable.2, Bool.false_or] at here
  simp only [legibleName, Bool.and_eq_true, beq_iff_eq] at each
  exact ⟨fun named selectable => (each named selectable).1.1,
    fun named selectable => (each named selectable).1.2,
    fun named selectable => (each named selectable).2⟩

theorem ok_of_isOk {ε α : Type} {outcome : Except ε α} (isOk : outcome.isOk = true) :
    ∃ result, outcome = .ok result := by
  cases outcome with
  | ok result => exact ⟨result, rfl⟩
  | error problem => simp [Except.isOk, Except.toBool] at isOk

theorem formReads_of_check {form : String} (check : legibleForm form = true) :
    FormReads form := by
  simp only [legibleForm, Bool.and_eq_true, beq_iff_eq, decide_eq_true_eq, List.all_eq_true]
    at check
  obtain ⟨⟨⟨⟨⟨isOk, text⟩, plain⟩, chain⟩, places⟩, starts⟩ := check
  obtain ⟨tokens, lexed⟩ := ok_of_isOk isOk
  refine ⟨by simp only [formTokens, lexed], text, ⟨plain, chain⟩, ?_, ?_⟩
  · intro token member
    have place := places token member
    simpa [legibleToken, or_assoc] using place
  · obtain ⟨token, first, other⟩ := Option.any_eq_true _ _ |>.mp starts
    exact ⟨token, first, by simpa using other⟩

theorem legibleModes_of_check {sheet : Datasheet} (compiled : (compiledModes sheet).isOk = true)
    (check : (sheet.addressingModes.all (legibleMode sheet)) = true) : sheet.LegibleModes := by
  have each : ∀ mode ∈ sheet.addressingModes, legibleMode sheet mode = true :=
    List.all_eq_true.mp check
  simp only [legibleMode, Bool.and_eq_true, List.any_eq_true, beq_iff_eq, List.all_eq_true]
    at each
  obtain ⟨entries, made⟩ := ok_of_isOk compiled
  exact ⟨by simp only [Datasheet.triedModes, made],
    fun mode member => formReads_of_check (each mode member).1.1,
    fun mode member => (each mode member).1.2, fun mode member => (each mode member).2⟩

/-- A machine is legible if each entry of its datasheet is. -/
theorem legible_of_checks {sheet : Datasheet}
    (names : (sheet.registers.all fun named =>
      named.pattern.text.isEmpty || legibleName sheet named) = true)
    (compiled : (compiledModes sheet).isOk = true)
    (modes : (sheet.addressingModes.all (legibleMode sheet)) = true)
    (titles : (sheet.instructions.all (legibleTitle sheet)) = true) : sheet.Legible := by
  refine ⟨legibleNames_of_check names, legibleModes_of_check compiled modes, ?_⟩
  intro instruction known
  have title := List.all_eq_true.mp titles instruction known
  simpa [legibleTitle, and_assoc] using title

/-! ## The machines -/

/-- Every machine of the catalog is legible. -/
theorem legible : ∀ arch ∈ machines, arch.Legible :=
  forall_machine
    (legible_of_checks (by decide +kernel) (by decide +kernel) (by decide +kernel)
      (by decide +kernel))
    (legible_of_checks (by decide +kernel) (by decide +kernel) (by decide +kernel)
      (by decide +kernel))
    (legible_of_checks (by decide +kernel) (by decide +kernel) (by decide +kernel)
      (by decide +kernel))
    (legible_of_checks (by decide +kernel) (by decide +kernel) (by decide +kernel)
      (by decide +kernel))
    (legible_of_checks (by decide +kernel) (by decide +kernel) (by decide +kernel)
      (by decide +kernel))
    (legible_of_checks (by decide +kernel) (by decide +kernel) (by decide +kernel)
      (by decide +kernel))
    (legible_of_checks (by decide +kernel) (by decide +kernel) (by decide +kernel)
      (by decide +kernel))

end ClassroomCpu.Catalog
