import ClassroomCpu.Catalog
import ClassroomCpu.Proofs.Assembly.ArgumentFit
import ClassroomCpu.Proofs.Assembly.Resolution

/-!
# Words that are read before their labels are known

While memory is reserved, a word that stands for nothing yet counts as zero, and
so passes every check of bounds.  A word that is a literal does stand for
something: it is checked as the number that it writes, even if it is a label
further down.  This is the one way in which a statement that can be emitted is
rejected before.
-/

namespace ClassroomCpu.Assembly

/-! ## Computations that succeed -/

namespace Outcome

/-- There is a result. -/
def Succeeds {α : Type} (outcome : Outcome α) : Prop :=
  ∃ result, outcome = .ok result

variable {α β : Type}

theorem succeeds_ok (result : α) : Succeeds (.ok result) :=
  ⟨result, rfl⟩

theorem not_succeeds_reject (problem : Problem) : ¬ Succeeds (reject problem : Outcome α) :=
  fun ⟨_, given⟩ => reject_ne_ok given

instance (outcome : Outcome α) : Decidable (Succeeds outcome) :=
  match outcome with
  | .ok result => .isTrue ⟨result, rfl⟩
  | .error _ => .isFalse fun ⟨_, given⟩ => nomatch given

theorem succeeds_ite {condition : Bool} {result : α} {problem : Problem} :
    Succeeds (if condition = true then .ok result else reject problem) ↔ condition = true := by
  cases condition <;> simp [Succeeds]

theorem succeeds_map {outcome : Outcome α} {change : α → β} :
    Succeeds (outcome.map change) ↔ Succeeds outcome := by
  cases outcome <;> simp [Succeeds, Except.map]

/-- Going on with the result does not matter. -/
theorem succeeds_bind_pure {first : Outcome α} {change : α → β} :
    Succeeds (do let result ← first; pure (change result)) ↔ Succeeds first := by
  cases first <;> simp [Succeeds, Bind.bind, Except.bind]

/-- A fold whose steps succeed regardless of what they go on from succeeds if all of them do. -/
theorem succeeds_foldlM {step : β → α → Outcome β} {good : α → Prop}
    (each : ∀ start element, Succeeds (step start element) ↔ good element) (list : List α)
    (start : β) : Succeeds (list.foldlM step start) ↔ ∀ element ∈ list, good element := by
  induction list generalizing start with
  | nil => exact iff_of_true (succeeds_ok start) (by simp)
  | cons element list induction =>
      rw [List.foldlM_cons, List.forall_mem_cons, ← each start element]
      cases given : step start element with
      | error failure => simp [Succeeds, Bind.bind, Except.bind]
      | ok next => simpa [Succeeds, Bind.bind, Except.bind] using induction next

end Outcome

open Outcome

/-! ## Words -/

/-- The text of a token that is a word. -/
def Token.word? : Token → Option String
  | .word text => some text
  | _ => none

/-- A word is a label later, and until then a literal of a number outside the bounds. -/
def ReadTooEarly (labels later : LabelTable) (word : String) (bounds : Bounds) : Prop :=
  (∃ value, literal? word.toList = some value ∧ bounds.holds value = false) ∧
    labels.find? word = none ∧ (later.find? word).isSome = true

/-- What a word stands for passes a check; while memory is reserved, it may stand for nothing. -/
def Scope.Accepts (scope : Scope) (passes : Resolved → Bool) (word : String) : Prop :=
  match resolve? scope.labels word with
  | some resolved => passes resolved = true
  | none => scope.pass = .reserve

namespace Scope

section Accepts

variable {scope : Scope} {passes : Resolved → Bool} {word : String}

theorem accepts_of_some {resolved : Resolved} (found : resolve? scope.labels word = some resolved) :
    scope.Accepts passes word ↔ passes resolved = true := by
  simp [Accepts, found]

theorem accepts_of_none (unknown : resolve? scope.labels word = none) :
    scope.Accepts passes word ↔ scope.pass = .reserve := by
  simp [Accepts, unknown]

theorem succeeds_number {bounds : Bounds} {problem : String → Problem} :
    Succeeds (scope.number bounds problem (.word word)) ↔
      scope.Accepts (fun resolved => bounds.holds resolved.value) word := by
  unfold number
  dsimp only
  cases found : resolve? scope.labels word with
  | none =>
      rw [accepts_of_none found]
      cases pass : scope.pass <;> simp [Succeeds]
  | some resolved =>
      rw [accepts_of_some found]
      exact succeeds_ite

/-- The check of what stands behind a branch: a distance to a label, or a literal. -/
def branches (cursor : Nat) (instruction : Instruction) (resolved : Resolved) : Bool :=
  if resolved.isLabel then
    let (distance, bounds) := distance ⟨.emit, [], cursor⟩ instruction resolved.value
    bounds.holds distance
  else (Bounds.ofBytes 1).holds resolved.value

theorem branches_literal (cursor : Nat) (instruction : Instruction) (value : Int) :
    branches cursor instruction ⟨value, false⟩ = (Bounds.ofBytes 1).holds value := rfl

theorem succeeds_offset {instruction : Instruction} :
    Succeeds (scope.offset instruction word) ↔
      scope.Accepts (branches scope.cursor instruction) word := by
  unfold offset
  cases found : resolve? scope.labels word with
  | none =>
      rw [accepts_of_none found]
      cases pass : scope.pass <;> simp [Succeeds]
  | some resolved =>
      rw [accepts_of_some found]
      obtain ⟨value, isLabel⟩ := resolved
      cases isLabel with
      | true => exact succeeds_ite
      | false => exact succeeds_ite

end Accepts

section Grows

variable {arch : Architecture} {labels later : LabelTable} (wellFormed : labels.WellFormed)
  (grows : labels.GrowsTo later) {cursor : Nat} {word : String}
include wellFormed grows

/-- A word that is accepted in the end is accepted before, unless it is read too early. -/
theorem accepts_before_iff {passes : Resolved → Bool} {bounds : Bounds}
    (literals : ∀ value, passes ⟨value, false⟩ = bounds.holds value)
    (emitted : Accepts ⟨.emit, later, cursor⟩ passes word) :
    Accepts ⟨.reserve, labels, cursor⟩ passes word ↔ ¬ ReadTooEarly labels later word bounds := by
  constructor
  · rintro accepted ⟨⟨value, read, outside⟩, unknown, _⟩
    rw [accepts_of_some (resolve?_of_literal? unknown read), literals, outside] at accepted
    exact absurd accepted (by decide)
  · intro timely
    cases found : resolve? labels word with
    | none => exact (accepts_of_none found).mpr rfl
    | some resolved =>
        rw [accepts_of_some found]
        rcases resolve?_of_growsTo wellFormed grows found with
          same | ⟨⟨value, read, rfl⟩, becomes⟩
        · exact (accepts_of_some same).mp emitted
        · rw [literals, ← Bool.not_eq_false]
          exact fun outside => timely ⟨⟨value, read, outside⟩, becomes⟩

/-! ## Values -/

theorem number_before_iff {token : Token} {bounds : Bounds} {problem : String → Problem}
    (emitted : Succeeds (number ⟨.emit, later, cursor⟩ bounds problem token)) :
    Succeeds (number ⟨.reserve, labels, cursor⟩ bounds problem token) ↔
      ∀ word ∈ token.word?, ¬ ReadTooEarly labels later word bounds := by
  cases token with
  | word word =>
      rw [succeeds_number] at emitted ⊢
      rw [accepts_before_iff wellFormed grows (fun _ => rfl) emitted]
      simp [Token.word?]
  | _ => exact absurd emitted (not_succeeds_reject _)

theorem address_before_iff {token : Token}
    (emitted : Succeeds (address ⟨.emit, later, cursor⟩ arch token)) :
    Succeeds (address ⟨.reserve, labels, cursor⟩ arch token) ↔
      ∀ word ∈ token.word?, ¬ ReadTooEarly labels later word (.ofMemory arch) := by
  unfold address at emitted ⊢
  rw [succeeds_bind_pure] at emitted ⊢
  exact number_before_iff wellFormed grows emitted

theorem immediate_before_iff {token : Token} {width : Nat}
    (emitted : Succeeds (immediate ⟨.emit, later, cursor⟩ width token)) :
    Succeeds (immediate ⟨.reserve, labels, cursor⟩ width token) ↔
      ∀ word ∈ token.word?, ¬ ReadTooEarly labels later word (.ofBytes width) := by
  cases token with
  | quoted text => exact iff_of_true emitted (by simp [Token.word?])
  | _ =>
      unfold immediate at emitted ⊢
      exact number_before_iff wellFormed grows emitted

theorem dataItem_before_iff {token : Token} {order : ByteOrder} {width : Nat}
    (emitted : Succeeds (dataItem ⟨.emit, later, cursor⟩ order width token)) :
    Succeeds (dataItem ⟨.reserve, labels, cursor⟩ order width token) ↔
      ∀ word ∈ token.word?, ¬ ReadTooEarly labels later word (.ofBytes width) := by
  cases token with
  | quoted text => exact iff_of_true emitted (by simp [Token.word?])
  | word text =>
      unfold dataItem at emitted ⊢
      dsimp only at emitted ⊢
      rw [succeeds_bind_pure] at emitted ⊢
      exact number_before_iff wellFormed grows emitted
  | _ => exact absurd emitted (not_succeeds_reject _)

end Grows

end Scope

/-! ## Arguments -/

section Arguments

variable {arch : Architecture} {instruction : Instruction}

/-- The bounds of the number of an operand. -/
def operandBounds (arch : Architecture) (kind : AddressingMode.Kind) : Bounds :=
  match arch.model, kind with
  | _, .immediate => .ofBytes (arch.operandBytes kind)
  | .word, .direct => .ofMemory arch
  | .word, _ => .ofBytes 2
  | _, _ => .ofMemory arch

/-- Whether the value of an operand is looked at: on a word machine, if it has a word. -/
def readsOperand (arch : Architecture) (kind : AddressingMode.Kind) : Prop :=
  arch.model = .word → arch.operandBytes kind = 2

instance (arch : Architecture) (kind : AddressingMode.Kind) :
    Decidable (readsOperand arch kind) :=
  inferInstanceAs (Decidable (_ → _))

/-- A word of an argument that has to stand for a number, with the bounds of this number. -/
def Argument.bounded? (arch : Architecture) : Argument → Option (String × Bounds)
  | .operand addressed =>
      if readsOperand arch addressed.mode.kind then
        (addressed.value.bind Token.word?).map (·, operandBounds arch addressed.mode.kind)
      else none
  | .offset text => some (text, .ofBytes 1)
  | _ => none

/-- The value of an operand, on a machine of either kind. -/
def valueOf (scope : Scope) (arch : Architecture) (operand : Operand) : Outcome Int :=
  match arch.model with
  | .word => WordParts.operandValue scope arch operand
  | .standard | .stack => ByteParts.operandValue scope arch operand

theorem valueOf_of_byte (byteMachine : arch.model ≠ .word) (scope : Scope) (operand : Operand) :
    valueOf scope arch operand = ByteParts.operandValue scope arch operand := by
  unfold valueOf
  split
  · contradiction
  · rfl
  · rfl

theorem valueOf_of_word (wordMachine : arch.model = .word) (scope : Scope) (operand : Operand) :
    valueOf scope arch operand = WordParts.operandValue scope arch operand := by
  unfold valueOf
  rw [wordMachine]

/-- An argument can be added to the bytes of an instruction. -/
def Argument.Adds (scope : Scope) (arch : Architecture) (instruction : Instruction) :
    Argument → Prop
  | .register _ => True
  | .operand addressed =>
      readsOperand arch addressed.mode.kind → Succeeds (valueOf scope arch addressed)
  | .offset text => arch.model = .word ∧ Succeeds (scope.offset instruction text)
  | .flags letters => arch.model = .word ∧ Succeeds (WordParts.flagBits letters)

theorem succeeds_addArgument_of_byte (byteMachine : arch.model ≠ .word) {scope : Scope}
    (parts : ByteParts) (argument : Argument) :
    Succeeds (ByteParts.addArgument scope arch parts argument) ↔
      argument.Adds scope arch instruction := by
  cases argument with
  | register register => exact iff_of_true (succeeds_ok _) trivial
  | operand operand =>
      simp only [ByteParts.addArgument, Argument.Adds, readsOperand, byteMachine,
        valueOf_of_byte byteMachine, succeeds_bind_pure, false_implies, true_implies]
  | offset text => exact iff_of_false (not_succeeds_reject _) fun adds => byteMachine adds.1
  | flags letters => exact iff_of_false (not_succeeds_reject _) fun adds => byteMachine adds.1

theorem succeeds_addArgument_of_word (wordMachine : arch.model = .word) {scope : Scope}
    (parts : WordParts) (pair : Parameter × Argument) :
    Succeeds (WordParts.addArgument scope arch instruction parts pair) ↔
      pair.2.Adds scope arch instruction := by
  obtain ⟨parameter, argument⟩ := pair
  cases argument with
  | register register => exact iff_of_true (succeeds_ok _) trivial
  | operand operand =>
      by_cases wide : arch.operandBytes operand.mode.kind = 2
      · simp only [WordParts.addArgument, Argument.Adds, readsOperand,
          valueOf_of_word wordMachine, wordMachine, wide, succeeds_bind_pure, if_true,
          true_implies]
      · simp only [WordParts.addArgument, Argument.Adds, readsOperand, wordMachine, wide, if_false,
          true_implies, false_implies, iff_true]
        exact succeeds_ok _
  | offset text =>
      simp only [WordParts.addArgument, Argument.Adds, wordMachine, succeeds_bind_pure, true_and]
  | flags letters =>
      simp only [WordParts.addArgument, Argument.Adds, wordMachine, succeeds_bind_pure, true_and]

/-- An instruction can be encoded if each of its arguments can be added. -/
theorem succeeds_encode {scope : Scope} {arguments : List Argument}
    (length : instruction.parameters.length = arguments.length) :
    Succeeds (encode scope arch instruction arguments) ↔
      ∀ argument ∈ arguments, argument.Adds scope arch instruction := by
  by_cases wordMachine : arch.model = .word
  · rw [encode_of_word wordMachine, encodeWord]
    simp only [succeeds_bind_pure]
    rw [succeeds_foldlM (succeeds_addArgument_of_word wordMachine)]
    have seconds : (instruction.parameters.zip arguments).map Prod.snd = arguments :=
      List.map_snd_zip (Nat.le_of_eq length.symm)
    constructor
    · intro each argument member
      rw [← seconds] at member
      obtain ⟨pair, among, rfl⟩ := List.mem_map.mp member
      exact each pair among
    · intro each pair among
      exact each pair.2 (List.of_mem_zip among).2
  · rw [encode_of_byte wordMachine, encodeBytes]
    simp only [succeeds_bind_pure]
    exact succeeds_foldlM (succeeds_addArgument_of_byte wordMachine) _ _

variable {labels later : LabelTable} (wellFormed : labels.WellFormed)
  (grows : labels.GrowsTo later) {cursor : Nat}
include wellFormed grows

theorem valueOf_before_iff {operand : Operand} (reads : readsOperand arch operand.mode.kind)
    (emitted : Succeeds (valueOf ⟨.emit, later, cursor⟩ arch operand)) :
    Succeeds (valueOf ⟨.reserve, labels, cursor⟩ arch operand) ↔
      ∀ word ∈ operand.value.bind Token.word?,
        ¬ ReadTooEarly labels later word (operandBounds arch operand.mode.kind) := by
  unfold valueOf at emitted ⊢
  unfold operandBounds
  cases value : operand.value with
  | none =>
      refine iff_of_true ?_ (by simp)
      cases model : arch.model <;>
        simp [WordParts.operandValue, ByteParts.operandValue, value, succeeds_ok]
  | some token =>
      rw [Option.bind_some]
      cases model : arch.model with
      | word =>
          have wide := reads model
          simp only [model, WordParts.operandValue, value] at emitted ⊢
          cases kind : operand.mode.kind with
          | immediate =>
              simp only [kind] at emitted wide ⊢
              rw [wide]
              exact Scope.immediate_before_iff wellFormed grows emitted
          | direct =>
              simp only [kind, succeeds_map, succeeds_bind_pure] at emitted ⊢
              exact Scope.address_before_iff wellFormed grows emitted
          | _ =>
              simp only [kind] at emitted ⊢
              exact Scope.number_before_iff wellFormed grows emitted
      | standard | stack =>
          simp only [model, ByteParts.operandValue, value] at emitted ⊢
          by_cases kind : operand.mode.kind = .immediate
          · simp only [kind, if_true] at emitted ⊢
            exact Scope.immediate_before_iff wellFormed grows emitted
          · simp only [kind, if_false, succeeds_map, succeeds_bind_pure] at emitted ⊢
            exact Scope.address_before_iff wellFormed grows emitted

/-- An argument that can be added in the end can be added before, unless it is read too early. -/
theorem Argument.adds_before_iff {argument : Argument}
    (emitted : argument.Adds ⟨.emit, later, cursor⟩ arch instruction) :
    argument.Adds ⟨.reserve, labels, cursor⟩ arch instruction ↔
      ∀ place ∈ argument.bounded? arch, ¬ ReadTooEarly labels later place.1 place.2 := by
  cases argument with
  | register register => exact iff_of_true trivial (by simp [bounded?])
  | flags letters => exact iff_of_true emitted (by simp [bounded?])
  | offset text =>
      have accepted := Scope.succeeds_offset.mp emitted.2
      rw [Adds, Scope.succeeds_offset, Scope.accepts_before_iff wellFormed grows
        (Scope.branches_literal cursor instruction) accepted]
      simp [bounded?, emitted.1]
  | operand addressed =>
      by_cases reads : readsOperand arch addressed.mode.kind
      · have value := valueOf_before_iff wellFormed grows reads (emitted reads)
        simp only [Adds, reads, true_implies, value, bounded?, if_true]
        cases addressed.value.bind Token.word? <;> simp
      · exact iff_of_true (fun read => absurd read reads) (by simp [bounded?, reads])

end Arguments

/-! ## Statements -/

theorem succeeds_dataBytes {scope : Scope} {order : ByteOrder} {width : Nat}
    {tokens : List Token} :
    Succeeds (dataBytes scope order width tokens) ↔
      ∀ token ∈ tokens, Succeeds (dataItem scope order width token) := by
  induction tokens with
  | nil => exact iff_of_true (succeeds_ok []) (by simp)
  | cons token tokens induction =>
      rw [List.forall_mem_cons, ← induction, dataBytes]
      cases dataItem scope order width token with
      | error failure => simp [Succeeds, Bind.bind, Except.bind]
      | ok first =>
          change Succeeds (do
            let others ← dataBytes scope order width tokens
            pure (first ++ others)) ↔ _
          rw [succeeds_bind_pure]
          exact (and_iff_right (succeeds_ok first)).symm

/-- The words of a statement that have to stand for numbers, with the bounds of these numbers. -/
def boundedWords (arch : Architecture) (statement : String) : List (String × Bounds) :=
  match writtenInstruction? arch statement, Token.lex statement.toList with
  | some (_, arguments), _ => arguments.filterMap (Argument.bounded? arch)
  | none, .ok (.word mnemonic :: arguments) =>
      match Directive.ofMnemonic? mnemonic with
      | some directive =>
          ((arguments.filter fun token => token ≠ .comma).filterMap Token.word?).map
            (·, .ofBytes directive.width)
      | none => []
  | none, _ => []

section Statements

variable {arch : Architecture} {labels later : LabelTable} (wellFormed : labels.WellFormed)
  (grows : labels.GrowsTo later) {cursor : Nat}
include wellFormed grows

theorem encode_before_iff {instruction : Instruction} {arguments : List Argument}
    (length : instruction.parameters.length = arguments.length)
    (emitted : Succeeds (encode ⟨.emit, later, cursor⟩ arch instruction arguments)) :
    Succeeds (encode ⟨.reserve, labels, cursor⟩ arch instruction arguments) ↔
      ∀ place ∈ arguments.filterMap (Argument.bounded? arch),
        ¬ ReadTooEarly labels later place.1 place.2 := by
  rw [succeeds_encode length] at emitted ⊢
  constructor
  · intro each place member
    obtain ⟨argument, among, here⟩ := List.mem_filterMap.mp member
    exact (Argument.adds_before_iff wellFormed grows (emitted argument among)).mp
      (each argument among) place here
  · intro timely argument among
    apply (Argument.adds_before_iff wellFormed grows (emitted argument among)).mpr
    exact fun place here => timely place (List.mem_filterMap.mpr ⟨argument, among, here⟩)

theorem dataBytes_before_iff {order : ByteOrder} {width : Nat} {tokens : List Token}
    (emitted : Succeeds (dataBytes ⟨.emit, later, cursor⟩ order width tokens)) :
    Succeeds (dataBytes ⟨.reserve, labels, cursor⟩ order width tokens) ↔
      ∀ word ∈ tokens.filterMap Token.word?,
        ¬ ReadTooEarly labels later word (.ofBytes width) := by
  rw [succeeds_dataBytes] at emitted ⊢
  constructor
  · intro each word member
    obtain ⟨token, among, here⟩ := List.mem_filterMap.mp member
    exact (Scope.dataItem_before_iff wellFormed grows (emitted token among)).mp
      (each token among) word here
  · intro timely token among
    apply (Scope.dataItem_before_iff wellFormed grows (emitted token among)).mpr
    exact fun word here => timely word (List.mem_filterMap.mpr ⟨token, among, here⟩)

/--
While memory is reserved, a statement that does not place and that can be emitted
is rejected just if one of its words is read too early.
-/
theorem reserves_iff_not_readTooEarly {statement : String}
    (placeless : Placement.ofStatement? statement = none)
    (emitted : Succeeds (statementEffect ⟨.emit, later, cursor⟩ arch statement)) :
    Succeeds (statementEffect ⟨.reserve, labels, cursor⟩ arch statement) ↔
      ∀ place ∈ boundedWords arch statement, ¬ ReadTooEarly labels later place.1 place.2 := by
  obtain ⟨effect, given⟩ := emitted
  rcases written_or_directive given with
    ⟨instruction, arguments, written⟩ | ⟨mnemonic, arguments, directive, tokens, found⟩
  · have emitted : Succeeds (statementEffect ⟨.emit, later, cursor⟩ arch statement) := ⟨_, given⟩
    obtain ⟨_, _, _, _, _, parsed⟩ := writtenInstruction?_eq_some.mp written
    rw [statementEffect_of_written written, succeeds_map] at emitted ⊢
    rw [boundedWords, written]
    exact encode_before_iff wellFormed grows (parseArguments_fits parsed).length_eq emitted
  · have unwritten : writtenInstruction? arch statement = none := by
      simp [writtenInstruction?, tokens, found]
    simp only [Placement.ofStatement?, tokens, found] at placeless
    simp only [statementEffect, boundedWords, unwritten, tokens, mnemonicEffect, found,
      List.forall_mem_map] at given ⊢
    rcases directiveEffect_cases arch placeless with
      ⟨problem, always⟩ | ⟨nothing, always⟩ | ⟨-, always⟩
    · rw [always] at given
      exact absurd given reject_ne_ok
    · rw [always, nothing]
      exact iff_of_true (succeeds_ok _) (by simp)
    · rw [always] at given ⊢
      rw [succeeds_map]
      exact dataBytes_before_iff wellFormed grows (succeeds_map.mp ⟨effect, given⟩)

end Statements

/--
Where memory is large enough for the number that `habc` writes, nothing is wrong
with a reference to the label of this name that comes further down.
-/
theorem reserves_iff_not_readTooEarly_pericles :
    let later : LabelTable := [("HABC", 3)]
    Placement.ofStatement? "jmp habc" = none ∧ LabelTable.WellFormed [] ∧
      LabelTable.GrowsTo [] later ∧
        Succeeds (statementEffect ⟨.emit, later, 0⟩ Catalog.pericles "jmp habc") ∧
          boundedWords Catalog.pericles "jmp habc" = [("habc", ⟨-4096, 4095⟩)] ∧
            Succeeds (statementEffect ⟨.reserve, [], 0⟩ Catalog.pericles "jmp habc") := by
  intro later
  have placeless : Placement.ofStatement? "jmp habc" = none := by decide +kernel
  have wellFormed : LabelTable.WellFormed [] := fun _ member => absurd member (by simp)
  have grows : LabelTable.GrowsTo [] later := fun _ _ found => by simp [LabelTable.find?] at found
  have emitted : Succeeds (statementEffect ⟨.emit, later, 0⟩ Catalog.pericles "jmp habc") := by
    decide +kernel
  have words : boundedWords Catalog.pericles "jmp habc" = [("habc", ⟨-4096, 4095⟩)] := by
    decide +kernel
  have timely : ¬ ReadTooEarly [] later "habc" ⟨-4096, 4095⟩ := by
    rintro ⟨⟨value, read, outside⟩, -⟩
    have number : literal? "habc".toList = some 0xABC := by decide +kernel
    rw [← Option.some.inj (number.symm.trans read)] at outside
    revert outside
    decide
  refine ⟨placeless, wellFormed, grows, emitted, words, ?_⟩
  rw [reserves_iff_not_readTooEarly wellFormed grows placeless emitted, words]
  simpa using timely

/--
A reference to a label further down can be an error by itself: on a machine of
256 cells the label `habc` is taken for an address outside memory first.
-/
theorem not_reserves_of_hexadecimal_label :
    ¬ ∀ arch ∈ Catalog.machines, ∀ statement, Placement.ofStatement? statement = none →
      ∀ labels later : LabelTable, labels.WellFormed → later.WellFormed → labels.GrowsTo later →
        ∀ cursor, Succeeds (statementEffect ⟨.emit, later, cursor⟩ arch statement) →
          Succeeds (statementEffect ⟨.reserve, labels, cursor⟩ arch statement) := by
  intro claim
  have rejected := claim Catalog.neander (by simp [Catalog.machines]) "jmp habc" (by decide +kernel)
    [] [("HABC", 2)] (fun _ member => absurd member (by simp)) (by unfold LabelTable.WellFormed; decide)
    (fun _ _ found => by simp [LabelTable.find?] at found) 0 (by decide +kernel)
  revert rejected
  decide +kernel

end ClassroomCpu.Assembly
