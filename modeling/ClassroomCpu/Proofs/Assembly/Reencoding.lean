import ClassroomCpu.Proofs.Assembly.OperandText
import ClassroomCpu.Proofs.Assembly.WordEncoding
import ClassroomCpu.Proofs.ByteOrder

/-!
# Encoding again

An instruction whose arguments are written in another way is encoded into the
same bytes if each argument adds the same to what has been encoded so far.
Numbers stand for themselves wherever a statement stands.
-/

namespace ClassroomCpu

namespace ByteOrder

/-- Only the low bytes of a number matter. -/
theorem encode_emod (order : ByteOrder) (width : Nat) (value : Int) :
    order.encode width (value % 256 ^ width) = order.encode width value := by
  have again := order.encode_decode (order.encode width value)
  rwa [length_encode, decode_encode] at again

theorem encode_congr {order : ByteOrder} {width : Nat} {value other : Int}
    (same : value % 256 ^ width = other % 256 ^ width) :
    order.encode width value = order.encode width other := by
  rw [← encode_emod, same, encode_emod]

end ByteOrder

namespace Assembly

/-! ## Numbers -/

section Numbers

variable {labels : LabelTable} (wellFormed : labels.WellFormed) {number : Int}
  (small : number.natAbs < literalBound) (cursor : Nat)
include wellFormed small

theorem number_signedDecimal {bounds : Bounds} (inside : bounds.holds number = true)
    (problem : String → Problem) :
    Scope.number ⟨.emit, labels, cursor⟩ bounds problem (.word (Text.signedDecimal number)) =
      .ok number := by
  simp only [Scope.number, resolve?_signedDecimal wellFormed small, inside, if_true]

theorem immediate_signedDecimal {width : Nat} (inside : (Bounds.ofBytes width).holds number = true) :
    Scope.immediate ⟨.emit, labels, cursor⟩ width (.word (Text.signedDecimal number)) =
      .ok number :=
  number_signedDecimal wellFormed small cursor inside _

theorem offset_signedDecimal (instruction : Instruction)
    (inside : (Bounds.ofBytes 1).holds number = true) :
    Scope.offset ⟨.emit, labels, cursor⟩ instruction (Text.signedDecimal number) =
      .ok (UInt8.ofInt number) := by
  simp only [Scope.offset, resolve?_signedDecimal wellFormed small, inside, if_true,
    Bool.false_eq_true, if_false]

end Numbers

theorem address_signedDecimal {labels : LabelTable} (wellFormed : labels.WellFormed)
    {arch : Architecture} (bounded : arch.memorySize < literalBound) {address : Nat}
    (inside : address < arch.memorySize) (cursor : Nat) :
    Scope.address ⟨.emit, labels, cursor⟩ arch (.word (Text.signedDecimal address)) =
      .ok address := by
  have small : (address : Int).natAbs < literalBound := by
    rw [Int.natAbs_natCast]
    omega
  have holds : (Bounds.ofMemory arch).holds address = true := by
    rw [Bounds.holds_iff]
    simp only [Bounds.ofMemory]
    omega
  have wrapped : (arch.wrap address : Nat) = address := by
    have remainder := arch.val_wrap address
    rw [Int.emod_eq_of_lt (by omega) (by omega)] at remainder
    exact Int.ofNat_inj.mp remainder
  have given := number_signedDecimal wellFormed small cursor holds .invalidAddress
  exact Outcome.bind_eq_ok.mpr ⟨address, given, by rw [wrapped]; rfl⟩

/-! ## Arguments that add the same -/

/-- Wherever an argument adds something to what is there, the other one adds the same. -/
def AddsTheSame {σ α : Type} (add other : σ → α → Outcome σ) (argument told : α) : Prop :=
  ∀ parts result, add parts argument = .ok result → other parts told = .ok result

theorem foldlM_of_addsTheSame {σ α : Type} {add other : σ → α → Outcome σ} {list told : List α}
    (same : List.Forall₂ (AddsTheSame add other) list told) {start result : σ}
    (folded : list.foldlM add start = .ok result) : told.foldlM other start = .ok result := by
  induction same generalizing start with
  | nil => exact folded
  | cons here _ induction =>
      obtain ⟨middle, first, rest⟩ := Outcome.bind_eq_ok.mp folded
      exact Outcome.bind_eq_ok.mpr ⟨middle, here start middle first, induction rest⟩

variable {scope later : Scope} {arch : Architecture} {instruction : Instruction}
  {arguments told : List Argument} {bytes : List UInt8}

theorem encodeBytes_of_addsTheSame
    (same : List.Forall₂
      (AddsTheSame (ByteParts.addArgument scope arch) (ByteParts.addArgument later arch))
      arguments told)
    (encoded : encodeBytes scope arch instruction arguments = .ok bytes) :
    encodeBytes later arch instruction told = .ok bytes := by
  obtain ⟨parts, added, fitted⟩ := Outcome.bind_eq_ok.mp encoded
  exact Outcome.bind_eq_ok.mpr ⟨parts, foldlM_of_addsTheSame same added, fitted⟩

/-- Under each parameter of a word machine an argument adds what the other one adds. -/
def WordAlike (scope later : Scope) (arch : Architecture) (instruction : Instruction)
    (argument told : Argument) : Prop :=
  ∀ parameter parts result,
    WordParts.addArgument scope arch instruction parts (parameter, argument) = .ok result →
      WordParts.addArgument later arch instruction parts (parameter, told) = .ok result

theorem forall₂_zip (parameters : List Parameter)
    (same : List.Forall₂ (WordAlike scope later arch instruction) arguments told) :
    List.Forall₂ (AddsTheSame (WordParts.addArgument scope arch instruction)
        (WordParts.addArgument later arch instruction))
      (parameters.zip arguments) (parameters.zip told) := by
  induction same generalizing parameters with
  | nil => simp
  | cons alike _ induction =>
      cases parameters with
      | nil => exact .nil
      | cons parameter parameters => exact .cons (alike parameter) (induction parameters)

theorem encodeWord_of_alike
    (same : List.Forall₂ (WordAlike scope later arch instruction) arguments told)
    (encoded : encodeWord scope arch instruction arguments = .ok bytes) :
    encodeWord later arch instruction told = .ok bytes := by
  obtain ⟨parts, added, shaped⟩ := Outcome.bind_eq_ok.mp encoded
  exact Outcome.bind_eq_ok.mpr
    ⟨parts, foldlM_of_addsTheSame (forall₂_zip _ same) added, shaped⟩

/-- An operand with a word adds its bits and the word. -/
theorem addArgument_of_operandWord {parts : WordParts} {parameter : Parameter} {operand : Operand}
    {word : List UInt8} (given : operandWord scope arch operand = .ok word) :
    WordParts.addArgument scope arch instruction parts (parameter, .operand operand) =
      .ok ⟨parts.word ||| (WordParts.operandBits operand *
        if parameter = .operand "a0" then 64 else 1), parts.operands ++ word⟩ := by
  simp only [WordParts.addArgument]
  unfold operandWord at given
  split at given
  · rename_i wide
    obtain ⟨value, valued, rfl⟩ := Outcome.map_eq_ok.mp given
    rw [if_pos wide]
    exact Outcome.bind_eq_ok.mpr ⟨value, valued, rfl⟩
  · rename_i narrow
    rw [if_neg narrow, ← Except.ok.inj given, List.append_nil]

theorem exists_foldlM_of_narrow {pairs : List (Parameter × Argument)}
    (narrow : ∀ pair ∈ pairs, ∃ operand, pair.2 = .operand operand ∧
      arch.operandBytes operand.mode.kind ≠ 2) (parts : WordParts) :
    ∃ word, ∀ scope, pairs.foldlM (WordParts.addArgument scope arch instruction) parts =
      .ok ⟨word, parts.operands⟩ := by
  induction pairs generalizing parts with
  | nil => exact ⟨parts.word, fun _ => rfl⟩
  | cons pair pairs induction =>
      obtain ⟨parameter, argument⟩ := pair
      obtain ⟨⟨operand, rfl, noWord⟩, others⟩ := List.forall_mem_cons.mp narrow
      let next : WordParts := ⟨parts.word ||| (WordParts.operandBits operand *
        if parameter = .operand "a0" then 64 else 1), parts.operands⟩
      obtain ⟨word, added⟩ := induction others next
      refine ⟨word, fun scope => Outcome.bind_eq_ok.mpr ⟨next, ?_, added scope⟩⟩
      have nothing : operandWord scope arch operand = .ok [] := if_neg noWord
      rw [addArgument_of_operandWord nothing, List.append_nil]

/-- Operands without words are encoded alike at every place, in two bytes. -/
theorem exists_encodeWord_of_narrow (double : instruction.size ≠ 1)
    (narrow : ∀ argument ∈ arguments, ∃ operand, argument = .operand operand ∧
      arch.operandBytes operand.mode.kind ≠ 2) :
    ∃ bytes, bytes.length = 2 ∧
      ∀ scope, encodeWord scope arch instruction arguments = .ok bytes := by
  have each : ∀ pair ∈ instruction.parameters.zip arguments, ∃ operand,
      pair.2 = .operand operand ∧ arch.operandBytes operand.mode.kind ≠ 2 :=
    fun pair member => narrow pair.2 (List.of_mem_zip member).2
  obtain ⟨word, added⟩ : ∃ word, ∀ scope, (instruction.parameters.zip arguments).foldlM
      (WordParts.addArgument scope arch instruction) ⟨instruction.opcode.toNat * 256, []⟩ =
        .ok ⟨word, []⟩ :=
    exists_foldlM_of_narrow each _
  refine ⟨[UInt8.ofNat (word / 256), UInt8.ofNat word], rfl, fun scope => ?_⟩
  exact Outcome.bind_eq_ok.mpr ⟨_, added scope, congrArg Except.ok (if_neg double)⟩

/-! ## Operands with numbers -/

namespace Operand

variable {sheet : Datasheet} {operand : Operand}

/-- An operand with a number as its value, if it has a value. -/
def withNumber (operand : Operand) (number : Int) : Operand :=
  { operand with value := operand.value.map fun _ => .word (Text.signedDecimal number) }

@[simp] theorem mode_withNumber (operand : Operand) (number : Int) :
    (operand.withNumber number).mode = operand.mode := rfl

@[simp] theorem register_withNumber (operand : Operand) (number : Int) :
    (operand.withNumber number).register = operand.register := rfl

theorem withNumber_of_none (noValue : operand.value = none) (number : Int) :
    operand.withNumber number = operand := by
  obtain ⟨⟨value, register⟩, mode⟩ := operand
  simp only at noValue
  simp [withNumber, noValue]

theorem withNumber_of_some {number : Int}
    (named : operand.value = some (.word (Text.signedDecimal number))) :
    operand.withNumber number = operand := by
  obtain ⟨⟨value, register⟩, mode⟩ := operand
  simp only at named
  simp [withNumber, named]

theorem fits_withNumber (fits : operand.Fits sheet) (number : Int) :
    (operand.withNumber number).Fits sheet := by
  obtain ⟨known, items, lexed, parts⟩ := fits
  refine ⟨known, items, lexed, ?_, parts.hasRegister, ?_, parts.register⟩
  · simpa [withNumber] using parts.hasValue
  · intro token given
    obtain ⟨_, _, rfl⟩ := Option.map_eq_some_iff.mp given
    trivial

theorem isNumbered_withNumber (operand : Operand) (number : Int) :
    (operand.withNumber number).IsNumbered := by
  intro token given
  obtain ⟨_, _, rfl⟩ := Option.map_eq_some_iff.mp given
  exact ⟨number, rfl⟩

end Operand

end Assembly

end ClassroomCpu
