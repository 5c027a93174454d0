import ClassroomCpu.Assembly.Statement
import ClassroomCpu.Proofs.Assembly.CheckedWord
import ClassroomCpu.Proofs.Machine.Masking

/-!
# Statements interpreted with checks

Values, sizes and distances are worked out in words of 64 bits, numbers are
shifted for their bytes, and addresses are masked.  Here every number is
checked to fit and every shift to be shorter than a word.  On a small machine
no check traps, and the effect of the statement is the right one.
-/

namespace ClassroomCpu.Assembly.Checked

open Text

/-! ## Outcomes -/

/-- A result, why there is none, or a check that traps. -/
abbrev CheckedOutcome := ExceptT Failure Checked

/-- An outcome that no check traps. -/
def settled {α : Type} (outcome : Outcome α) : CheckedOutcome α :=
  ExceptT.mk (.ok outcome)

@[simp] theorem settled_ok {α : Type} (value : α) :
    settled (.ok value) = (pure value : CheckedOutcome α) := rfl

theorem settled_bind {α β : Type} (first : Outcome α) (next : α → Outcome β) :
    settled (first >>= next) = settled first >>= fun value => settled (next value) := by
  cases first <;> rfl

@[simp] theorem lift_ok {α : Type} (value : α) :
    (liftM (.ok value : Checked α) : CheckedOutcome α) = pure value := rfl

/-! ## Directives -/

/-- What a statement does, with an address that may be any number. -/
inductive PlainEffect
  /-- The next byte is put at an address. -/
  | origin (address : Nat)
  /-- Bytes are put one behind the other. -/
  | data (bytes : List UInt8)
  deriving DecidableEq, Repr

/-- The effect with its address as a number. -/
def plain {arch : Architecture} : Effect arch → PlainEffect
  | .origin address => .origin address
  | .data bytes => .data bytes

/-- The low bits of an address. -/
def mask (arch : Architecture) (address : Int) : Nat :=
  (BitVec.ofInt 64 address &&& BitVec.ofNat 64 (arch.memorySize - 1)).toNat

/-- The numbers that fit into some bytes; the bits are counted and shifted in words. -/
def byteBounds (width : Nat) : Checked Bounds := do
  let bits ← unsigned (8 * (width : Int) - 1)
  let low ← signed (-powerOfTwo bits)
  let high ← signed (powerOfTwo (bits + 1))
  return ⟨low, high - 1⟩

/-- The bytes of a number, which is shifted by less than the bits of a word. -/
def encode (order : ByteOrder) (width : Nat) (value : Int) : Checked (List UInt8) :=
  if width ≤ 8 then .ok (order.encode width value) else .error (.overflow (8 * width))

/-- The number that a word stands for, within bounds. -/
def number (scope : Scope) (bounds : Bounds) (problem : String → Problem) :
    Token → CheckedOutcome Int
  | .word text => do
      let resolved ← liftM (resolve? scope.labels text)
      match resolved, scope.pass with
      | some resolved, _ =>
          if bounds.holds resolved.value then return resolved.value
          else settled (reject (problem text))
      | none, .reserve => return 0
      | none, .emit => settled (reject (problem text))
  | token => settled (reject (.invalidArgument token.text))

/-- The bytes of a value or of a text in a data directive. -/
def dataItem (scope : Scope) (order : ByteOrder) (width : Nat) :
    Token → CheckedOutcome (List UInt8)
  | .quoted text =>
      let content := Token.unquote text.toList
      if content.isEmpty || content.any fun c => 128 ≤ c.toNat then
        settled (reject (.invalidString text))
      else do
        let bytes ← liftM (content.mapM fun c => encode order width c.toNat)
        return bytes.flatten
  | .word text => do
      let bounds ← liftM (byteBounds width)
      let value ← number scope bounds .invalidValue (.word text)
      liftM (encode order width value)
  | token => settled (reject (.invalidArgument token.text))

/-- The bytes of the values and texts of a data directive. -/
def dataBytes (scope : Scope) (order : ByteOrder) (width : Nat) :
    List Token → CheckedOutcome (List UInt8)
  | [] => return []
  | token :: tokens => do
      let first ← dataItem scope order width token
      let others ← dataBytes scope order width tokens
      return first ++ others

/-- The address at which `org` goes on. -/
def originAddress (scope : Scope) (arch : Architecture) (text : String) :
    CheckedOutcome PlainEffect := do
  let resolved ← liftM (resolve? scope.labels text)
  match resolved with
  | some resolved =>
      if (Bounds.ofMemory arch).holds resolved.value then
        return .origin (mask arch resolved.value)
      else settled (reject (.invalidAddress text))
  | none => settled (reject (.invalidAddress text))

/-- The zeros that a data directive with a number in brackets gives; their size is a word. -/
def allocation (scope : Scope) (arch : Architecture) (width : Nat) (count : Token) :
    CheckedOutcome PlainEffect :=
  let problem := Problem.invalidValue count.text
  match count with
  | .word text => do
      let resolved ← liftM (resolve? scope.labels text)
      match resolved with
      | some resolved =>
          if resolved.value < 0 then settled (reject problem)
          else do
            let size ← liftM (unsigned (resolved.value.toNat * width : Nat))
            if arch.memorySize < size then settled (reject problem)
            else return .data (List.replicate size 0)
      | none => settled (reject problem)
  | _ => settled (reject problem)

/-- The effect of a directive. -/
def directiveEffect (scope : Scope) (arch : Architecture) (directive : Directive)
    (arguments : List Token) : CheckedOutcome PlainEffect :=
  let width := directive.width
  let data (tokens : List Token) : CheckedOutcome PlainEffect := do
    let bytes ← dataBytes scope arch.byteOrder width tokens
    return .data bytes
  match directive, arguments.filter fun token => token ≠ .comma with
  | .org, [.word text] => originAddress scope arch text
  | .org, [token] => settled (reject (.invalidArgument token.text))
  | .org, _ => settled (reject directive.wrongNumber)
  | .db, [] | .dw, [] => return .data (List.replicate width 0)
  | .db, [token] | .dw, [token] => data [token]
  | .db, _ | .dw, _ => settled (reject directive.wrongNumber)
  | .dab, [] | .daw, [] => settled (reject directive.wrongNumber)
  | .dab, [.openBracket, count, .closeBracket]
  | .daw, [.openBracket, count, .closeBracket] => allocation scope arch width count
  | .dab, tokens | .daw, tokens => data tokens

/-- Memory has at most as many cells as there are words of two bytes, and operands are short. -/
structure Compact (arch : Architecture) : Prop where
  memory : arch.memorySize ≤ 65536
  immediate : 0 < arch.operandBytes .immediate
  operands : ∀ kind, arch.operandBytes kind ≤ 2

theorem mask_eq {arch : Architecture} (compact : Compact arch) (address : Int) :
    mask arch address = arch.wrap address := by
  apply arch.maskedWord_eq_wrap
  have small := compact.memory
  have bits : arch.memorySize.log2 < 64 :=
    (Nat.log2_lt (Nat.ne_of_gt arch.memorySize_pos)).mpr (by omega)
  omega

theorem byteBounds_eq {width : Nat} (positive : 0 < width) (short : width ≤ 2) :
    byteBounds width = .ok (.ofBytes width) := by
  have either : width = 1 ∨ width = 2 := by omega
  rcases either with rfl | rfl <;> decide

theorem encode_eq {order : ByteOrder} {width : Nat} (short : width ≤ 2) (value : Int) :
    encode order width value = .ok (order.encode width value) :=
  if_pos (by omega)

/-- The labels that are known and the address of a statement are in a small memory. -/
structure Inside (scope : Scope) (arch : Architecture) : Prop where
  compact : Compact arch
  labels : Below scope.labels arch.memorySize
  cursor : scope.cursor < arch.memorySize

section Directives

variable {scope : Scope} {arch : Architecture} (inside : Inside scope arch)
include inside

theorem resolve?_eq_of_inside {word : String} (modest : Modest (.word word)) :
    resolve? scope.labels word = .ok (Assembly.resolve? scope.labels word) := by
  apply resolve?_eq modest inside.labels
  have most := inside.compact.memory
  rw [literalLimit_eq]
  omega

theorem natAbs_resolve?_le_of_inside {word : String} (modest : Modest (.word word))
    {resolved : Resolved} (found : Assembly.resolve? scope.labels word = some resolved) :
    resolved.value.natAbs ≤ literalLimit + 65536 := by
  have small := natAbs_resolve?_le modest inside.labels found
  have most := inside.compact.memory
  omega

theorem number_eq {bounds : Bounds} {problem : String → Problem} {token : Token}
    (modest : Modest token) :
    number scope bounds problem token = settled (scope.number bounds problem token) := by
  cases token with
  | word text =>
      simp only [number, Scope.number, resolve?_eq_of_inside inside modest, lift_ok, pure_bind]
      cases Assembly.resolve? scope.labels text with
      | some resolved =>
          dsimp only
          split <;> rfl
      | none => cases scope.pass <;> rfl
  | _ => rfl

omit inside in
theorem mapM_encode {order : ByteOrder} {width : Nat} (short : width ≤ 2) (content : List Char) :
    (content.mapM fun c => encode order width c.toNat) =
      .ok (content.map fun c => order.encode width c.toNat) := by
  induction content with
  | nil => rfl
  | cons c content induction =>
      rw [List.mapM_cons, encode_eq short, ok_bind, induction, ok_bind]
      rfl

theorem dataItem_eq {order : ByteOrder} {width : Nat} (positive : 0 < width) (short : width ≤ 2)
    {token : Token} (modest : Modest token) :
    dataItem scope order width token = settled (Assembly.dataItem scope order width token) := by
  cases token with
  | quoted text =>
      simp only [dataItem, Assembly.dataItem]
      split
      · rfl
      · simp only [mapM_encode short, lift_ok, pure_bind, List.flatMap_def]
        rfl
  | word text =>
      simp only [dataItem, Assembly.dataItem, byteBounds_eq positive short, lift_ok, pure_bind,
        number_eq inside modest, settled_bind, encode_eq short]
      rfl
  | _ => rfl

theorem dataBytes_eq {order : ByteOrder} {width : Nat} (positive : 0 < width) (short : width ≤ 2)
    {tokens : List Token} (modest : ∀ token ∈ tokens, Modest token) :
    dataBytes scope order width tokens = settled (Assembly.dataBytes scope order width tokens) := by
  induction tokens with
  | nil => rfl
  | cons token tokens induction =>
      have later := induction fun other member => modest other (by simp [member])
      simp only [dataBytes, Assembly.dataBytes, later, settled_bind,
        dataItem_eq inside positive short (modest token (by simp))]
      rfl

theorem originAddress_eq {text : String} (modest : Modest (.word text)) :
    originAddress scope arch text =
      settled ((Assembly.originAddress scope arch text).map plain) := by
  simp only [originAddress, Assembly.originAddress, resolve?_eq_of_inside inside modest, lift_ok,
    pure_bind, mask_eq inside.compact]
  cases Assembly.resolve? scope.labels text with
  | none => rfl
  | some resolved =>
      simp only [orReject, ok_bind]
      split <;> rfl

theorem allocation_eq {width : Nat} (short : width ≤ 2) {count : Token} (modest : Modest count) :
    allocation scope arch width count =
      settled ((Assembly.allocation scope arch width count).map plain) := by
  cases count with
  | word text =>
      simp only [allocation, Assembly.allocation, resolve?_eq_of_inside inside modest, lift_ok,
        pure_bind]
      cases found : Assembly.resolve? scope.labels text with
      | none => rfl
      | some resolved =>
          have small := natAbs_resolve?_le_of_inside inside modest found
          have product : resolved.value.toNat * width ≤ resolved.value.toNat * 2 :=
            Nat.mul_le_mul_left _ short
          have fits : unsigned (resolved.value.toNat * width : Nat) =
              .ok (resolved.value.toNat * width) := by
            apply unsigned_eq
            rw [literalBound_eq]
            rw [literalLimit_eq] at small
            omega
          simp only [orReject, ok_bind, fits, lift_ok, pure_bind]
          by_cases negative : resolved.value < 0
          · simp only [negative, if_true, decide_true, Bool.true_or]
            rfl
          · simp only [negative, if_false, decide_false, Bool.false_or, decide_eq_true_eq]
            split <;> rfl
  | _ => rfl

theorem directiveEffect_eq {directive : Directive} {arguments : List Token}
    (modest : ∀ token ∈ arguments, Modest token) :
    directiveEffect scope arch directive arguments =
      settled ((Assembly.directiveEffect scope arch directive arguments).map plain) := by
  have modestKept : ∀ token ∈ arguments.filter fun token => token ≠ .comma, Modest token :=
    fun token member => modest token (List.mem_of_mem_filter member)
  have widths : 0 < directive.width ∧ directive.width ≤ 2 := by cases directive <;> decide
  unfold directiveEffect Assembly.directiveEffect
  generalize arguments.filter (fun token => token ≠ .comma) = tokens at *
  dsimp only
  have data : (do
      let bytes ← dataBytes scope arch.byteOrder directive.width tokens
      return PlainEffect.data bytes) =
      settled (((Assembly.dataBytes scope arch.byteOrder directive.width tokens).map
        (@Effect.data arch)).map plain) := by
    rw [dataBytes_eq inside widths.1 widths.2 modestKept]
    cases Assembly.dataBytes scope arch.byteOrder directive.width tokens <;> rfl
  have zeros := fun count member => allocation_eq inside widths.2 (modestKept count member)
  -- One case for each number of arguments; brackets are told from other tokens one by one.
  rcases tokens with _ | ⟨first, _ | ⟨second, _ | ⟨third, _ | ⟨fourth, others⟩⟩⟩⟩
  · cases directive <;> rfl
  · cases directive with
    | org =>
        cases first with
        | word text => exact originAddress_eq inside (modestKept _ (by simp))
        | _ => rfl
    | db | dw => exact data
    | dab | daw => cases first <;> exact data
  · cases directive with
    | org | db | dw => cases first <;> rfl
    | dab | daw => cases first <;> exact data
  · cases directive with
    | org | db | dw => cases first <;> rfl
    | dab | daw =>
        cases first with
        | openBracket =>
            cases third with
            | closeBracket => exact zeros second (by simp)
            | _ => exact data
        | _ => exact data
  · cases directive with
    | org | db | dw => cases first <;> rfl
    | dab | daw =>
        cases first with
        | openBracket => cases third <;> exact data
        | _ => exact data

end Directives

/-! ## Instructions -/

/-- What an instruction may work out with a word: its number, and distances to the next one. -/
def checkWord (scope : Scope) : Token → Checked Unit
  | .word text => do
      let next ← signed (scope.cursor + 2)
      match ← resolve? scope.labels text with
      | some resolved =>
          let _ ← signed (next - resolved.value)
          let _ ← signed (resolved.value - next)
          return ()
      | none => return ()
  | _ => return ()

/-- What an instruction may work out with an addressing mode: bounds, and shifts for bytes. -/
def checkMode (arch : Architecture) (mode : AddressingMode) : Checked Unit := do
  if mode.kind = .immediate then
    let _ ← byteBounds (arch.operandBytes mode.kind)
  let _ ← encode arch.byteOrder (arch.operandBytes mode.kind) 0
  return ()

/-- Checks all elements of a list. -/
def checkAll {α : Type} (check : α → Checked Unit) : List α → Checked Unit
  | [] => .ok ()
  | element :: list => do
      check element
      checkAll check list

/-- The bytes of an instruction with the given arguments. -/
def instructionBytes (scope : Scope) (arch : Architecture) (instruction : Instruction)
    (tokens : List Token) : CheckedOutcome (List UInt8) := do
  let arguments ← settled (parseArguments arch.toDatasheet instruction tokens)
  liftM (checkAll (checkMode arch) arch.addressingModes)
  liftM (checkAll (checkWord scope) tokens)
  settled (Assembly.encode scope arch instruction arguments)

/-- The effect of a statement with the given mnemonic and arguments. -/
def mnemonicEffect (scope : Scope) (arch : Architecture) (mnemonic : String)
    (arguments : List Token) : CheckedOutcome PlainEffect :=
  match Directive.ofMnemonic? mnemonic with
  | some directive => directiveEffect scope arch directive arguments
  | none =>
      match arch.instructionNamed? mnemonic with
      | some instruction => do
          let bytes ← instructionBytes scope arch instruction arguments
          return .data bytes
      | none =>
          settled (reject (.invalidInstruction (Text.uppercase mnemonic)
            (suggestion? arch.toDatasheet mnemonic)))

/-- The effect of a statement. -/
def statementEffect (scope : Scope) (arch : Architecture) (statement : String) :
    CheckedOutcome PlainEffect := do
  let lexed ← liftM (lex statement.toList)
  match lexed with
  | .error rest => settled (reject (lexicalProblem rest))
  | .ok (.word mnemonic :: arguments) => mnemonicEffect scope arch mnemonic arguments
  | .ok _ => settled (reject (.invalidInstruction statement none))

/-- The words of a statement are in ASCII. -/
theorem ascii_of_lex {text : List Char} {tokens : List Token}
    (lexed : Token.lex text = .ok tokens) {word : String} (member : .word word ∈ tokens) :
    ∀ c ∈ word.toList, c.toNat < 128 := by
  fun_induction Token.lex text generalizing tokens with
  | case1 =>
      obtain rfl := Except.ok.inj lexed
      contradiction
  | case2 => contradiction
  | case3 text c rest skipped token after found _ others further induction =>
      obtain rfl := Except.ok.inj lexed
      rcases List.mem_cons.mp member with rfl | later
      · obtain ⟨_, stands⟩ := Token.standsBefore_of_split? found
        cases stands with
        | word characters =>
            intro c inWord
            rcases characters c inWord with wordChar | sign
            · exact isLabelChar_ascii wordChar
            · simp only [isSign, Bool.or_eq_true, beq_iff_eq] at sign
              rcases sign with rfl | rfl <;> decide
        | single known =>
            unfold Token.ofChar? at known
            repeat' split at known
            all_goals simp at known
      · exact induction further later
  | case4 => contradiction

section Statements

variable {scope : Scope} {arch : Architecture} (inside : Inside scope arch)
include inside

theorem checkWord_eq {token : Token} (modest : Modest token) : checkWord scope token = .ok () := by
  cases token with
  | word text =>
      have most := inside.compact.memory
      have start := inside.cursor
      have next : signed ((scope.cursor : Int) + 2) = .ok ((scope.cursor : Int) + 2) :=
        signed_eq (by rw [literalBound_eq]; omega)
      simp only [checkWord, next, resolve?_eq_of_inside inside modest, ok_bind]
      cases found : Assembly.resolve? scope.labels text with
      | none => rfl
      | some resolved =>
          have small := natAbs_resolve?_le_of_inside inside modest found
          rw [literalLimit_eq] at small
          dsimp only
          rw [signed_eq (by rw [literalBound_eq]; omega), ok_bind,
            signed_eq (by rw [literalBound_eq]; omega), ok_bind]
          rfl
  | _ => rfl

omit inside in
theorem checkMode_eq (compact : Compact arch) (mode : AddressingMode) :
    checkMode arch mode = .ok () := by
  unfold checkMode
  rw [encode_eq (compact.operands _)]
  split
  · rename_i immediate
    rw [immediate, byteBounds_eq compact.immediate (compact.operands _)]
    rfl
  · rfl

omit inside in
theorem checkAll_eq {α : Type} {check : α → Checked Unit} {list : List α}
    (each : ∀ element ∈ list, check element = .ok ()) : checkAll check list = .ok () := by
  induction list with
  | nil => rfl
  | cons element list induction =>
      rw [checkAll, each element (by simp), ok_bind]
      exact induction fun other member => each other (by simp [member])

theorem instructionBytes_eq {instruction : Instruction} {tokens : List Token}
    (modest : ∀ token ∈ tokens, Modest token) :
    instructionBytes scope arch instruction tokens =
      settled (do
        let arguments ← parseArguments arch.toDatasheet instruction tokens
        Assembly.encode scope arch instruction arguments) := by
  rw [instructionBytes, checkAll_eq fun mode _ => checkMode_eq inside.compact mode,
    checkAll_eq fun token member => checkWord_eq inside (modest token member), settled_bind]
  rfl

theorem mnemonicEffect_eq {mnemonic : String} {arguments : List Token}
    (modest : ∀ token ∈ arguments, Modest token) :
    mnemonicEffect scope arch mnemonic arguments =
      settled ((Assembly.mnemonicEffect scope arch mnemonic arguments).map plain) := by
  unfold mnemonicEffect Assembly.mnemonicEffect
  cases Directive.ofMnemonic? mnemonic with
  | some directive => exact directiveEffect_eq inside modest
  | none =>
      cases arch.instructionNamed? mnemonic with
      | none => rfl
      | some instruction =>
          dsimp only
          rw [instructionBytes_eq inside modest]
          cases parseArguments arch.toDatasheet instruction arguments with
          | error failure => rfl
          | ok parsed =>
              simp only [ok_bind]
              cases Assembly.encode scope arch instruction parsed <;> rfl

/-- A statement whose literals are not too large has the same effect with checks. -/
theorem statementEffect_eq {statement : String}
    (small : ∀ tokens, Token.lex statement.toList = .ok tokens →
      ∀ token ∈ tokens, ∀ value ∈ token.literals, value.natAbs ≤ literalLimit) :
    statementEffect scope arch statement =
      settled ((Assembly.statementEffect scope arch statement).map plain) := by
  unfold statementEffect Assembly.statementEffect
  rw [lex_eq, lift_ok, pure_bind]
  cases lexed : Token.lex statement.toList with
  | error rest => rfl
  | ok tokens =>
      have modest : ∀ token ∈ tokens, Modest token := by
        intro token member
        refine ⟨?_, small tokens lexed token member⟩
        rintro word rfl
        exact ascii_of_lex lexed member
      cases tokens with
      | nil => rfl
      | cons token arguments =>
          cases token with
          | word mnemonic =>
              exact mnemonicEffect_eq inside fun other member =>
                modest other (List.mem_cons_of_mem _ member)
          | _ => rfl

end Statements

end ClassroomCpu.Assembly.Checked
