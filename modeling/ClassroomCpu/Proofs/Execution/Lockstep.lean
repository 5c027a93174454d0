import ClassroomCpu.Proofs.Execution.Fetch
import ClassroomCpu.Proofs.Machine.Agreement
import ClassroomCpu.Session

/-!
# Machines in lockstep

An accumulator machine that has every instruction of another one, and perhaps
more, goes through the same states as long as the other one meets opcodes which
mean the same to both.  The instructions may be changed by the program itself:
what counts is the opcode that is fetched.
-/

namespace ClassroomCpu

variable {arch other : Architecture}

/-- Operations that look at no other condition codes than those for sign and zero. -/
def Operation.isPlain : Operation → Bool
  | .nop | .store | .load | .add | .or | .and | .not | .halt => true
  | .jump .always | .jump .negative | .jump .zero => true
  | _ => false

/-- The opcode means the same plain instruction to both architectures. -/
structure Architecture.Shares (other arch : Architecture) (opcode : UInt8)
    (instruction counterpart : Instruction) : Prop where
  known : arch.instruction? opcode = some instruction
  knownOther : other.instruction? opcode = some counterpart
  operation : counterpart.operation = instruction.operation
  size : counterpart.size = instruction.size
  format : counterpart.format = instruction.format
  plain : instruction.operation.isPlain = true

namespace Exec

variable {α β γ δ : Type}

/-- From machines that agree both computations end at machines that agree, with related results. -/
def Coupled (related : α → β → Prop) (first : Exec arch α) (second : Exec other β) : Prop :=
  ∀ (machine : Machine arch) (counterpart : Machine other), machine.Agrees counterpart →
    ∃ result after counterresult counterafter, first machine = .ok result after ∧
      second counterpart = .ok counterresult counterafter ∧ after.Agrees counterafter ∧
        related result counterresult

namespace Coupled

theorem of_pure {related : α → β → Prop} {result : α} {counterresult : β}
    (same : related result counterresult) :
    Coupled related (pure result : Exec arch α) (pure counterresult : Exec other β) :=
  fun _ _ agrees => ⟨_, _, _, _, rfl, rfl, agrees, same⟩

theorem of_modify {change : Machine arch → Machine arch}
    {counterchange : Machine other → Machine other}
    (keeps : ∀ machine counterpart, machine.Agrees counterpart →
      (change machine).Agrees (counterchange counterpart)) :
    Coupled Eq (modify change : Exec arch PUnit) (modify counterchange : Exec other PUnit) :=
  fun machine counterpart agrees => ⟨_, _, _, _, rfl, rfl, keeps machine counterpart agrees, rfl⟩

theorem bind {related : α → β → Prop} {later : γ → δ → Prop} {first : Exec arch α}
    {second : Exec other β} {next : α → Exec arch γ} {counternext : β → Exec other δ}
    (coupled : Coupled related first second)
    (further : ∀ result counterresult, related result counterresult →
      Coupled later (next result) (counternext counterresult)) :
    Coupled later (first >>= next) (second >>= counternext) := by
  intro machine counterpart agrees
  obtain ⟨result, between, counterresult, counterbetween, ends, counterends, agreesBetween, same⟩ :=
    coupled machine counterpart agrees
  rw [bind_of_ok ends, bind_of_ok counterends]
  exact further result counterresult same between counterbetween agreesBetween

/-- Computations with the same results go on alike. -/
theorem bind_eq {later : γ → δ → Prop} {first : Exec arch α} {second : Exec other α}
    {next : α → Exec arch γ} {counternext : α → Exec other δ}
    (coupled : Coupled Eq first second)
    (further : ∀ result, Coupled later (next result) (counternext result)) :
    Coupled later (first >>= next) (second >>= counternext) :=
  coupled.bind fun result _ same => same ▸ further result

end Coupled

/-! ## Access -/

theorem coupled_setCounter (emulates : other.Emulates arch) (value : Int) :
    Coupled Eq (setCounter value : Exec arch Unit) (setCounter value : Exec other Unit) :=
  .of_modify fun _ _ agrees => agrees.setRegister emulates.toUnderstands emulates.counter value

theorem coupled_readByte (understands : other.Understands arch) (address : Nat) :
    Coupled Eq (readByte address : Exec arch UInt8) (readByte address : Exec other UInt8) :=
  fun _ _ agrees =>
    ⟨_, _, _, _, rfl, rfl, agrees.countAccess, (agrees.peek understands address).symm⟩

theorem coupled_writeByte (understands : other.Understands arch) (address : Nat)
    (value : UInt8) :
    Coupled Eq (writeByte address value : Exec arch Unit)
      (writeByte address value : Exec other Unit) :=
  .of_modify fun _ _ agrees => agrees.countAccess.poke understands address value.toNat

theorem coupled_readAddress (understands : other.Understands arch) (address : Nat) :
    Coupled Eq (readAddress address : Exec arch Nat) (readAddress address : Exec other Nat) := by
  intro machine counterpart agrees
  have bytes : other.addressBytes = arch.addressBytes := by
    simp only [Datasheet.addressBytes, understands.memorySize]
  have number : counterpart.peekNumber other.byteOrder other.addressBytes address =
      machine.peekNumber arch.byteOrder arch.addressBytes address := by
    rw [Machine.peekNumber, Machine.peekNumber, understands.byteOrder, bytes,
      agrees.peekBytes understands]
  refine ⟨_, _, _, _, readAddress_apply address machine, readAddress_apply address counterpart,
    ?_, ?_⟩
  · rw [bytes]
    exact agrees.countAccesses _
  · rw [number, understands.val_cell]

theorem coupled_status :
    Coupled (fun status counterstatus => counterstatus.negative = status.negative ∧
      counterstatus.zero = status.zero) (status : Exec arch Status) (status : Exec other Status) :=
  fun _ _ agrees => ⟨_, _, _, _, rfl, rfl, agrees, agrees.negative, agrees.zero⟩

theorem coupled_setCode (emulates : other.Emulates arch) (code : FlagCode) (value : Bool) :
    Coupled Eq (setCode code value : Exec arch Unit) (setCode code value : Exec other Unit) :=
  .of_modify fun _ _ agrees => agrees.setCode emulates code value

theorem coupled_setSignAndZero (emulates : other.Emulates arch) (width value : Nat) :
    Coupled Eq (setSignAndZero width value : Exec arch Unit)
      (setSignAndZero width value : Exec other Unit) :=
  (coupled_setCode emulates _ _).bind_eq fun _ => coupled_setCode emulates _ _

end Exec

open Exec

/-! ## Instructions -/

/-- Two fetched instructions that do the same on machines that agree. -/
structure Fetched.Coupled (fetched : Fetched arch) (counterpart : Fetched other) : Prop where
  operation : counterpart.instruction.operation = fetched.instruction.operation
  plain : fetched.instruction.operation.isPlain = true
  register : counterpart.register.map Fin.val = fetched.register.map Fin.val
  kind : counterpart.kind = fetched.kind
  address : Exec.Coupled Eq fetched.operand.address counterpart.operand.address
  value : Exec.Coupled Eq fetched.operand.value counterpart.operand.value

namespace Fetched.Coupled

variable {fetched : Fetched arch} {counterpart : Fetched other}
  (emulates : other.Emulates arch) (coupled : fetched.Coupled counterpart)
include emulates coupled

omit emulates in
/-- Either both instructions work on no register, or both on one at the same place. -/
theorem register_cases :
    fetched.register = none ∧ counterpart.register = none ∨
      ∃ index place, fetched.register = some index ∧ counterpart.register = some place ∧
        (place : Nat) = index := by
  have same := coupled.register
  cases here : fetched.register with
  | none =>
      rw [here, Option.map_none, Option.map_eq_none_iff] at same
      exact .inl ⟨rfl, same⟩
  | some index =>
      rw [here, Option.map_some, Option.map_eq_some_iff] at same
      obtain ⟨place, there, equal⟩ := same
      exact .inr ⟨index, place, rfl, there, equal⟩

omit emulates in
theorem registerValue :
    Exec.Coupled Eq fetched.registerValue counterpart.registerValue := by
  intro machine countermachine agrees
  refine ⟨_, _, _, _, rfl, rfl, agrees, ?_⟩
  rcases coupled.register_cases with ⟨here, there⟩ | ⟨index, place, here, there, same⟩
  · rw [here, there]
    rfl
  · rw [here, there]
    exact (agrees.register same).symm

theorem width : counterpart.width = fetched.width := by
  unfold Fetched.width
  rcases coupled.register_cases with ⟨here, there⟩ | ⟨index, place, here, there, same⟩
  · rw [here, there]
  · simp only [here, there, List.get_eq_getElem, emulates.registers, same]

theorem setRegister (value : Nat) :
    Exec.Coupled Eq (fetched.setRegister value) (counterpart.setRegister value) := by
  unfold Fetched.setRegister
  rcases coupled.register_cases with ⟨here, there⟩ | ⟨index, place, here, there, same⟩
  · rw [here, there]
    exact .of_modify fun _ _ agrees => agrees
  · rw [here, there]
    exact .of_modify fun _ _ agrees => agrees.setRegister emulates.toUnderstands same value

theorem setResult (value : Nat) :
    Exec.Coupled Eq (fetched.setResult value) (counterpart.setResult value) := by
  refine (coupled.setRegister emulates value).bind_eq fun _ => ?_
  rw [coupled.width emulates]
  exact coupled_setSignAndZero emulates _ _

theorem setOutcome (outcome : Alu.Outcome) (carryCode : FlagCode) :
    Exec.Coupled Eq (fetched.setOutcome outcome carryCode)
      (counterpart.setOutcome outcome carryCode) :=
  (coupled.setResult emulates _).bind_eq fun _ =>
    (coupled_setCode emulates _ _).bind_eq fun _ => coupled_setCode emulates _ _

theorem jumpIf (condition : Bool) :
    Exec.Coupled Eq (fetched.jumpIf condition) (counterpart.jumpIf condition) := by
  unfold Fetched.jumpIf
  rw [coupled.kind]
  split
  · exact coupled.address.bind_eq fun _ => coupled_setCounter emulates _
  · exact .of_pure rfl

/-- A register operation of a plain instruction looks at no condition code. -/
theorem computeOnRegister
    (blind : ∀ width value carry, fetched.instruction.operation.onRegister? width value carry =
      fetched.instruction.operation.onRegister? width value false) :
    Exec.Coupled Eq fetched.computeOnRegister counterpart.computeOnRegister := by
  refine coupled.registerValue.bind_eq fun _ => coupled_status.bind fun status _ _ => ?_
  rw [coupled.operation, coupled.width emulates, blind _ _ status.carry,
    blind _ _ (Status.carry _)]
  split
  · refine (coupled.setResult emulates _).bind_eq fun _ => ?_
    split
    · exact coupled_setCode emulates _ _
    · exact .of_pure rfl
  · exact .of_pure rfl

/-- A plain instruction does the same on machines that agree. -/
theorem executeStandard :
    Exec.Coupled Eq fetched.executeStandard counterpart.executeStandard := by
  have value := coupled.registerValue
  have plain := coupled.plain
  have register := coupled.computeOnRegister emulates
  unfold Fetched.executeStandard
  rw [coupled.operation, coupled.width emulates]
  cases operation : fetched.instruction.operation with
  | store =>
      exact coupled.address.bind_eq fun _ => value.bind_eq fun _ =>
        coupled_writeByte emulates.toUnderstands _ _
  | load => exact coupled.value.bind_eq fun _ => coupled.setResult emulates _
  | add =>
      exact value.bind_eq fun _ => coupled.value.bind_eq fun _ =>
        coupled.setOutcome emulates _ _
  | or | and =>
      exact value.bind_eq fun _ => coupled.value.bind_eq fun _ => coupled.setResult emulates _
  | jump test =>
      refine coupled_status.bind fun status counterstatus same => ?_
      have holds : test.holds counterstatus = test.holds status := by
        rw [operation] at plain
        cases test with
        | always => rfl
        | negative => exact same.1
        | zero => exact same.2
        | _ => contradiction
      rw [holds]
      exact coupled.jumpIf emulates _
  | halt => exact .of_modify fun _ _ agrees => agrees.setRunning false
  | nop | not =>
      rw [operation] at register
      exact register fun _ _ _ => rfl
  | _ =>
      rw [operation] at plain
      contradiction

end Fetched.Coupled

/-! ## Steps -/

namespace Architecture.Emulates

variable (emulates : other.Emulates arch)
include emulates

theorem addressingKind (opcode : UInt8) :
    arch.addressingKind opcode = .direct ∧ other.addressingKind opcode = .direct := by
  have direct : arch.addressingKind opcode = .direct := by
    unfold Datasheet.addressingKind
    split
    · rename_i mode selected
      exact emulates.direct mode (List.mem_of_find?_eq_some selected)
    · rfl
  refine ⟨direct, ?_⟩
  rwa [Datasheet.addressingKind, Datasheet.addressingMode?, emulates.addressingModes]

theorem registerAt? (name : String) :
    (other.registerAt? name).map Fin.val = (arch.registerAt? name).map Fin.val := by
  unfold Architecture.registerAt?
  split
  · rfl
  · rw [Datasheet.registerIndex?, Datasheet.registerIndex?, ← List.findIdx?_eq_map_findFinIdx?_val,
      ← List.findIdx?_eq_map_findFinIdx?_val, emulates.registers]

variable {opcode : UInt8} {instruction counterpart : Instruction}
  (shares : other.Shares arch opcode instruction counterpart)
include shares

theorem workingRegister? :
    (other.workingRegister? counterpart opcode).map Fin.val =
      (arch.workingRegister? instruction opcode).map Fin.val := by
  have selects : counterpart.selectsRegister = instruction.selectsRegister := by
    simp only [Instruction.selectsRegister, Instruction.parameters, shares.format]
  have selected : other.selectedName opcode = arch.selectedName opcode := by
    simp only [Datasheet.selectedName, emulates.registers]
  rw [Architecture.workingRegister?, Architecture.workingRegister?, selects, selected,
    emulates.accumulatorName, emulates.registerAt?]

theorem instructionBytes (kinds : List AddressingMode.Kind) :
    other.instructionBytes counterpart kinds = arch.instructionBytes instruction kinds := by
  simp only [Datasheet.instructionBytes, shares.size, emulates.model,
    emulates.toUnderstands.operandBytes]

end Architecture.Emulates

namespace Machine.Agrees

variable {machine : Machine arch} {counterpart : Machine other}
  (agrees : machine.Agrees counterpart) (emulates : other.Emulates arch)
include agrees emulates

theorem counter : counterpart.counter = machine.counter :=
  agrees.register emulates.counter

theorem setCounter (value : Int) :
    (machine.setCounter value).Agrees (counterpart.setCounter value) :=
  agrees.setRegister emulates.toUnderstands emulates.counter value

theorem opcode : counterpart.peek counterpart.counter = machine.peek machine.counter := by
  rw [agrees.counter emulates, agrees.peek emulates.toUnderstands]

theorem pastOpcode : machine.pastOpcode.Agrees counterpart.pastOpcode := by
  unfold Machine.pastOpcode
  rw [agrees.counter emulates]
  exact agrees.countAccess.setCounter emulates _

theorem pastOperand (size : Nat) :
    (machine.pastOperand size).Agrees (counterpart.pastOperand size) := by
  unfold Machine.pastOperand
  split
  · rw [agrees.counter emulates]
    exact agrees.setCounter emulates _
  · exact agrees

variable {instruction counterinstruction : Instruction}
  (shares : other.Shares arch (machine.peek machine.counter) instruction counterinstruction)
include shares

theorem pastFetch :
    (machine.pastFetch instruction).Agrees (counterpart.pastFetch counterinstruction) := by
  obtain ⟨direct, otherDirect⟩ := emulates.addressingKind (machine.peek machine.counter)
  unfold Machine.pastFetch
  rw [agrees.opcode emulates, direct, otherDirect, emulates.instructionBytes shares]
  exact (agrees.pastOpcode emulates).pastOperand emulates _

/-- What is fetched does the same on machines that agree. -/
theorem fetched :
    (machine.fetched instruction).Coupled (counterpart.fetched counterinstruction) := by
  obtain ⟨direct, otherDirect⟩ := emulates.addressingKind (machine.peek machine.counter)
  have place := (agrees.pastOpcode emulates).counter emulates
  have address : Coupled Eq
      (OperandAccess.effectiveAddress arch .direct machine.pastOpcode.counter)
      (OperandAccess.effectiveAddress other .direct counterpart.pastOpcode.counter) := by
    rw [place]
    exact coupled_readAddress emulates.toUnderstands _
  refine ⟨shares.operation, shares.plain, ?_, ?_, ?_, ?_⟩
  · rw [Machine.fetched, Machine.fetched, agrees.opcode emulates]
    dsimp only
    exact emulates.workingRegister? shares
  · rw [Machine.fetched, Machine.fetched, agrees.opcode emulates]
    exact otherDirect.trans direct.symm
  · rw [Machine.fetched, Machine.fetched, agrees.opcode emulates, direct, otherDirect]
    exact address
  · rw [Machine.fetched, Machine.fetched, agrees.opcode emulates, direct, otherDirect]
    exact address.bind_eq fun cell => (coupled_readByte emulates.toUnderstands cell).bind_eq
      fun _ => .of_pure rfl

/-- A step at an opcode that both architectures share keeps machines in agreement. -/
theorem step :
    ∃ after counterafter, Exec.step machine = .ok () after ∧
      Exec.step counterpart = .ok () counterafter ∧ after.Agrees counterafter := by
  have knownOther : other.instruction? (counterpart.peek counterpart.counter) =
      some counterinstruction := by
    rw [agrees.opcode emulates]
    exact shares.knownOther
  have standardOther : other.model = .standard := emulates.model.trans emulates.standard
  obtain ⟨_, between, _, counterbetween, ends, counterends, agreesBetween, _⟩ :=
    (agrees.fetched emulates shares).executeStandard emulates _ _
      (agrees.pastFetch emulates shares)
  refine ⟨between.countInstruction, counterbetween.countInstruction, ?_, ?_,
    agreesBetween.countInstruction⟩
  · unfold Exec.step byteInstruction
    simp only [emulates.standard]
    rw [bind_of_ok ((bind_of_ok (fetch_of_some shares.known)).trans ends)]
    rfl
  · unfold Exec.step byteInstruction
    simp only [standardOther]
    rw [bind_of_ok ((bind_of_ok (fetch_of_some knownOther)).trans counterends)]
    rfl

end Machine.Agrees

/--
Machines that agree stay in agreement over any number of steps, as long as the
lesser machine meets opcodes that both architectures share.
-/
theorem Machine.Agrees.steps (emulates : other.Emulates arch) {machine : Machine arch}
    {counterpart : Machine other} (agrees : machine.Agrees counterpart) (count : Nat)
    (shared : ∀ done < count, ∀ between, Session.steps done machine = .ok () between →
      ∃ instruction counterinstruction,
        other.Shares arch (between.peek between.counter) instruction counterinstruction) :
    ∃ after counterafter, Session.steps count machine = .ok () after ∧
      Session.steps count counterpart = .ok () counterafter ∧ after.Agrees counterafter := by
  induction count generalizing machine counterpart with
  | zero => exact ⟨machine, counterpart, rfl, rfl, agrees⟩
  | succ count induction =>
      obtain ⟨instruction, counterinstruction, shares⟩ := shared 0 (Nat.succ_pos count) machine rfl
      obtain ⟨next, counternext, ends, counterends, agreesNext⟩ := agrees.step emulates shares
      have sharedNext : ∀ done < count, ∀ between, Session.steps done next = .ok () between →
          ∃ instruction counterinstruction,
            other.Shares arch (between.peek between.counter) instruction counterinstruction :=
        fun done fewer between reached => shared (done + 1) (Nat.succ_lt_succ fewer) between
          ((bind_of_ok ends).trans reached)
      obtain ⟨after, counterafter, endsLater, counterendsLater, agreesLater⟩ :=
        induction agreesNext sharedNext
      exact ⟨after, counterafter, (bind_of_ok ends).trans endsLater,
        (bind_of_ok counterends).trans counterendsLater, agreesLater⟩

end ClassroomCpu
