import ClassroomCpu.Execution.Step
import ClassroomCpu.Proofs.Event.Publication
import ClassroomCpu.Proofs.Execution.Fetch

/-!
# What instructions are put together from

Instructions, steps and runs look at the state of a machine, write parts of it
and go on with what they saw; they do nothing else, and none of them looks at
the listeners.  What holds of these parts and is kept by putting them together
holds of every step.
-/

namespace ClassroomCpu

variable {arch : Architecture}

namespace Exec

variable {α β : Type}

/-- Whatever the computation gives is as described. -/
def Gives (computation : Exec arch α) (described : α → Prop) : Prop :=
  ∀ machine result after, computation machine = .ok result after → described result

/-- The computation is put together from results, faults, looks at the state and writes. -/
inductive Composed : {α : Type} → Exec arch α → Prop where
  | pure {α : Type} (result : α) : Composed (pure result)
  | throw {α : Type} (fault : Fault) : Composed (throw fault : Exec arch α)
  /-- The listeners are no part of what is looked at. -/
  | look {α : Type} {next : Machine arch → Exec arch α} (deaf : Machine.IsDeaf next)
      (further : ∀ machine, Composed (next machine)) : Composed (get >>= next)
  | write {change : Machine arch → Machine arch}
      (writes : ∀ machine, Machine.Writes machine (change machine))
      (announced : Machine.IsAnnounced change) : Composed (modify change : Exec arch PUnit)
  /-- What comes second is put together for the results that the first part gives. -/
  | bind_of_gives {α β : Type} {computation : Exec arch α} {next : α → Exec arch β}
      {described : α → Prop} (first : Composed computation) (gives : Gives computation described)
      (second : ∀ result, described result → Composed (next result)) :
      Composed (computation >>= next)

theorem Composed.bind {computation : Exec arch α} {next : α → Exec arch β}
    (first : Composed computation) (second : ∀ result, Composed (next result)) :
    Composed (computation >>= next) := by
  have gives : Gives computation fun _ => True := fun _ _ _ _ => trivial
  exact first.bind_of_gives gives fun result _ => second result

/-! ## Access -/

theorem composed_ofExcept (outcome : Except Fault α) :
    Composed (ofExcept outcome : Exec arch α) := by
  cases outcome with
  | ok result => exact .pure result
  | error fault => exact .throw fault

theorem composed_countAccess : Composed (modify Machine.countAccess : Exec arch PUnit) :=
  .write (fun machine => .single (.setAccessCount machine _)) Machine.isAnnounced_countAccess

theorem composed_setRegister (index : Fin arch.registers.length) {value : Machine arch → Int}
    (deaf : Machine.IsDeaf value) :
    Composed (modify fun machine => machine.setRegister index (value machine) :
      Exec arch PUnit) :=
  .write (fun machine => .single (.setRegister machine index _))
    (Machine.isAnnounced_setRegister index deaf)

theorem composed_setRegister? (index : Option (Fin arch.registers.length))
    {value : Machine arch → Int} (deaf : Machine.IsDeaf value) :
    Composed (modify fun machine => machine.setRegister? (value machine) index :
      Exec arch PUnit) :=
  .write (fun machine => machine.writes_setRegister? _ index)
    (Machine.isAnnounced_setRegister? index deaf)

theorem composed_readByte (address : Nat) : Composed (readByte address : Exec arch UInt8) :=
  .bind composed_countAccess fun _ => .look (fun _ _ => rfl) fun _ => .pure _

theorem composed_writeByte (address : Nat) (value : UInt8) :
    Composed (writeByte address value : Exec arch Unit) :=
  .write (fun machine => .tail (.single (.setAccessCount machine _)) (.poke _ address _))
    ((Machine.isAnnounced_poke address _).comp Machine.isAnnounced_countAccess)

theorem composed_readBytes (address count : Nat) :
    Composed (readBytes address count : Exec arch (List UInt8)) := by
  induction count generalizing address with
  | zero => exact .pure []
  | succ count induction =>
      exact (composed_readByte address).bind fun byte =>
        (induction (address + 1)).bind fun bytes => .pure (byte :: bytes)

theorem composed_writeBytes (address : Nat) (bytes : List UInt8) :
    Composed (writeBytes address bytes : Exec arch Unit) := by
  induction bytes generalizing address with
  | nil => exact .pure ()
  | cons byte bytes induction =>
      exact (composed_writeByte address byte).bind fun _ => induction (address + 1)

theorem composed_readAddress (address : Nat) : Composed (readAddress address : Exec arch Nat) :=
  (composed_readBytes address _).bind fun _ => .pure _

theorem composed_readWord (address : Nat) : Composed (readWord address : Exec arch Nat) :=
  (composed_readBytes address _).bind fun _ => .pure _

theorem composed_writeWord (address value : Nat) :
    Composed (writeWord address value : Exec arch Unit) :=
  composed_writeBytes address _

theorem composed_counter : Composed (counter : Exec arch Nat) :=
  .look (fun _ _ => rfl) fun _ => .pure _

theorem composed_setCounter (value : Int) : Composed (setCounter value : Exec arch Unit) :=
  .write (fun machine => .single (.setRegister machine _ value))
    (Machine.isAnnounced_setRegister _ fun _ _ => rfl)

theorem composed_fetchByte : Composed (fetchByte : Exec arch UInt8) :=
  composed_counter.bind fun address => (composed_readByte address).bind fun _ =>
    (composed_setCounter _).bind fun _ => .pure _

theorem composed_status : Composed (status : Exec arch Status) :=
  .look (fun _ _ => rfl) fun _ => .pure _

theorem composed_setCode (code : FlagCode) (value : Bool) :
    Composed (setCode code value : Exec arch Unit) :=
  .write (fun machine => machine.writes_setCode code value)
    (Machine.isAnnounced_setCode code value)

theorem composed_setSignAndZero (width value : Nat) :
    Composed (setSignAndZero width value : Exec arch Unit) :=
  (composed_setCode _ _).bind fun _ => composed_setCode _ _

theorem composed_setRunning (value : Bool) : Composed (setRunning value : Exec arch Unit) :=
  .write (fun machine => .single (.setRunning machine value))
    (Machine.isAnnounced_setRunning value)

end Exec

open Exec

/-! ## Byte machines -/

namespace OperandAccess

/-- Access to an operand is put together from parts. -/
structure Composed (operand : OperandAccess arch) : Prop where
  address : Exec.Composed operand.address
  value : Exec.Composed operand.value
  choice : ∀ first, Exec.Composed (operand.choice first)

theorem composed_effectiveAddress (kind : AddressingMode.Kind) (operandAddress : Nat) :
    Exec.Composed (effectiveAddress arch kind operandAddress) := by
  have read (address : Nat) : Exec.Composed (readAddress address : Exec arch Nat) :=
    composed_readAddress address
  cases kind with
  | immediate => exact .pure _
  | indirect => exact (read _).bind fun _ => read _
  | indexedByX =>
      exact (read _).bind fun _ => .look (fun _ _ => rfl) fun _ =>
        (composed_ofExcept _).bind fun _ => .pure _
  | indexedByCounter => exact (read _).bind fun _ => composed_counter.bind fun _ => .pure _
  | _ => exact read _

theorem composed_inMemory (kind : AddressingMode.Kind) (operandAddress : Nat) :
    (inMemory arch kind operandAddress).Composed where
  address := composed_effectiveAddress kind operandAddress
  value := (composed_effectiveAddress kind operandAddress).bind fun _ =>
    (composed_readByte _).bind fun _ => .pure _
  choice _ := composed_readAddress _

end OperandAccess

namespace Exec

theorem composed_passOperand (size : Nat) : Composed (passOperand size : Exec arch Unit) := by
  refine composed_counter.bind fun _ => ?_
  split
  · exact composed_setCounter _
  · exact .pure ()

theorem composed_push (value : Nat) : Composed (push value : Exec arch Unit) :=
  .bind (composed_setRegister? _ fun _ _ => rfl) fun _ =>
    .write (fun machine => .single (.pokeStack machine _ _))
      (Machine.isAnnounced_pokeStack (fun _ _ => rfl) _)

theorem composed_pop : Composed (pop : Exec arch Nat) :=
  .look (fun _ _ => rfl) fun _ => .look (fun _ _ => rfl) fun _ =>
    .bind (composed_setRegister? _ fun _ _ => rfl) fun _ => .pure _

theorem composed_skipInstruction : Composed (skipInstruction : Exec arch Unit) :=
  composed_counter.bind fun _ => (composed_readByte _).bind fun _ => composed_setCounter _

end Exec

namespace Fetched

variable {fetched : Fetched arch}

theorem composed_registerValue : Exec.Composed fetched.registerValue :=
  .look (fun _ _ => rfl) fun _ => .pure _

theorem composed_setResult (value : Nat) : Exec.Composed (fetched.setResult value) :=
  .bind (composed_setRegister? _ fun _ _ => rfl) fun _ => composed_setSignAndZero _ _

theorem composed_setOutcome (outcome : Alu.Outcome) (carryCode : FlagCode) :
    Exec.Composed (fetched.setOutcome outcome carryCode) :=
  (composed_setResult _).bind fun _ => (composed_setCode _ _).bind fun _ => composed_setCode _ _

theorem composed_computeOnRegister : Exec.Composed fetched.computeOnRegister := by
  refine composed_registerValue.bind fun _ => composed_status.bind fun _ => ?_
  split
  · refine (composed_setResult _).bind fun _ => ?_
    split
    · exact composed_setCode _ _
    · exact .pure ()
  · exact .pure ()

variable (operand : fetched.operand.Composed)
include operand

theorem composed_jumpIf (condition : Bool) : Exec.Composed (fetched.jumpIf condition) := by
  unfold jumpIf
  split
  · exact operand.address.bind fun _ => composed_setCounter _
  · exact .pure ()

theorem composed_callInMemory : Exec.Composed fetched.callInMemory := by
  unfold callInMemory
  split
  · exact operand.address.bind fun _ => composed_counter.bind fun _ =>
      (composed_writeBytes _ _).bind fun _ => composed_setCounter _
  · exact .pure ()

theorem composed_callOnStack : Exec.Composed fetched.callOnStack := by
  unfold callOnStack
  split
  · exact operand.address.bind fun _ => composed_counter.bind fun _ =>
      (composed_push _).bind fun _ => composed_setCounter _
  · exact .pure ()

theorem composed_executeStandard : Exec.Composed fetched.executeStandard := by
  have value : Exec.Composed fetched.registerValue := composed_registerValue
  unfold executeStandard
  cases fetched.instruction.operation with
  | store => exact operand.address.bind fun _ => value.bind fun _ => composed_writeByte _ _
  | load => exact operand.value.bind fun _ => composed_setResult _
  | add | sub => exact value.bind fun _ => operand.value.bind fun _ => composed_setOutcome _ _
  | or | and => exact value.bind fun _ => operand.value.bind fun _ => composed_setResult _
  | jump test => exact composed_status.bind fun _ => composed_jumpIf operand _
  | call => exact composed_callInMemory operand
  | choose =>
      exact value.bind fun _ => (operand.choice _).bind fun _ => composed_setCounter _
  | halt => exact composed_setRunning false
  | _ => exact composed_computeOnRegister

theorem composed_executeStack : Exec.Composed fetched.executeStack := by
  unfold executeStack
  cases fetched.instruction.operation with
  | add | sub | and | or =>
      refine composed_pop.bind fun _ => composed_pop.bind fun _ => ?_
      split
      · exact composed_push _
      · exact .pure ()
  | clear | not | neg | inc | dec | halve | double | rotateRight | rotateLeft =>
      refine composed_pop.bind fun _ => ?_
      split
      · exact composed_push _
      · exact .pure ()
  | skip test =>
      refine composed_pop.bind fun _ => ?_
      split
      · exact composed_skipInstruction
      · exact .pure ()
  | push => exact operand.value.bind fun _ => composed_push _
  | pop => exact operand.address.bind fun _ => composed_pop.bind fun _ => composed_writeByte _ _
  | jump test =>
      cases test with
      | always => exact composed_jumpIf operand true
      | _ => exact .pure ()
  | call => exact composed_callOnStack operand
  | ret => exact composed_pop.bind fun _ => composed_setCounter _
  | halt => exact composed_setRunning false
  | _ => exact .pure ()

end Fetched

namespace Exec

theorem composed_fetch : Composed (fetch : Exec arch _) := by
  refine composed_fetchByte.bind fun opcode => ?_
  split
  · exact .pure none
  · exact composed_counter.bind fun _ => (composed_passOperand _).bind fun _ => .pure _

theorem gives_fetch : Gives (fetch : Exec arch _) fun found =>
    ∀ fetched, found = some fetched → fetched.operand.Composed := by
  intro machine found after fetches fetched here
  cases known : arch.instruction? (machine.peek machine.counter) with
  | none =>
      rw [fetch_of_none known] at fetches
      simp only [EStateM.Result.ok.injEq] at fetches
      rw [← fetches.1] at here
      contradiction
  | some instruction =>
      rw [fetch_of_some known] at fetches
      simp only [EStateM.Result.ok.injEq] at fetches
      rw [← fetches.1] at here
      rw [← Option.some.inj here]
      exact OperandAccess.composed_inMemory _ _

/-- An instruction of a byte machine is put together from parts. -/
theorem composed_byteInstruction : Composed (byteInstruction : Exec arch Unit) := by
  apply composed_fetch.bind_of_gives gives_fetch
  intro found operand
  cases found with
  | none => exact .pure ()
  | some fetched =>
      have operand := operand fetched rfl
      dsimp only
      split
      · exact Fetched.composed_executeStack operand
      · exact Fetched.composed_executeStandard operand

end Exec

/-! ## Word machines -/

namespace Exec

theorem composed_numberedRegister (number : Nat) :
    Composed (numberedRegister number : Exec arch _) := by
  unfold numberedRegister
  split
  · exact .pure _
  · exact .throw _

theorem composed_readRegister (number : Nat) : Composed (readRegister number : Exec arch Nat) :=
  (composed_numberedRegister number).bind fun _ => .look (fun _ _ => rfl) fun _ => .pure _

theorem composed_writeRegister (number : Nat) (value : Int) :
    Composed (writeRegister number value : Exec arch Unit) :=
  (composed_numberedRegister number).bind fun _ =>
    composed_setRegister _ fun _ _ => rfl

theorem composed_nextWord : Composed (nextWord : Exec arch Nat) :=
  composed_counter.bind fun _ => (composed_readWord _).bind fun _ =>
    (composed_setCounter _).bind fun _ => .pure _

theorem composed_follow (pointer : Nat) : Composed (follow pointer : Exec arch Location) :=
  (composed_readWord pointer).bind fun _ => .pure _

theorem composed_locate (kind : AddressingMode.Kind) (number : Nat) :
    Composed (locate kind number : Exec arch Location) := by
  have read : Composed (readRegister number : Exec arch Nat) := composed_readRegister number
  have write (value : Int) : Composed (writeRegister number value : Exec arch Unit) :=
    composed_writeRegister number value
  cases kind with
  | postIncrement | immediate | preDecrement =>
      exact read.bind fun _ => (write _).bind fun _ => .pure _
  | indexed => exact composed_nextWord.bind fun _ => read.bind fun _ => .pure _
  | registerIndirect => exact read.bind fun _ => .pure _
  | postIncrementIndirect | direct | preDecrementIndirect =>
      exact read.bind fun _ => (write _).bind fun _ => composed_follow _
  | indexedIndirect => exact composed_nextWord.bind fun _ => read.bind fun _ => composed_follow _
  | _ => exact .pure _

theorem composed_load (location : Location) : Composed (load location : Exec arch Nat) := by
  cases location with
  | register number => exact composed_readRegister number
  | memory address => exact composed_readWord address

theorem composed_store (value : Nat) (location : Location) :
    Composed (store value location : Exec arch Unit) := by
  cases location with
  | register number => exact composed_writeRegister number _
  | memory address => exact composed_writeWord address _

theorem composed_wordStackPointer : Composed (wordStackPointer : Exec arch _) := by
  unfold wordStackPointer
  split
  · exact .pure _
  · exact .throw _

theorem composed_pushWord (value : Nat) : Composed (pushWord value : Exec arch Unit) :=
  composed_wordStackPointer.bind fun _ => .look (fun _ _ => rfl) fun _ =>
    .bind (composed_setRegister _ fun _ _ => rfl) fun _ => composed_writeWord _ _

theorem composed_popWord : Composed (popWord : Exec arch Nat) :=
  composed_wordStackPointer.bind fun _ => .look (fun _ _ => rfl) fun _ =>
    (composed_readWord _).bind fun _ =>
      .bind (composed_setRegister _ fun _ _ => rfl) fun _ => .pure _

theorem composed_setWordCodes (value : Nat) (overflow carry : Bool) :
    Composed (setWordCodes value overflow carry : Exec arch Unit) :=
  (composed_setSignAndZero _ _).bind fun _ => (composed_setCode _ _).bind fun _ =>
    composed_setCode _ _

theorem composed_setLogicCodes (value : Nat) : Composed (setLogicCodes value : Exec arch Unit) :=
  (composed_setSignAndZero _ _).bind fun _ => composed_setCode _ _

theorem composed_forM_setCode (codes : List FlagCode) (value : Bool) :
    Composed (codes.forM fun code => (setCode code value : Exec arch Unit)) := by
  induction codes with
  | nil => exact .pure ()
  | cons code codes induction => exact (composed_setCode code value).bind fun _ => induction

end Exec

/-- Finding and reading an operand is put together from parts. -/
structure WordOperand.Composed (operand : WordOperand arch) : Prop where
  locate : Exec.Composed operand.locate
  load : ∀ location, Exec.Composed (operand.load location)

theorem WordOperand.composed_ofBits (bits : UInt8) : (WordOperand.ofBits arch bits).Composed where
  locate := composed_locate _ _
  load := composed_load

namespace FetchedWord

/-- Access to the operands of an instruction is put together from parts. -/
structure Composed (fetched : FetchedWord arch) : Prop where
  operand : fetched.operand.Composed
  source : fetched.source.Composed
  destination : fetched.destination.Composed

theorem composed_ofBytes (instruction : Instruction) (opcode second : UInt8) :
    (ofBytes arch instruction opcode second).Composed where
  operand := WordOperand.composed_ofBits _
  source := WordOperand.composed_ofBits _
  destination := WordOperand.composed_ofBits _

variable {fetched : FetchedWord arch}

theorem composed_ret : Exec.Composed fetched.ret :=
  (composed_readRegister _).bind fun _ => (composed_setCounter _).bind fun _ =>
    composed_popWord.bind fun _ => composed_writeRegister _ _

theorem composed_loop : Exec.Composed fetched.loop := by
  refine (composed_readRegister _).bind fun _ => (composed_writeRegister _ _).bind fun _ =>
    (composed_readRegister _).bind fun _ => ?_
  split
  · exact composed_counter.bind fun _ => composed_setCounter _
  · exact .pure ()

theorem composed_branch (condition : Condition) : Exec.Composed (fetched.branch condition) := by
  refine composed_status.bind fun _ => ?_
  split
  · exact composed_counter.bind fun _ => composed_setCounter _
  · exact .pure ()

variable (composed : fetched.Composed)
include composed

theorem composed_jump : Exec.Composed fetched.jump := by
  unfold jump
  split
  · refine composed.operand.locate.bind fun _ => ?_
    split
    · exact composed_setCounter _
    · exact .pure ()
  · exact .pure ()

theorem composed_call : Exec.Composed fetched.call := by
  unfold call
  split
  · refine composed.operand.locate.bind fun _ => ?_
    split
    · exact (composed_readRegister _).bind fun _ => (composed_pushWord _).bind fun _ =>
        composed_counter.bind fun _ => (composed_writeRegister _ _).bind fun _ =>
          composed_setCounter _
    · exact .pure ()
  · exact .pure ()

theorem composed_computeOnWord : Exec.Composed fetched.computeOnWord := by
  refine composed.operand.locate.bind fun _ => (composed.operand.load _).bind fun _ =>
    composed_status.bind fun _ => ?_
  split
  · dsimp only
    split
    · exact (composed_store _ _).bind fun _ => composed_setWordCodes _ _ _
    · exact composed_setWordCodes _ _ _
  · exact .pure ()

theorem composed_computeOnWords : Exec.Composed fetched.computeOnWords := by
  refine composed.source.locate.bind fun _ => (composed.source.load _).bind fun _ =>
    composed.destination.locate.bind fun _ => ?_
  have load := composed.destination.load
  split
  · exact (composed_store _ _).bind fun _ => composed_setLogicCodes _
  · exact (load _).bind fun _ => (composed_store _ _).bind fun _ => composed_setWordCodes _ _ _
  · exact (load _).bind fun _ => (composed_store _ _).bind fun _ => composed_setWordCodes _ _ _
  · exact (load _).bind fun _ => composed_setWordCodes _ _ _
  · exact (load _).bind fun _ => (composed_store _ _).bind fun _ => composed_setLogicCodes _
  · exact (load _).bind fun _ => (composed_store _ _).bind fun _ => composed_setLogicCodes _
  · exact .pure ()

theorem composed_execute : Exec.Composed fetched.execute := by
  unfold execute
  cases fetched.instruction.operation with
  | clearFlags => exact composed_forM_setCode _ false
  | setFlags => exact composed_forM_setCode _ true
  | branch condition => exact composed_branch condition
  | loop => exact composed_loop
  | jump test =>
      cases test with
      | always => exact composed_jump composed
      | _ => exact .pure ()
  | call => exact composed_call composed
  | ret => exact composed_ret
  | clear =>
      exact composed.operand.locate.bind fun _ => (composed_store _ _).bind fun _ =>
        composed_setWordCodes _ _ _
  | not | inc | dec | neg | test | rotateRight | rotateLeft | halve | double | addCarry
  | subCarry => exact composed_computeOnWord composed
  | move | add | sub | compare | and | or => exact composed_computeOnWords composed
  | halt => exact composed_setRunning false
  | _ => exact .pure ()

end FetchedWord

/-! ## Steps and runs -/

namespace Exec

/-- An instruction of a word machine is put together from parts. -/
theorem composed_wordInstruction : Composed (wordInstruction : Exec arch Unit) := by
  refine composed_fetchByte.bind fun opcode => ?_
  split
  · exact .pure ()
  · split
    · exact composed_fetchByte.bind fun _ =>
        FetchedWord.composed_execute (FetchedWord.composed_ofBytes _ _ _)
    · exact Composed.bind (.pure 0) fun _ =>
        FetchedWord.composed_execute (FetchedWord.composed_ofBytes _ _ _)

/-- A step is put together from parts. -/
theorem composed_step : Composed (step : Exec arch Unit) := by
  have counted : Composed (modify Machine.countInstruction : Exec arch PUnit) :=
    .write (fun machine => .single (.setInstructionCount machine _))
      (Machine.isAnnounced_setInstructionCount fun _ _ => rfl)
  unfold step
  split
  · exact composed_wordInstruction.bind fun _ => counted
  · exact composed_byteInstruction.bind fun _ => counted
  · exact composed_byteInstruction.bind fun _ => counted

theorem composed_stepsFrom (done limit : Nat) :
    Composed (stepsFrom done limit : Exec arch Nat) := by
  induction limit generalizing done with
  | zero => exact .pure done
  | succ limit induction =>
      refine .look (fun _ _ => rfl) fun machine => ?_
      split
      · exact composed_step.bind fun _ => induction (done + 1)
      · exact .pure done

/-- A run is put together from parts. -/
theorem composed_run (limit : Nat) : Composed (run limit : Exec arch Nat) :=
  (composed_setRunning true).bind fun _ => composed_stepsFrom 0 limit

end Exec

end ClassroomCpu
