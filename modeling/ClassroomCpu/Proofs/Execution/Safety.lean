import ClassroomCpu.Proofs.Assembly.History
import ClassroomCpu.Proofs.Event.Replay
import ClassroomCpu.Proofs.Execution.Reference
import ClassroomCpu.Proofs.Machine.Masking
import ClassroomCpu.Proofs.Machine.Sound

/-!
# Whatever is done to a machine meets no fault

Instructions name registers, give their numbers, and lead to memory by
addresses of any size.  On the machines of the catalog all of these are there
whatever memory holds, so that no chain of actions ends in a fault.
-/

namespace ClassroomCpu

variable {arch : Architecture}

namespace Architecture

/-! ## Registers by name -/

/-- Access by a name meets no fault and is access to the register at a position, if any. -/
structure Names (arch : Architecture) (name : String)
    (position : Option (Fin arch.registers.length)) : Prop where
  reads : ∀ machine : Machine arch, machine.registerNamed name = .ok (machine.register? position)
  writes : ∀ (machine : Machine arch) (value : Int),
    machine.setRegisterNamed name value = .ok (machine.setRegister? value position)
  bits : Machine.registerBits arch name =
    .ok (position.elim 8 fun index => (arch.registers.get index).width)

/-- A name is empty or is the name of a register. -/
def KnowsRegister (arch : Architecture) (name : String) : Prop :=
  name.isEmpty = true ∨ (arch.registerIndex? name).isSome = true

theorem KnowsRegister.names {name : String} (known : arch.KnowsRegister name) :
    arch.Names name (arch.registerAt? name) := by
  by_cases nameless : name.isEmpty = true
  · constructor
    all_goals simp [Machine.registerNamed, Machine.setRegisterNamed, Machine.registerBits,
      registerAt?, nameless, Machine.register?, Machine.setRegister?]
  · obtain ⟨index, found⟩ := Option.isSome_iff_exists.mp (known.resolve_left nameless)
    constructor
    all_goals simp [Machine.registerNamed, Machine.setRegisterNamed, Machine.registerBits,
      registerAt?, nameless, Machine.register?, Machine.setRegister?, Machine.findRegister, found,
      Except.map]

/-- The name of a register is known. -/
theorem knowsRegister_of_mem {register : RegisterSpec} (member : register ∈ arch.registers) :
    arch.KnowsRegister register.name := by
  right
  cases found : arch.registerIndex? register.name with
  | some index => rfl
  | none =>
      have other := List.findFinIdx?_eq_none_iff.mp found register member
      simp [Text.sameLetters] at other

/-- The name that an opcode selects is known. -/
theorem knowsRegister_selectedName (opcode : UInt8) :
    arch.KnowsRegister (arch.selectedName opcode) := by
  unfold Datasheet.selectedName
  split
  · rename_i register found
    exact knowsRegister_of_mem (List.mem_of_find?_eq_some found)
  · exact .inl rfl

theorem isSome_registerIndex? {name : String} (found : (arch.registerNamed? name).isSome = true) :
    (arch.registerIndex? name).isSome = true := by
  obtain ⟨register, named⟩ := Option.isSome_iff_exists.mp found
  cases position : arch.registerIndex? name with
  | some index => rfl
  | none =>
      have other := List.findFinIdx?_eq_none_iff.mp position register
        (List.mem_of_find?_eq_some named)
      exact absurd (List.find?_some named) other

/-- A datasheet is only accepted if its accumulator is there, or it has none. -/
theorem knowsRegister_accumulatorName (arch : Architecture) :
    arch.KnowsRegister arch.accumulatorName := by
  have sound := arch.sound
  simp only [Datasheet.laterFault?, Option.or_eq_none_iff, Datasheet.accumulatorFault?] at sound
  by_cases accepted : (arch.accumulatorName.isEmpty ||
      (arch.registerNamed? arch.accumulatorName).isSome) = true
  · rcases Bool.or_eq_true_iff.mp accepted with nameless | named
    · exact .inl nameless
    · exact .inr (isSome_registerIndex? named)
  · simp [accepted] at sound

/-- The datasheet of an architecture is one that is accepted. -/
theorem check_toDatasheet (arch : Architecture) : arch.toDatasheet.check = .ok arch := by
  unfold Datasheet.check
  rw [dif_pos arch.memorySize_eq]
  split
  · rename_i missing
    rw [arch.counter_eq] at missing
    contradiction
  · rename_i counter named
    have same : arch.counter = counter := by
      rw [arch.counter_eq] at named
      exact Option.some.inj named
    subst same
    split
    · rename_i fault later
      rw [arch.sound] at later
      contradiction
    · rfl

/-! ## All that instructions refer to -/

/-- The name of the register that an instruction of a byte machine works on. -/
def workingName (arch : Architecture) (instruction : Instruction) (opcode : UInt8) : String :=
  if instruction.selectsRegister then arch.selectedName opcode else arch.accumulatorName

/-- Whatever an instruction refers to is there, for every byte in the place of its opcode. -/
structure Complete (arch : Architecture) : Prop where
  /-- The datasheet is accepted where a machine is made of it. -/
  accepted : arch.toDatasheet.check = .ok arch
  /-- The low bits of an address are a memory cell. -/
  cells : ∀ address : Nat, address &&& (arch.memorySize - 1) = arch.cell address
  /-- So are the low bits of a sum or a difference of addresses. -/
  wrapped : ∀ address : Int,
    (BitVec.ofInt 64 address &&& BitVec.ofNat 64 (arch.memorySize - 1)).toNat = arch.wrap address
  /-- The low bits of an index are a cell of a stack, if there is one. -/
  stack : ∀ index : Nat, 0 < arch.stackSize → index &&& (arch.stackSize - 1) < arch.stackSize
  /-- The program counter wraps around where memory does. -/
  counter : arch.counterSize = arch.memorySize
  /-- The register that an instruction works on is there, or there is none. -/
  working : ∀ opcode instruction, arch.instruction? opcode = some instruction →
    arch.Names (arch.workingName instruction opcode) (arch.workingRegister? instruction opcode)
  /-- The index register is there if operands are relative to it. -/
  index : arch.model ≠ .word → ∀ opcode, arch.addressingKind opcode = .indexedByX →
    ∃ position, arch.Names indexRegisterName (some position)
  /-- A machine with a stack has the stack pointer. -/
  stackPointer : arch.model ≠ .standard →
    ∃ position, arch.registerAt? arch.stackPointerName = some position ∧
      arch.Names arch.stackPointerName (some position)
  /-- Every number that an opcode or operand gives is that of a register. -/
  numbered : arch.model = .word → ∀ bits, FetchedWord.registerNumber bits < arch.registers.length
  /-- Registers have bits and instructions have bytes. -/
  widths : ∀ register ∈ arch.registers, 0 < register.width
  sizes : ∀ (machine : Machine arch) (address : Nat), 0 < (machine.instructionText address).size

theorem size_instructionText_pos (machine : Machine arch) (address : Nat) :
    0 < (machine.instructionText address).size := by
  by_cases wordMachine : arch.model = .word
  · unfold Machine.instructionText
    dsimp only
    cases arch.instruction? (machine.peek address) with
    | none => exact Nat.one_pos
    | some instruction =>
        simp only [wordMachine, Datasheet.instructionBytes]
        split
        · omega
        · rw [Instruction.foldl_operandBytes]
          omega
  · rw [Machine.size_instructionText_byte wordMachine, opcodeBytes]
    split
    · exact Datasheet.instructionBytes_pos wordMachine _ _
    · exact Nat.one_pos

end Architecture

namespace Catalog

theorem isSome_stackPointer :
    ∀ arch ∈ machines, arch.model ≠ .standard →
      (arch.registerAt? arch.stackPointerName).isSome = true :=
  forall_machine (by decide) (by decide) (by decide) (by decide) (by decide) (by decide)
    (by decide)

theorem memorySize_le : ∀ arch ∈ machines, arch.memorySize.log2 ≤ 64 :=
  forall_machine (by decide) (by decide) (by decide) (by decide) (by decide) (by decide)
    (by decide)

/-- Every machine of the catalog has all that its instructions refer to. -/
theorem complete (arch : Architecture) (known : arch ∈ machines) : arch.Complete where
  accepted := arch.check_toDatasheet
  cells := arch.masked_eq_cell
  wrapped := arch.maskedWord_eq_wrap (memorySize_le arch known)
  stack index there := Nat.lt_of_le_of_lt Nat.and_le_right (Nat.sub_lt there Nat.one_pos)
  counter := by
    rcases byte_or_word arch known with ⟨_, _, facts⟩ | ⟨_, regular, _⟩
    · exact facts.size
    · exact regular.size
  working opcode instruction _ := by
    apply Architecture.KnowsRegister.names
    unfold Architecture.workingName
    split
    · exact Architecture.knowsRegister_selectedName opcode
    · exact arch.knowsRegister_accumulatorName
  index byteMachine opcode indexed := by
    rcases byte_or_word arch known with ⟨_, _, facts⟩ | ⟨_, regular, _⟩
    · obtain ⟨position, found⟩ := Option.isSome_iff_exists.mp (facts.index opcode indexed)
      have names : arch.Names indexRegisterName _ :=
        Architecture.KnowsRegister.names (.inr (facts.index opcode indexed))
      have there : arch.registerAt? indexRegisterName = some position := found
      exact ⟨position, there ▸ names⟩
    · exact absurd regular.model byteMachine
  stackPointer hasStack := by
    obtain ⟨position, found⟩ :=
      Option.isSome_iff_exists.mp (isSome_stackPointer arch known hasStack)
    have name : arch.KnowsRegister arch.stackPointerName := by
      unfold Architecture.registerAt? at found
      split at found
      · contradiction
      · exact .inr (by rw [found]; rfl)
    exact ⟨position, found, found ▸ name.names⟩
  numbered wordMachine bits := by
    rcases byte_or_word arch known with ⟨sound, _, _⟩ | ⟨_, regular, _⟩
    · exact absurd wordMachine sound.model
    · exact regular.registerNumber_lt bits
  widths register _ := register.width_pos
  sizes := Architecture.size_instructionText_pos

end Catalog

/-! ## Actions -/

/-- The machine after a computation, or the fault that ended it. -/
def Exec.outcome {α : Type} (computation : Exec arch α) (machine : Machine arch) :
    Except Fault (Machine arch) :=
  match computation machine with
  | .ok _ after => .ok after
  | .error fault _ => .error fault

namespace Machine

/-- The machine after an action, or the fault that ended it. -/
def attempt (machine : Machine arch) (action : Action) : Except Fault (Machine arch) :=
  match action with
  | .setRegister name value => machine.setRegisterNamed name value
  | .setFlag name value => machine.setFlagNamed name value
  | .step => Exec.step.outcome machine
  | .run limit => (Exec.run limit).outcome machine
  | .assemble assembler source =>
      let built := assembler.assemble machine source
      match built.fault with
      | some fault => .error fault
      | none => .ok built.machine
  | action => .ok (machine.perform action)

/-- The machine after some actions, or the fault that ended the first one that met any. -/
def attemptAll (machine : Machine arch) (actions : List Action) : Except Fault (Machine arch) :=
  actions.foldlM attempt machine

/-- What an action names is there; an empty name is no register. -/
def Action.Legal (arch : Architecture) : Action → Prop
  | .setRegister name _ => arch.KnowsRegister name
  | .setFlag name _ => (arch.flagIndex? name).isSome = true
  | _ => True

end Machine

namespace Exec

variable {α : Type}

theorem outcome_of_ends {computation : Exec arch α} {machine : Machine arch}
    {described : α → Machine arch → Prop} (ends : Ends computation machine described) :
    computation.outcome machine = .ok (computation.after machine) := by
  obtain ⟨result, after, same, _⟩ := ends
  simp only [outcome, Exec.after, same]

/-- No step meets a fault, whatever the machine holds. -/
theorem total_step (known : arch ∈ Catalog.machines) : Total (step : Exec arch Unit) := by
  rcases Catalog.byte_or_word arch known with ⟨sound, _, facts⟩ | ⟨_, regular, pointer⟩
  · exact total_step_of_byte sound.model facts
  · exact total_step_of_word regular pointer

theorem total_stepsFrom (known : arch ∈ Catalog.machines) (done limit : Nat) :
    Total (stepsFrom done limit : Exec arch Nat) := by
  induction limit generalizing done with
  | zero => exact .of_pure done
  | succ limit induction =>
      refine (Total.of_keeps .of_get).bind fun machine => ?_
      split
      · exact (total_step known).bind fun _ => induction (done + 1)
      · exact .of_pure done

theorem total_run (known : arch ∈ Catalog.machines) (limit : Nat) :
    Total (run limit : Exec arch Nat) :=
  (Total.of_keeps (keeps_setRunning true)).bind fun _ => total_stepsFrom known 0 limit

/-- A step leaves a sound machine sound. -/
theorem ends_step_of_sound (known : arch ∈ Catalog.machines) {machine : Machine arch}
    (sound : machine.Sound) : Ends step machine fun _ after => after.Sound := by
  obtain ⟨result, after, ends, _⟩ := total_step known machine
  refine ⟨result, after, ends, ?_⟩
  have same : step.after machine = after := by simp only [Exec.after, ends]
  exact same ▸ sound.of_changes (writes_step machine).changes

end Exec

namespace Machine

/-- A legal action meets no fault, and is performed. -/
theorem attempt_eq_perform (known : arch ∈ Catalog.machines) (machine : Machine arch)
    {action : Action} (legal : action.Legal arch) :
    machine.attempt action = .ok (machine.perform action) := by
  cases action with
  | setRegister name value =>
      have set := (Architecture.KnowsRegister.names legal).writes machine value
      simp only [attempt, perform, set]
      rfl
  | setFlag name value =>
      obtain ⟨index, found⟩ := Option.isSome_iff_exists.mp legal
      have set : machine.setFlagNamed name value = .ok (machine.setFlag index value) := by
        simp [setFlagNamed, findFlag, found, Except.map]
      simp only [attempt, perform, set]
      rfl
  | step => exact Exec.outcome_of_ends (Exec.total_step known machine)
  | run limit => exact Exec.outcome_of_ends (Exec.total_run known limit machine)
  | assemble assembler source =>
      have noFault := Assembly.Assembler.fault_assemble assembler machine source known
      simp only [attempt, perform, noFault]
  | _ => rfl

/-- Legal actions on a sound machine meet no fault and leave it sound. -/
theorem sound_attemptAll (known : arch ∈ Catalog.machines) {machine : Machine arch}
    (sound : machine.Sound) {actions : List Action}
    (legal : ∀ action ∈ actions, action.Legal arch) :
    ∃ after, machine.attemptAll actions = .ok after ∧ after.Sound := by
  induction actions generalizing machine with
  | nil => exact ⟨machine, rfl, sound⟩
  | cons action actions induction =>
      have first := machine.attempt_eq_perform known (legal action List.mem_cons_self)
      obtain ⟨after, ends, soundAfter⟩ :=
        induction (sound.of_changes (changes_perform machine action))
          fun other member => legal other (List.mem_cons_of_mem _ member)
      refine ⟨after, ?_, soundAfter⟩
      rw [attemptAll, List.foldlM_cons, first]
      exact ends

/--
A machine of the catalog has all that its instructions refer to.  Legal actions on a new one meet
no fault; afterwards its tables are complete, no register holds more than its bits, the program
counter is in memory, and one more step meets no fault either.
-/
theorem attemptAll_safe (arch : Architecture) (known : arch ∈ Catalog.machines)
    (actions : List Action) (legal : ∀ action ∈ actions, action.Legal arch) :
    arch.Complete ∧
      ∃ after, (Machine.new arch).attemptAll actions = .ok after ∧ after.Sound ∧
        after.counter < arch.memorySize ∧
          Exec.Ends Exec.step after fun _ next =>
            next.Sound ∧ next.counter < arch.memorySize := by
  have complete := Catalog.complete arch known
  obtain ⟨after, ends, sound⟩ := sound_attemptAll known (.new arch) legal
  refine ⟨complete, after, ends, sound, sound.counter_lt complete.counter, ?_⟩
  exact (Exec.ends_step_of_sound known sound).mono fun _ _ soundNext =>
    ⟨soundNext, soundNext.counter_lt complete.counter⟩

/-- A register is set beyond its bits, the program counter to a negative number. -/
theorem attemptAll_safe_cesar :
    let actions := [Action.setRegister "r6" 70000, .setRegister "" 1, .setCounter (-1),
      .setFlag "n" true, .poke 65535 0xF0, .run 3]
    Catalog.cesar.Complete ∧ (∀ action ∈ actions, action.Legal Catalog.cesar) ∧
      ∃ after, (Machine.new Catalog.cesar).attemptAll actions = .ok after ∧ after.Sound ∧
        after.counter < Catalog.cesar.memorySize ∧
          Exec.Ends Exec.step after fun _ next =>
            next.Sound ∧ next.counter < Catalog.cesar.memorySize := by
  intro actions
  have known : Catalog.cesar ∈ Catalog.machines := by simp [Catalog.machines]
  have legal : ∀ action ∈ actions, action.Legal Catalog.cesar := by
    simp only [actions, List.forall_mem_cons, List.not_mem_nil, false_implies, implies_true,
      and_true, Action.Legal, Architecture.KnowsRegister]
    decide
  obtain ⟨complete, safe⟩ := attemptAll_safe Catalog.cesar known actions legal
  exact ⟨complete, legal, safe⟩

end Machine

end ClassroomCpu
