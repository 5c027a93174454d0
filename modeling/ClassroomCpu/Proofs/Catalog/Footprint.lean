import ClassroomCpu.Proofs.Catalog.Calls
import ClassroomCpu.Proofs.Execution.Safety
import ClassroomCpu.Proofs.Execution.WordFootprint

/-!
# What a step may change

Each machine of the catalog has few instructions that write memory, and a step
changes nothing apart from what its instruction is there to change.
-/

namespace ClassroomCpu

open Assembly (cellsFrom)

namespace Catalog

variable {arch : Architecture}

/-! ## Facts about the datasheets -/

/-- Volta is the only machine with a stack apart from memory. -/
theorem volta_of_stack : ∀ arch ∈ machines, arch.model = .stack → arch = volta :=
  forall_machine nofun nofun nofun nofun nofun (fun _ => rfl) nofun

/-- Whether no instruction is a call. -/
def neverCalls (arch : Architecture) : Bool :=
  arch.instructions.all fun instruction => instruction.operation != .call

theorem operationAhead?_ne_call (never : neverCalls arch = true) (machine : Machine arch) :
    machine.operationAhead? ≠ some .call := by
  intro calls
  obtain ⟨instruction, known, operation⟩ := Option.map_eq_some_iff.mp calls
  have other := List.all_eq_true.mp never instruction (List.mem_of_find?_eq_some known)
  simp [operation] at other

/-- Ramses and Pericles are the only machines whose calls store an address in memory. -/
theorem ramses_or_pericles_of_call :
    ∀ arch ∈ machines, arch.model = .standard → ∀ machine : Machine arch,
      machine.operationAhead? = some .call → arch = ramses ∨ arch = pericles :=
  forall_machine
    (fun _ machine calls => absurd calls (operationAhead?_ne_call (by decide +kernel) machine))
    (fun _ machine calls => absurd calls (operationAhead?_ne_call (by decide +kernel) machine))
    (fun _ _ _ => .inl rfl) (fun _ _ _ => .inr rfl)
    (fun _ machine calls => absurd calls (operationAhead?_ne_call (by decide +kernel) machine))
    nofun nofun

/-! ## Byte machines -/

/-- The cells of memory that the next step of a byte machine may write. -/
inductive ByteWrite (machine : Machine arch) : Fin arch.memorySize → Prop where
  /-- A store and a pop write the cell of their operand. -/
  | operand (stores : machine.operationAhead? = some .store ∨
        machine.operationAhead? = some .pop) :
      ByteWrite machine (arch.cell machine.target)
  /-- A call of Ramses or Pericles writes an address where it leads. -/
  | link (owner : arch = ramses ∨ arch = pericles) (calls : machine.operationAhead? = some .call)
      {cell : Fin arch.memorySize}
      (there : cell ∈ cellsFrom arch machine.target arch.addressBytes) : ByteWrite machine cell

/-- The registers that the next step of a byte machine may move. -/
inductive ByteMove (machine : Machine arch) : Fin arch.registers.length → Prop where
  | counter : ByteMove machine arch.counter
  /-- The register that the opcode selects, or the accumulator. -/
  | working {instruction : Instruction} {index : Fin arch.registers.length}
      (known : arch.instruction? (machine.peek machine.counter) = some instruction)
      (selected : arch.workingRegister? instruction (machine.peek machine.counter) = some index) :
      ByteMove machine index
  /-- The stack pointer of Volta. -/
  | pointer {index : Fin arch.registers.length} (owner : arch = volta)
      (named : arch.registerAt? arch.stackPointerName = some index) : ByteMove machine index

/-- What the next step of a byte machine may change, its stack apart. -/
def byteFootprint (machine : Machine arch) : Footprint arch where
  memory := ByteWrite machine
  registers := ByteMove machine
  stack := none
  running := machine.operationAhead? = some .halt

theorem hasRoom_byteFootprint (machine : Machine arch) :
    machine.HasRoom (byteFootprint machine) where
  counter := .counter
  working _ known _ selected := .working known selected
  stores stores := .operand stores
  halts halts := halts

/-- A step of a byte machine stays within its footprint, a cell of the stack of Volta apart. -/
theorem covers_step_of_byte (member : arch ∈ machines) (byteMachine : arch.model ≠ .word)
    (machine : Machine arch) :
    Exec.Ends Exec.step machine fun _ after =>
      ∃ cell, (cell ≠ none → arch = volta) ∧
        ((byteFootprint machine).pushing cell).Covers machine after := by
  have facts := indexApart_of_byte arch member byteMachine
  have room := hasRoom_byteFootprint machine
  obtain ⟨result, after, ends, -⟩ := Exec.total_step member machine
  refine .of_eq ends ?_
  cases model : arch.model with
  | word => exact absurd model byteMachine
  | standard =>
      have within := Exec.within_step_of_standard facts room model fun calls cell there =>
        .link (ramses_or_pericles_of_call arch member model machine calls) calls there
      exact ⟨none, fun some => absurd rfl some, within result after ends⟩
  | stack =>
      have owner := volta_of_stack arch member model
      obtain ⟨cell, within⟩ := Exec.withinPush_step_of_stack facts room model fun index named =>
        .pointer owner named
      exact ⟨cell, fun _ => owner, within result after ends⟩

/-! ## Cesar -/

/-- The cells of memory that the next step of Cesar may write. -/
inductive WordWrite (machine : Machine cesar) : Fin cesar.memorySize → Prop where
  /-- A call writes the word below the stack, behind its operand. -/
  | saved (calls : machine.operationAhead? = some .call) {cell : Fin cesar.memorySize}
      (there : cell ∈ cellsFrom cesar
        (machine.stackCellAhead wordRegular_cesar cesarStackPointer) 2) : WordWrite machine cell
  /-- An instruction with one operand writes the word of the operand, unless it tests it. -/
  | one {operation : Operation} (writes : operation ∈ Operation.resultsOfOne)
      (ahead : machine.operationAhead? = some operation) {cell : Fin cesar.memorySize}
      (there : cell ∈ (machine.placeAhead wordRegular_cesar).cells cesar) : WordWrite machine cell
  /-- An instruction with two operands writes the word of the second one, unless it compares. -/
  | two {operation : Operation} (writes : operation ∈ Operation.resultsOfTwo)
      (ahead : machine.operationAhead? = some operation) {cell : Fin cesar.memorySize}
      (there : cell ∈ (machine.secondPlaceAhead wordRegular_cesar).cells cesar) :
      WordWrite machine cell

/-- What the next step of Cesar may change. -/
def wordFootprint (machine : Machine cesar) : Footprint cesar where
  memory := WordWrite machine
  registers _ := True
  stack := none
  running := machine.operationAhead? = some .halt

theorem hasWordRoom_wordFootprint (machine : Machine cesar) :
    machine.HasWordRoom wordRegular_cesar cesarStackPointer (wordFootprint machine) where
  everywhere _ := trivial
  saves calls _ there := .saved calls there
  stores _ writes ahead _ there := .one writes ahead there
  storesSecond _ writes ahead _ there := .two writes ahead there
  halts halts := halts

theorem covers_step_of_word (machine : Machine cesar) :
    Exec.Ends Exec.step machine fun _ after => (wordFootprint machine).Covers machine after := by
  have member : cesar ∈ machines := by simp [machines]
  obtain ⟨result, after, ends, -⟩ := Exec.total_step member machine
  exact .of_eq ends (Exec.within_step_of_word wordStackPointer_cesar
    (hasWordRoom_wordFootprint machine) result after ends)

/-! ## All machines -/

/--
On byte machines a step writes no memory but the cell of the operand of a store
or a pop, and on Ramses and Pericles the address that a call stores; no register
but the program counter, the one it works on and the stack pointer of Volta; and
at most one cell of the stack, on Volta.  On Cesar it writes no memory but the
word below the stack at a call, or the word of an operand in memory.  Only a
halt changes whether the machine runs, and texts and labels stay as they are.
-/
theorem step_changes_only :
    (∀ arch ∈ machines, arch.model ≠ .word → ∀ machine : Machine arch,
      Exec.Ends Exec.step machine fun _ after =>
        (∀ cell, after.memory.get cell ≠ machine.memory.get cell → ByteWrite machine cell) ∧
          (∀ index, after.register index ≠ machine.register index → ByteMove machine index) ∧
          (∀ cell other, after.stack.get cell ≠ machine.stack.get cell →
            after.stack.get other ≠ machine.stack.get other → arch = volta ∧ cell = other) ∧
          (after.running ≠ machine.running → machine.operationAhead? = some .halt) ∧
          after.labels = machine.labels ∧ after.texts = machine.texts) ∧
    (∀ machine : Machine cesar, Exec.Ends Exec.step machine fun _ after =>
      (∀ cell, after.memory.get cell ≠ machine.memory.get cell → WordWrite machine cell) ∧
        after.stack = machine.stack ∧
        (after.running ≠ machine.running → machine.operationAhead? = some .halt) ∧
        after.labels = machine.labels ∧ after.texts = machine.texts) := by
  constructor
  · intro arch member byteMachine machine
    apply (covers_step_of_byte member byteMachine machine).mono
    rintro _ after ⟨place, owner, covers⟩
    refine ⟨covers.memory, covers.registers, fun cell other changed changedOther => ?_,
      covers.running, covers.labels, covers.texts⟩
    have here : place = some cell := covers.stack cell changed
    have there : place = some other := covers.stack other changedOther
    refine ⟨owner (by simp [here]), ?_⟩
    rwa [here, Option.some.injEq] at there
  · intro machine
    apply (covers_step_of_word machine).mono
    intro _ after covers
    refine ⟨covers.memory, eq_of_get fun cell => ?_, covers.running, covers.labels, covers.texts⟩
    by_contra changed
    have nowhere := covers.stack cell changed
    contradiction

/-- Neander stores at 128 in one cell, and Cesar clears the two cells at the end of memory. -/
theorem step_changes_only_there :
    let storing := ((Machine.new neander).poke 0 0x10).poke 1 128
    let clearing := (((Machine.new cesar).poke 0 0x80).poke 1 0x21).setRegister
      ⟨1, by decide⟩ 65535
    (Exec.Ends Exec.step storing fun _ after =>
      ∀ cell, after.memory.get cell ≠ storing.memory.get cell → cell = neander.cell 128) ∧
      Exec.Ends Exec.step clearing fun _ after =>
        ∀ cell, after.memory.get cell ≠ clearing.memory.get cell →
          cell ∈ [cesar.cell 65535, cesar.cell 0] := by
  intro storing clearing
  constructor
  · have member : neander ∈ machines := by simp [machines]
    apply (step_changes_only.1 neander member (by decide) storing).mono
    rintro _ after ⟨memory, -⟩ cell changed
    have stores : storing.operationAhead? = some .store := by decide +kernel
    have target : storing.target = 128 := by decide +kernel
    cases memory cell changed with
    | operand => rw [target]
    | link _ calls _ =>
        rw [stores] at calls
        contradiction
  · apply (step_changes_only.2 clearing).mono
    rintro _ after ⟨memory, -⟩ cell changed
    have clears : clearing.operationAhead? = some .clear := by decide +kernel
    have place : clearing.placeAhead wordRegular_cesar = .memory 65535 := by decide +kernel
    cases memory cell changed with
    | saved calls _ =>
        rw [clears] at calls
        contradiction
    | one _ _ there => rwa [place] at there
    | two writes ahead _ =>
        rw [clears, Option.some.injEq] at ahead
        rw [← ahead] at writes
        contradiction

end Catalog

end ClassroomCpu
