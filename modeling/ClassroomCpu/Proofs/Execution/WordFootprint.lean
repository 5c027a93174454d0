import ClassroomCpu.Proofs.Execution.ByteFootprint
import ClassroomCpu.Proofs.Execution.WordCalls

/-!
# Footprints of word machines

Finding an operand of a word machine moves a register and leaves memory alone,
so that it can be told where an operand lies.  A step writes nothing in memory
but the word of an operand, or the word below the stack at a call.
-/

namespace ClassroomCpu

open Assembly (cellsFrom)
open Exec

variable {arch : Architecture} {footprint : Footprint arch}

/-- The cells of a location in memory. -/
def Location.cells (arch : Architecture) : Location → List (Fin arch.memorySize)
  | .register _ => []
  | .memory address => cellsFrom arch address 2

namespace Operation

/-- The operations of a word machine that put a result where their only operand is. -/
def resultsOfOne : List Operation :=
  [.clear, .not, .inc, .dec, .neg, .rotateRight, .rotateLeft, .halve, .double, .addCarry,
    .subCarry]

/-- The operations of a word machine that put a result where their second operand is. -/
def resultsOfTwo : List Operation :=
  [.move, .add, .sub, .and, .or]

end Operation

/-! ## Where operands lie -/

namespace Machine

variable (machine : Machine arch)

/-- The cell to which a word in memory points. -/
def pointedCell (pointer : Nat) : Fin arch.memorySize :=
  arch.cell (machine.peekNumber .big 2 pointer)

/-- The machine with its program counter behind the next word. -/
def pastWord : Machine arch :=
  machine.setCounter (machine.counter + 2)

/-- The cell to which the sum of a register and the next word leads; the word is passed over. -/
def indexedCell (index : Fin arch.registers.length) : Fin arch.memorySize :=
  arch.cell (machine.pastWord.register index + machine.peekNumber .big 2 machine.counter)

/-- Where an operand of the given kind lies that is found through a register. -/
def operandPlace (kind : AddressingMode.Kind) (index : Fin arch.registers.length) : Location :=
  let value := machine.register index
  match kind with
  | .postIncrement | .immediate | .registerIndirect => .memory (arch.cell value)
  | .preDecrement => .memory (arch.wrap ((value : Int) - 2))
  | .indexed => .memory (machine.indexedCell index)
  | .postIncrementIndirect | .direct => .memory (machine.pointedCell (arch.cell value))
  | .preDecrementIndirect => .memory (machine.pointedCell (arch.wrap ((value : Int) - 2)))
  | .indexedIndirect => .memory (machine.pointedCell (machine.indexedCell index))
  | _ => .register index

/-- The machine with its registers as they are once the operand was found. -/
def pastPlace (kind : AddressingMode.Kind) (index : Fin arch.registers.length) : Machine arch :=
  let value := machine.register index
  match kind with
  | .postIncrement | .immediate | .postIncrementIndirect | .direct =>
      machine.setRegister index (value + 2)
  | .preDecrement | .preDecrementIndirect => machine.setRegister index ((value : Int) - 2)
  | .indexed | .indexedIndirect => machine.pastWord
  | _ => machine

variable {machine} {other : Machine arch}

theorem SameCells.register (same : machine.SameCells other) (index : Fin arch.registers.length) :
    other.register index = machine.register index := by
  rw [Machine.register, same.registers, Machine.register]

theorem SameCells.pastWord (same : machine.SameCells other) :
    machine.pastWord.SameCells other.pastWord where
  memory := same.memory
  registers := by
    change (other.registers.set _ _) = machine.registers.set _ _
    rw [same.registers, same.counter]
  stack := same.stack

/-- Memory and registers tell where an operand lies. -/
theorem SameCells.operandPlace (same : machine.SameCells other) (kind : AddressingMode.Kind)
    (index : Fin arch.registers.length) :
    other.operandPlace kind index = machine.operandPlace kind index := by
  have pointed (pointer : Nat) : other.pointedCell pointer = machine.pointedCell pointer := by
    rw [pointedCell, peekNumber_of_memory same.memory, pointedCell]
  have indexed : other.indexedCell index = machine.indexedCell index := by
    rw [indexedCell, same.pastWord.register, same.counter, peekNumber_of_memory same.memory,
      indexedCell]
  simp only [Machine.operandPlace, same.register, pointed, indexed]

end Machine

namespace Exec

/-- An operand lies at its place, and is found by moving a register alone. -/
theorem ends_locate_place (kind : AddressingMode.Kind) (index : Fin arch.registers.length)
    (machine : Machine arch) :
    Ends (locate kind index) machine fun location found =>
      location = machine.operandPlace kind index ∧
        (machine.pastPlace kind index).SameCells found := by
  have read (machine : Machine arch) := readRegister_apply index machine
  have write (value : Int) := writeRegister_apply index value machine
  have same (machine : Machine arch) : machine.SameCells machine := ⟨rfl, rfl, rfl⟩
  have next := nextWord_apply machine
  have counted := machine.sameCells_countAccesses 2
  have past : machine.pastWord.SameCells
      ((machine.countAccesses 2).setCounter (machine.counter + 2)) := by
    have passed := counted.pastWord
    rwa [Machine.pastWord, Machine.pastWord, counted.counter] at passed
  unfold locate Machine.operandPlace Machine.pastPlace
  cases kind with
  | postIncrement | immediate =>
      exact .after (read machine) (.after (write _) (.of_pure ⟨rfl, same _⟩))
  | preDecrement => exact .after (read machine) (.after (write _) (.of_pure ⟨rfl, same _⟩))
  | registerIndirect => exact .after (read machine) (.of_pure ⟨rfl, same _⟩)
  | postIncrementIndirect | direct | preDecrementIndirect =>
      exact .after (read machine) (.after (write _) (.of_eq (follow_apply _ _)
        ⟨rfl, Machine.sameCells_countAccesses _ 2⟩))
  | indexed =>
      refine .after next (.after (read _) (.of_pure ⟨?_, past⟩))
      rw [past.register]
      rfl
  | indexedIndirect =>
      refine .after next (.after (read _) (.of_eq (follow_apply _ _)
        ⟨?_, past.trans (Machine.sameCells_countAccesses _ 2)⟩))
      rw [past.register, Machine.peekNumber_of_memory past.memory]
      rfl
  | _ => exact .of_pure ⟨rfl, same machine⟩

/-- Reading an operand leaves memory and registers alone. -/
theorem sameCells_load {location : Location} {machine after : Machine arch} {value : Nat}
    (loads : load location machine = .ok value after) : machine.SameCells after := by
  cases location with
  | register number =>
      by_cases inside : number < arch.registers.length
      · have reads := readRegister_apply ⟨number, inside⟩ machine
        change readRegister number machine = _ at reads
        rw [load, reads] at loads
        cases loads
        exact ⟨rfl, rfl, rfl⟩
      · rw [load, readRegister, numberedRegister, dif_neg inside] at loads
        contradiction
  | memory address =>
      rw [load, readWord_apply] at loads
      cases loads
      exact machine.sameCells_countAccesses 2

/-! ## Pieces -/

section Pieces

variable (machine : Machine arch)

theorem within_readRegister (number : Nat) : Within footprint (readRegister number) machine := by
  unfold readRegister numberedRegister
  split
  · exact .bind (.of_pure _) fun _ _ _ => .bind .of_get fun _ _ _ => .of_pure _
  · exact .bind (.of_throw _) fun _ between _ => .bind .of_get fun _ _ _ => .of_pure _

theorem within_load (location : Location) : Within footprint (load location) machine := by
  cases location with
  | register number => exact within_readRegister machine number
  | memory address => exact within_readWord machine address

theorem within_setWordCodes (value : Nat) (overflow carry : Bool) :
    Within footprint (setWordCodes value overflow carry) machine :=
  (within_setSignAndZero machine _ _).bind fun _ between _ =>
    (within_setCode between _ _).bind fun _ next _ => within_setCode next _ _

theorem within_setLogicCodes (value : Nat) : Within footprint (setLogicCodes value) machine :=
  (within_setSignAndZero machine _ _).bind fun _ between _ => within_setCode between _ _

theorem within_forM_setCode (codes : List FlagCode) (value : Bool) :
    Within footprint (codes.forM fun code => setCode code value) machine := by
  induction codes generalizing machine with
  | nil => exact .of_pure ()
  | cons code codes induction =>
      exact (within_setCode machine code value).bind fun _ between _ => induction between

variable (everywhere : ∀ index, footprint.registers index)
include everywhere

theorem within_writeRegister (number : Nat) (value : Int) :
    Within footprint (writeRegister number value) machine := by
  unfold writeRegister numberedRegister
  split
  · exact .bind (.of_pure _) fun _ between _ =>
      .of_modify (.setRegister (everywhere _) between value)
  · exact .bind (.of_throw _) fun _ between _ =>
      .of_modify (.setRegister (everywhere _) between value)

theorem within_nextWord : Within footprint nextWord machine :=
  (within_counter machine).bind fun _ between _ => (within_readWord between _).bind fun _ next _ =>
    (within_setCounter next (everywhere _) _).bind fun _ _ _ => .of_pure _

theorem within_locate (kind : AddressingMode.Kind) (number : Nat) :
    Within footprint (locate kind number) machine := by
  have read (machine : Machine arch) : Within footprint (readRegister number) machine :=
    within_readRegister machine number
  have write (value : Int) (machine : Machine arch) :
      Within footprint (writeRegister number value) machine :=
    within_writeRegister machine everywhere number value
  have follows (pointer : Nat) (machine : Machine arch) :
      Within footprint (follow pointer) machine :=
    (within_readWord machine pointer).bind fun _ _ _ => .of_pure _
  have next : Within footprint nextWord machine := within_nextWord machine everywhere
  unfold locate
  cases kind with
  | postIncrement | immediate | preDecrement =>
      exact (read machine).bind fun _ between _ => (write _ between).bind fun _ _ _ => .of_pure _
  | indexed => exact next.bind fun _ between _ => (read between).bind fun _ _ _ => .of_pure _
  | registerIndirect => exact (read machine).bind fun _ _ _ => .of_pure _
  | postIncrementIndirect | direct | preDecrementIndirect =>
      exact (read machine).bind fun _ between _ => (write _ between).bind fun _ last _ =>
        follows _ last
  | indexedIndirect =>
      exact next.bind fun _ between _ => (read between).bind fun _ last _ => follows _ last
  | _ => exact .of_pure _

theorem within_store {location : Location}
    (allowed : ∀ cell ∈ location.cells arch, footprint.memory cell) (value : Nat) :
    Within footprint (store value location) machine := by
  cases location with
  | register number => exact within_writeRegister machine everywhere number _
  | memory address =>
      apply within_writeBytes machine
      rw [ByteOrder.length_encode]
      exact allowed

variable {pointer : Fin arch.registers.length}
  (points : (wordStackPointer : Exec arch (Fin arch.registers.length)) = pure pointer)
include points

theorem within_pushWord (value : Nat)
    (allowed : ∀ cell ∈ cellsFrom arch (arch.wrap ((machine.register pointer : Int) - 2)) 2,
      footprint.memory cell) : Within footprint (pushWord value) machine := by
  unfold pushWord
  rw [points]
  refine .bind (.of_pure pointer) ?_
  rintro _ _ ⟨⟩
  refine .bind .of_get ?_
  rintro _ _ ⟨⟩
  refine .bind (.of_modify (.setRegister (everywhere pointer) machine _)) fun _ between _ => ?_
  apply within_writeBytes between
  rw [ByteOrder.length_encode]
  exact allowed

theorem within_popWord : Within footprint popWord machine := by
  unfold popWord
  rw [points]
  refine .bind (.of_pure pointer) fun _ between _ => .bind .of_get fun _ next _ =>
    (within_readWord next _).bind fun _ last _ => ?_
  exact .bind (.of_modify (.setRegister (everywhere _) last _)) fun _ _ _ => .of_pure _

end Pieces

end Exec

/-! ## Instructions -/

namespace FetchedWord

variable {fetched : FetchedWord arch} {machine : Machine arch}
  {pointer : Fin arch.registers.length}

/-- Access to the operands of an instruction changes registers alone. -/
structure Locates (fetched : FetchedWord arch) (footprint : Footprint arch) : Prop where
  operand : ∀ machine, Within footprint fetched.operand.locate machine
  source : ∀ machine, Within footprint fetched.source.locate machine
  destination : ∀ machine, Within footprint fetched.destination.locate machine
  load : ∀ location machine, Within footprint (fetched.operand.load location) machine
  loadSource : ∀ location machine, Within footprint (fetched.source.load location) machine
  loadDestination : ∀ location machine,
    Within footprint (fetched.destination.load location) machine

theorem locates_ofBytes (everywhere : ∀ index, footprint.registers index)
    (instruction : Instruction) (opcode second : UInt8) :
    (ofBytes arch instruction opcode second).Locates footprint where
  operand machine := within_locate machine everywhere _ _
  source machine := within_locate machine everywhere _ _
  destination machine := within_locate machine everywhere _ _
  load location machine := within_load machine location
  loadSource location machine := within_load machine location
  loadDestination location machine := within_load machine location

/-- There is room for what an instruction that is executed at a machine may change. -/
structure HasRoom (fetched : FetchedWord arch) (pointer : Fin arch.registers.length)
    (machine : Machine arch) (footprint : Footprint arch) : Prop where
  everywhere : ∀ index, footprint.registers index
  saves : fetched.instruction.operation = .call →
    ∀ location found, fetched.operand.locate machine = .ok location found →
      ∀ cell ∈ cellsFrom arch (arch.wrap ((found.register pointer : Int) - 2)) 2,
        footprint.memory cell
  stores : fetched.instruction.operation ∈ Operation.resultsOfOne →
    ∀ location found, fetched.operand.locate machine = .ok location found →
      ∀ cell ∈ location.cells arch, footprint.memory cell
  storesSecond : fetched.instruction.operation ∈ Operation.resultsOfTwo →
    ∀ place between, fetched.source.locate machine = .ok place between →
      ∀ value next, fetched.source.load place between = .ok value next →
        ∀ location found, fetched.destination.locate next = .ok location found →
          ∀ cell ∈ location.cells arch, footprint.memory cell
  halts : fetched.instruction.operation = .halt → footprint.running

variable (locates : fetched.Locates footprint) (room : fetched.HasRoom pointer machine footprint)

theorem within_branch (counter : footprint.registers arch.counter) (condition : Condition) :
    Within footprint (fetched.branch condition) machine := by
  refine (within_status machine).bind fun _ between _ => ?_
  split
  · exact (within_counter between).bind fun _ next _ => within_setCounter next counter _
  · exact .of_pure ()

theorem within_loop (everywhere : ∀ index, footprint.registers index) :
    Within footprint fetched.loop machine := by
  refine (within_readRegister machine _).bind fun _ between _ =>
    (within_writeRegister between everywhere _ _).bind fun _ next _ =>
      (within_readRegister next _).bind fun _ last _ => ?_
  split
  · exact (within_counter last).bind fun _ other _ => within_setCounter other (everywhere _) _
  · exact .of_pure ()

include locates

theorem within_jump (counter : footprint.registers arch.counter) :
    Within footprint fetched.jump machine := by
  unfold jump
  split
  · refine (locates.operand machine).bind fun _ between _ => ?_
    split
    · exact within_setCounter between counter _
    · exact .of_pure ()
  · exact .of_pure ()

include room

theorem within_computeOnWord
    (one : fetched.instruction.operation ≠ .test →
      fetched.instruction.operation ∈ Operation.resultsOfOne) :
    Within footprint fetched.computeOnWord machine := by
  refine (locates.operand machine).bind fun location between found =>
    (locates.load location between).bind fun _ next _ =>
      (within_status next).bind fun _ last _ => ?_
  split
  · dsimp only
    split
    · rename_i stores
      exact (within_store last room.everywhere (room.stores (one stores) location between found)
        _).bind fun _ other _ => within_setWordCodes other _ _ _
    · exact within_setWordCodes last _ _ _
  · exact .of_pure ()

theorem within_computeOnWords : Within footprint fetched.computeOnWords machine := by
  refine (locates.source machine).bind fun place between foundSource =>
    (locates.loadSource place between).bind fun source next loaded =>
      (locates.destination next).bind fun location found foundDestination => ?_
  have store (two : fetched.instruction.operation ∈ Operation.resultsOfTwo) (value : Nat)
      (machine : Machine arch) : Within footprint (store value location) machine :=
    within_store machine room.everywhere (room.storesSecond two place between foundSource source
      next loaded location found foundDestination) value
  have load := locates.loadDestination location found
  have codes (value : Nat) (overflow carry : Bool) (machine : Machine arch) :
      Within footprint (setWordCodes value overflow carry) machine :=
    within_setWordCodes machine value overflow carry
  have logic (value : Nat) (machine : Machine arch) :
      Within footprint (setLogicCodes value) machine := within_setLogicCodes machine value
  cases operation : fetched.instruction.operation with
  | move =>
      exact (store (by simp [operation, Operation.resultsOfTwo]) _ found).bind fun _ last _ =>
        logic _ last
  | add | sub =>
      exact load.bind fun _ other _ =>
        (store (by simp [operation, Operation.resultsOfTwo]) _ other).bind fun _ last _ =>
          codes _ _ _ last
  | compare => exact load.bind fun _ other _ => codes _ _ _ other
  | and | or =>
      exact load.bind fun _ other _ =>
        (store (by simp [operation, Operation.resultsOfTwo]) _ other).bind fun _ last _ =>
          logic _ last
  | _ => exact .of_pure ()

variable (points : (wordStackPointer : Exec arch (Fin arch.registers.length)) = pure pointer)
include points

omit locates room in
theorem within_ret (everywhere : ∀ index, footprint.registers index) :
    Within footprint fetched.ret machine :=
  (within_readRegister machine _).bind fun _ between _ =>
    (within_setCounter between (everywhere _) _).bind fun _ next _ =>
      (within_popWord next everywhere points).bind fun _ last _ =>
        within_writeRegister last everywhere _ _

theorem within_call (calls : fetched.instruction.operation = .call) :
    Within footprint fetched.call machine := by
  unfold call
  split
  · refine (locates.operand machine).bind fun location found finds => ?_
    split
    · rename_i target
      by_cases inside : fetched.number < arch.registers.length
      · have reads := readRegister_apply ⟨fetched.number, inside⟩ found
        change readRegister fetched.number found = _ at reads
        refine (within_readRegister found _).bind fun saved other same => ?_
        rw [reads] at same
        cases same
        exact (within_pushWord found room.everywhere points _
          (room.saves calls _ found finds)).bind fun _ between _ =>
            (within_counter between).bind fun _ next _ =>
              (within_writeRegister next room.everywhere _ _).bind fun _ last _ =>
                within_setCounter last (room.everywhere _) _
      · refine (within_readRegister found _).bind fun saved other same => ?_
        rw [readRegister, numberedRegister, dif_neg inside] at same
        contradiction
    · exact .of_pure ()
  · exact .of_pure ()

theorem within_execute : Within footprint fetched.execute machine := by
  have everywhere := room.everywhere
  unfold execute
  cases operation : fetched.instruction.operation with
  | clearFlags => exact within_forM_setCode machine _ false
  | setFlags => exact within_forM_setCode machine _ true
  | branch condition => exact within_branch (everywhere _) condition
  | loop => exact within_loop everywhere
  | jump test =>
      cases test with
      | always => exact within_jump locates (everywhere _)
      | _ => exact .of_pure ()
  | call => exact within_call locates room points operation
  | ret => exact within_ret points everywhere
  | clear =>
      refine (locates.operand machine).bind fun location between found => ?_
      have one : fetched.instruction.operation ∈ Operation.resultsOfOne := by
        simp [operation, Operation.resultsOfOne]
      exact (within_store between everywhere (room.stores one location between found) _).bind
        fun _ next _ => within_setWordCodes next _ _ _
  | not | inc | dec | neg | test | rotateRight | rotateLeft | halve | double | addCarry
  | subCarry =>
      apply within_computeOnWord locates room
      simp [operation, Operation.resultsOfOne]
  | move | add | sub | compare | and | or => exact within_computeOnWords locates room
  | halt => exact within_setRunning machine (room.halts operation) false
  | _ => exact .of_pure ()

end FetchedWord

/-! ## Steps -/

namespace Machine

section Ahead

variable (machine : Machine arch) (regular : arch.WordRegular)

/-- Where an operand with the given bits lies. -/
def placeOf (bits : UInt8) : Location :=
  machine.operandPlace (operandKind arch bits) (regular.selected bits)

/-- The machine with its registers as they are once the operand with the given bits was found. -/
def pastOperandOf (bits : UInt8) : Machine arch :=
  machine.pastPlace (operandKind arch bits) (regular.selected bits)

/-- Where the only operand of the next instruction lies. -/
def placeAhead : Location :=
  machine.pastOpcode.pastOpcode.placeOf regular (machine.peek (machine.counter + 1))

/-- The cell below the stack, once the only operand of the next instruction was found. -/
def stackCellAhead (pointer : Fin arch.registers.length) : Fin arch.memorySize :=
  let found := machine.pastOpcode.pastOpcode.pastOperandOf regular
    (machine.peek (machine.counter + 1))
  arch.wrap ((found.register pointer : Int) - 2)

/-- Where the second operand of the next instruction lies, once the first one was found. -/
def secondPlaceAhead : Location :=
  let opcode := machine.peek machine.counter
  let second := machine.peek (machine.counter + 1)
  let found := machine.pastOpcode.pastOpcode.pastOperandOf regular
    (FetchedWord.sourceBits opcode second)
  found.placeOf regular (FetchedWord.destinationBits opcode second)

/-- There is room for what the next step of a word machine may change. -/
structure HasWordRoom (pointer : Fin arch.registers.length) (footprint : Footprint arch) :
    Prop where
  everywhere : ∀ index, footprint.registers index
  saves : machine.operationAhead? = some .call →
    ∀ cell ∈ cellsFrom arch (machine.stackCellAhead regular pointer) 2, footprint.memory cell
  stores : ∀ operation ∈ Operation.resultsOfOne, machine.operationAhead? = some operation →
    ∀ cell ∈ (machine.placeAhead regular).cells arch, footprint.memory cell
  storesSecond : ∀ operation ∈ Operation.resultsOfTwo, machine.operationAhead? = some operation →
    ∀ cell ∈ (machine.secondPlaceAhead regular).cells arch, footprint.memory cell
  halts : machine.operationAhead? = some .halt → footprint.running

end Ahead

variable {machine : Machine arch} {regular : arch.WordRegular}
  {pointer : Fin arch.registers.length} {instruction : Instruction}

/-- An operand is found at its place. -/
theorem located (regular : arch.WordRegular) (bits : UInt8) {machine found : Machine arch}
    {location : Location}
    (finds : (WordOperand.ofBits arch bits).locate machine = .ok location found) :
    location = machine.placeOf regular bits ∧
      (machine.pastOperandOf regular bits).SameCells found := by
  obtain ⟨_, _, ends, same, cells⟩ :=
    ends_locate_place (operandKind arch bits) (regular.selected bits) machine
  change (WordOperand.ofBits arch bits).locate machine = _ at ends
  rw [finds] at ends
  cases ends
  exact ⟨same, cells⟩

theorem HasWordRoom.ofBytes (room : machine.HasWordRoom regular pointer footprint)
    (known : arch.instruction? (machine.peek machine.counter) = some instruction) :
    (FetchedWord.ofBytes arch instruction (machine.peek machine.counter)
      (machine.peek (machine.counter + 1))).HasRoom pointer machine.pastOpcode.pastOpcode
        footprint where
  everywhere := room.everywhere
  saves calls location found finds := by
    rw [(located regular _ finds).2.register]
    exact room.saves ((operationAhead?_eq known).trans (congrArg some calls))
  stores one location found finds := by
    rw [(located regular _ finds).1]
    exact room.stores _ one (operationAhead?_eq known)
  storesSecond two place between finds value next loads location found findsSecond := by
    have first := (located regular _ finds).2
    have same := first.trans (sameCells_load loads)
    rw [(located regular _ findsSecond).1, placeOf, same.operandPlace]
    exact room.storesSecond _ two (operationAhead?_eq known)
  halts halts := room.halts ((operationAhead?_eq known).trans (congrArg some halts))

/-- Instructions of a single byte change no more than the program counter and registers. -/
theorem HasWordRoom.ofByte (room : machine.HasWordRoom regular pointer footprint)
    (known : arch.instruction? (machine.peek machine.counter) = some instruction)
    (single : instruction.size = 1) :
    (FetchedWord.ofBytes arch instruction (machine.peek machine.counter) 0).HasRoom pointer
      machine.pastOpcode footprint := by
  have shape := regular.shapes instruction (List.mem_of_find?_eq_some known)
  have other : ∀ operation, (operation = .call ∨ operation ∈ Operation.resultsOfOne ∨
      operation ∈ Operation.resultsOfTwo) → instruction.operation ≠ operation := by
    rintro operation writes rfl
    rcases writes with calls | one | two
    · simp [Instruction.hasWordShape, calls, single] at shape
    · simp only [Operation.resultsOfOne, List.mem_cons, List.not_mem_nil, or_false] at one
      rcases one with here | here | here | here | here | here | here | here | here | here | here <;>
        simp [Instruction.hasWordShape, here, single] at shape
    · simp only [Operation.resultsOfTwo, List.mem_cons, List.not_mem_nil, or_false] at two
      rcases two with here | here | here | here | here <;>
        simp [Instruction.hasWordShape, here, single] at shape
  exact ⟨room.everywhere, fun calls => absurd calls (other _ (.inl rfl)),
    fun one => absurd rfl (other _ (.inr (.inl one))),
    fun two => absurd rfl (other _ (.inr (.inr two))),
    fun halts => room.halts ((operationAhead?_eq known).trans (congrArg some halts))⟩

end Machine

namespace Exec

/-- A step of a word machine stays within a footprint with room for it. -/
theorem within_step_of_word {machine : Machine arch} {regular : arch.WordRegular}
    {pointer : Fin arch.registers.length}
    (points : (wordStackPointer : Exec arch (Fin arch.registers.length)) = pure pointer)
    (room : machine.HasWordRoom regular pointer footprint) : Within footprint step machine := by
  have past (machine : Machine arch) : footprint.Covers machine machine.pastOpcode :=
    within_fetchByte machine (room.everywhere _) _ _ (fetchByte_apply machine)
  have locates (instruction : Instruction) (opcode second : UInt8) :=
    FetchedWord.locates_ofBytes room.everywhere instruction opcode second
  rw [step_of_word regular.model]
  refine Within.counted fun result after ends => ?_
  cases known : arch.instruction? (machine.peek machine.counter) with
  | none =>
      rw [wordInstruction_of_none known] at ends
      cases ends
      exact past machine
  | some instruction =>
      rw [wordInstruction_of_some regular.size known] at ends
      by_cases single : instruction.size = 1
      · rw [machine.fetchedWord_of_single single, machine.pastWordFetch_of_single single] at ends
        exact (past machine).trans (FetchedWord.within_execute (locates instruction _ _)
          (room.ofByte known single) points result after ends)
      · rw [machine.fetchedWord_of_double single, machine.pastWordFetch_of_double single] at ends
        exact ((past machine).trans (past _)).trans (FetchedWord.within_execute
          (locates instruction _ _) (room.ofBytes known) points result after ends)

end Exec

end ClassroomCpu
