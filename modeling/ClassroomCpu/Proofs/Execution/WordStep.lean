import ClassroomCpu.Proofs.Execution.WordCounter
import ClassroomCpu.Proofs.Execution.WordFetch
import Mathlib.Algebra.GroupWithZero.Nat

/-!
# Steps of a word machine

A step moves the program counter past the opcode and, as the operands are
found one after the other, past their words.  The sum is the size that is shown
for the instruction, as long as it neither goes on elsewhere nor computes on
the program counter.
-/

namespace ClassroomCpu

variable {arch : Architecture}

/-- The number of bytes of the words of some operands. -/
def Architecture.wordBytes (arch : Architecture) (operands : List UInt8) : Nat :=
  (operands.map fun bits => arch.operandBytes (Exec.operandKind arch bits)).sum

namespace FetchedWord

open Exec

section Operands

variable (regular : arch.WordRegular) {instruction : Instruction} {opcode second : UInt8}
  {machine : Machine arch} (bounded : machine.counter < arch.counterSize)
include regular bounded

/-- An operation on one word moves the program counter past the word of its operand. -/
theorem ends_computeOnWord (forward : Instruction.movesBack arch second = false)
    (other : instruction.operation ≠ .test → Instruction.isCounter arch second = false) :
    Ends (ofBytes arch instruction opcode second).computeOnWord machine fun _ after =>
      after.counter = (machine.counter + arch.wordBytes [second]) % arch.counterSize := by
  apply (regular.ends_locate forward bounded).bind
  rintro location between ⟨moved, _, found⟩
  simp only [Architecture.wordBytes, List.map_cons, List.map_nil, List.sum_cons, List.sum_nil,
    Nat.add_zero, ← moved]
  refine ((keeps_load found).bind fun value => keeps_status.bind fun status => ?_) between
  split
  · split
    · rename_i result _ stores
      exact (regular.keeps_store (other stores) found _).bind fun _ => keeps_setWordCodes _ _ _
    · exact keeps_setWordCodes _ _ _
  · exact .of_pure ()

/-- An operation on two words moves the program counter past the words of both operands. -/
theorem ends_computeOnWords {source destination : UInt8}
    (sourceBits : sourceBits opcode second = source)
    (destinationBits : destinationBits opcode second = destination)
    (forward : Instruction.movesBack arch source = false)
    (forwardDestination : Instruction.movesBack arch destination = false)
    (other : instruction.operation ≠ .compare →
      Instruction.isCounter arch destination = false) :
    Ends (ofBytes arch instruction opcode second).computeOnWords machine fun _ after =>
      after.counter =
        (machine.counter + arch.wordBytes [source, destination]) % arch.counterSize := by
  subst sourceBits destinationBits
  have positive : 0 < arch.counterSize := by omega
  apply (regular.ends_locate forward bounded).bind
  rintro place afterSource ⟨movedSource, _, foundSource⟩
  apply ((keeps_load foundSource) afterSource).bind
  intro value between sameCounter
  have boundedBetween : between.counter < arch.counterSize := by
    rw [sameCounter, movedSource]
    exact Nat.mod_lt _ positive
  apply (regular.ends_locate forwardDestination boundedBetween).bind
  rintro location afterBoth ⟨movedBoth, _, found⟩
  rw [sameCounter, movedSource, Nat.mod_add_mod, Nat.add_assoc] at movedBoth
  simp only [Architecture.wordBytes, List.map_cons, List.map_nil, List.sum_cons, List.sum_nil,
    Nat.add_zero, ← movedBoth]
  have same : (ofBytes arch instruction opcode second).instruction = instruction := rfl
  rw [same]
  cases operation : instruction.operation <;> simp only
  case compare =>
    exact ((keeps_load found).bind fun _ => keeps_setWordCodes _ _ _) afterBoth
  case move =>
    have apart := other (by simp [operation])
    exact ((regular.keeps_store apart found _).bind fun _ => keeps_setLogicCodes _) afterBoth
  case add | sub =>
    have apart := other (by simp [operation])
    exact ((keeps_load found).bind fun _ => (regular.keeps_store apart found _).bind fun _ =>
      keeps_setWordCodes _ _ _) afterBoth
  case and | or =>
    have apart := other (by simp [operation])
    exact ((keeps_load found).bind fun _ => (regular.keeps_store apart found _).bind fun _ =>
      keeps_setLogicCodes _) afterBoth
  all_goals exact .of_pure rfl

/-- Clearing an operand moves the program counter past its word. -/
theorem ends_clear (forward : Instruction.movesBack arch second = false)
    (other : Instruction.isCounter arch second = false) :
    Ends (do
        let location ← (ofBytes arch instruction opcode second).operand.locate
        store 0 location
        setWordCodes 0 false false) machine fun _ after =>
      after.counter = (machine.counter + arch.wordBytes [second]) % arch.counterSize := by
  apply (regular.ends_locate forward bounded).bind
  rintro location between ⟨moved, _, found⟩
  simp only [Architecture.wordBytes, List.map_cons, List.map_nil, List.sum_cons, List.sum_nil,
    Nat.add_zero, ← moved]
  exact ((regular.keeps_store other found 0).bind fun _ => keeps_setWordCodes _ _ _) between

omit bounded in
/-- A loop whose register is counted down to zero ends. -/
theorem ends_loop (other : registerNumber opcode ≠ arch.counter)
    (zero : ((machine.numbered (registerNumber opcode) : Int) - 1) % powerOfTwo 16 = 0) :
    Ends (ofBytes arch instruction opcode second).loop machine fun _ after =>
      after.counter = machine.counter := by
  have apart : regular.selected opcode ≠ arch.counter :=
    fun same => other (regular.selected_eq_counter.mp same)
  have value : machine.numbered (registerNumber opcode) =
      machine.register (regular.selected opcode) := by
    rw [Machine.numbered, dif_pos (regular.registerNumber_lt opcode)]
    rfl
  rw [value] at zero
  apply Ends.after (readRegister_apply (regular.selected opcode) machine)
  apply Ends.after (writeRegister_apply (regular.selected opcode) _ machine)
  apply Ends.after (readRegister_apply (regular.selected opcode) _)
  have remaining : (machine.setRegister (regular.selected opcode)
      ((machine.register (regular.selected opcode) : Int) - 1)).register
        (regular.selected opcode) = 0 := by
    rw [Machine.register_setRegister, if_pos rfl, RegisterSpec.hold, regular.wide, zero]
    rfl
  rw [remaining]
  exact .of_pure (machine.counter_setRegister apart _)

end Operands

/-- A jump to a register is none. -/
theorem keeps_jump {instruction : Instruction} {opcode second : UInt8}
    (stays : (operandKind arch second != .register) = false) :
    Keeps (ofBytes arch instruction opcode second).jump := by
  unfold jump
  simp only [ofBytes, WordOperand.ofBits, stays]
  exact .of_pure ()

/-- A call of a register is none. -/
theorem keeps_call {instruction : Instruction} {opcode second : UInt8}
    (stays : (operandKind arch second != .register) = false) :
    Keeps (ofBytes arch instruction opcode second).call := by
  unfold call
  simp only [ofBytes, WordOperand.ofBits, stays]
  exact .of_pure ()

/-- A branch whose condition does not hold goes on behind itself. -/
theorem ends_branch {fetched : FetchedWord arch} {condition : Condition}
    {machine : Machine arch} (stays : condition.holds machine.status = false) :
    Ends (fetched.branch condition) machine fun _ after => after.counter = machine.counter := by
  apply Ends.after (status_apply machine)
  rw [stays]
  exact .of_pure rfl

end FetchedWord

namespace Instruction

variable {instruction : Instruction} {opcode second : UInt8}

/-- The number of bytes of the words behind the opcode; none if the size is fixed. -/
def wordBytes (instruction : Instruction) (arch : Architecture) (opcode second : UInt8) : Nat :=
  if instruction.size = 0 then arch.wordBytes (instruction.operandBits opcode second) else 0

/-- The words behind the opcode are those of the operands, unless the size is fixed. -/
theorem wordBytes_of_open (size : instruction.size = 0) {operands : List UInt8}
    (bits : instruction.operandBits opcode second = operands) :
    instruction.wordBytes arch opcode second = arch.wordBytes operands := by
  rw [wordBytes, if_pos size, bits]

theorem operandBits_single (parameters : instruction.parameters = [.operand "a"]) :
    instruction.operandBits opcode second = [second] := by
  simp [operandBits, parameters, Machine.operandBits]

theorem operandBits_call (parameters : instruction.parameters = [.register, .operand "a"]) :
    instruction.operandBits opcode second = [second] := by
  simp [operandBits, parameters, Machine.operandBits]

theorem operandBits_two (parameters : instruction.parameters = [.operand "a0", .operand "a1"]) :
    instruction.operandBits opcode second =
      [FetchedWord.sourceBits opcode second, FetchedWord.destinationBits opcode second] := by
  simp [operandBits, parameters, Machine.operandBits, FetchedWord.sourceBits,
    FetchedWord.destinationBits]

/-- What it means for an instruction with one operand to leave the program counter alone. -/
theorem apart_single (parameters : instruction.parameters = [.operand "a"])
    (apart : instruction.setsCounter arch opcode second = false) :
    movesBack arch second = false ∧
      (instruction.operation.storesWord = true → isCounter arch second = false) := by
  rw [setsCounter, operandBits_single parameters, Bool.or_eq_false_iff] at apart
  refine ⟨by simpa using apart.1, fun stores => ?_⟩
  simpa [stores] using apart.2

/-- What it means for an instruction with two operands to leave the program counter alone. -/
theorem apart_two (parameters : instruction.parameters = [.operand "a0", .operand "a1"])
    (apart : instruction.setsCounter arch opcode second = false) :
    movesBack arch (FetchedWord.sourceBits opcode second) = false ∧
      movesBack arch (FetchedWord.destinationBits opcode second) = false ∧
        (instruction.operation.storesWord = true →
          isCounter arch (FetchedWord.destinationBits opcode second) = false) := by
  rw [setsCounter, operandBits_two parameters, Bool.or_eq_false_iff] at apart
  obtain ⟨forward, stores⟩ := apart
  rw [List.any_cons, List.any_cons, List.any_nil, Bool.or_false, Bool.or_eq_false_iff] at forward
  refine ⟨forward.1, forward.2, fun storesWord => ?_⟩
  simpa [storesWord] using stores

end Instruction

namespace FetchedWord

open Exec

/-- An operand that is a register has no word. -/
theorem wordBytes_of_register (wordMachine : arch.model = .word) {instruction : Instruction}
    {opcode second : UInt8} (size : instruction.size = 0)
    (operands : instruction.operandBits opcode second = [second])
    (inRegister : (operandKind arch second != .register) = false) :
    instruction.wordBytes arch opcode second = 0 := by
  have kind : operandKind arch second = .register := by simpa using inRegister
  rw [Instruction.wordBytes_of_open size operands]
  simp [Architecture.wordBytes, kind, Datasheet.operandBytes_of_word wordMachine]

/-- An instruction that goes on behind itself moves the program counter past its words. -/
theorem ends_execute (regular : arch.WordRegular) {instruction : Instruction}
    {opcode second : UInt8} {machine : Machine arch}
    (bounded : machine.counter < arch.counterSize)
    (shape : instruction.hasWordShape = true)
    (stays : instruction.leavesWord opcode second machine = false)
    (apart : instruction.setsCounter arch opcode second = false) :
    Ends (ofBytes arch instruction opcode second).execute machine fun _ after =>
      after.counter =
        (machine.counter + instruction.wordBytes arch opcode second) % arch.counterSize := by
  have fixed : instruction.size ≠ 0 →
      (machine.counter + instruction.wordBytes arch opcode second) % arch.counterSize =
        machine.counter := by
    intro size
    simp [Instruction.wordBytes, size, Nat.mod_eq_of_lt bounded]
  unfold execute
  unfold Instruction.leavesWord at stays
  unfold Instruction.hasWordShape at shape
  have same : (ofBytes arch instruction opcode second).instruction = instruction := rfl
  rw [same]
  cases operation : instruction.operation <;>
    simp only [operation, Bool.and_eq_true, beq_iff_eq, Bool.or_eq_false_iff] at stays shape ⊢
  case clear =>
    obtain ⟨forward, other⟩ := Instruction.apart_single shape.2 apart
    rw [Instruction.wordBytes_of_open shape.1 (Instruction.operandBits_single shape.2)]
    exact ends_clear regular bounded forward (other (by rw [operation]; rfl))
  case not | inc | dec | neg | rotateRight | rotateLeft | halve | double | addCarry | subCarry =>
    obtain ⟨forward, other⟩ := Instruction.apart_single shape.2 apart
    rw [Instruction.wordBytes_of_open shape.1 (Instruction.operandBits_single shape.2)]
    exact ends_computeOnWord regular bounded forward fun _ => other (by rw [operation]; rfl)
  case test =>
    obtain ⟨forward, _⟩ := Instruction.apart_single shape.2 apart
    rw [Instruction.wordBytes_of_open shape.1 (Instruction.operandBits_single shape.2)]
    exact ends_computeOnWord regular bounded forward fun noTest => absurd operation noTest
  case move | add | sub | and | or =>
    obtain ⟨forward, forwardToo, other⟩ := Instruction.apart_two shape.2 apart
    rw [Instruction.wordBytes_of_open shape.1 (Instruction.operandBits_two shape.2)]
    exact ends_computeOnWords regular bounded rfl rfl forward forwardToo
      fun _ => other (by rw [operation]; rfl)
  case compare =>
    obtain ⟨forward, forwardToo, _⟩ := Instruction.apart_two shape.2 apart
    rw [Instruction.wordBytes_of_open shape.1 (Instruction.operandBits_two shape.2)]
    exact ends_computeOnWords regular bounded rfl rfl forward forwardToo
      fun noCompare => absurd operation noCompare
  case jump test =>
    cases test with
    | always =>
        simp only [Bool.and_eq_true, beq_iff_eq] at shape
        rw [wordBytes_of_register regular.model shape.1
          (Instruction.operandBits_single shape.2) stays, Nat.add_zero, Nat.mod_eq_of_lt bounded]
        exact keeps_jump stays machine
    | _ => exact .of_pure (fixed (by simp_all)).symm
  case call =>
    rw [wordBytes_of_register regular.model shape.1
      (Instruction.operandBits_call shape.2) stays, Nat.add_zero, Nat.mod_eq_of_lt bounded]
    exact keeps_call stays machine
  case branch condition =>
    rw [fixed (by omega)]
    exact ends_branch stays
  case loop =>
    rw [fixed (by omega)]
    exact ends_loop regular (by simpa using stays.1) (by simpa using stays.2)
  case ret => simp at stays
  case clearFlags | setFlags =>
    rw [fixed (by omega)]
    exact keeps_forM_setCode _ _ machine
  case halt =>
    rw [fixed (by omega)]
    exact keeps_setRunning false machine
  all_goals
    rw [fixed (by omega)]
    exact .of_pure rfl

end FetchedWord

/-! ## Sizes -/

namespace Instruction

variable {instruction : Instruction} {opcode second : UInt8}

/-- An instruction without a fixed size has one or two operands, maybe behind a register. -/
theorem parameters_of_size_zero (shape : instruction.hasWordShape = true)
    (size : instruction.size = 0) :
    instruction.parameters = [.operand "a"] ∨
      instruction.parameters = [.register, .operand "a"] ∨
        instruction.parameters = [.operand "a0", .operand "a1"] := by
  unfold hasWordShape at shape
  split at shape <;> simp_all

/-- An operand without an addressing mode counts as a register, which has no word. -/
theorem sum_kind_toList (wordMachine : arch.model = .word) (bits : UInt8) :
    (((arch.wordAddressingMode? bits).map (·.kind)).toList.map arch.operandBytes).sum =
      arch.operandBytes (Exec.operandKind arch bits) := by
  unfold Exec.operandKind
  cases arch.wordAddressingMode? bits with
  | none => simp [Datasheet.operandBytes_of_word wordMachine]
  | some mode => simp

theorem foldl_operandBytes (start : Nat) (kinds : List AddressingMode.Kind) :
    kinds.foldl (fun total kind => total + arch.operandBytes kind) start =
      start + (kinds.map arch.operandBytes).sum := by
  induction kinds generalizing start with
  | nil => rfl
  | cons kind kinds induction =>
      rw [List.foldl_cons, induction, List.map_cons, List.sum_cons, Nat.add_assoc]

theorem wordKinds_eq (shape : instruction.hasWordShape = true) (size : instruction.size = 0) :
    Machine.wordKinds arch opcode second instruction.parameters =
      (instruction.operandBits opcode second).flatMap fun bits =>
        ((arch.wordAddressingMode? bits).map (·.kind)).toList := by
  rcases parameters_of_size_zero shape size with single | call | two
  · rw [operandBits_single single, single]
    cases mode : arch.wordAddressingMode? second <;>
      simp [Machine.wordKinds, Machine.operandBits, mode]
  · rw [operandBits_call call, call]
    cases mode : arch.wordAddressingMode? second <;>
      simp [Machine.wordKinds, Machine.operandBits, mode]
  · rw [operandBits_two two, two]
    cases first : arch.wordAddressingMode? (FetchedWord.sourceBits opcode second) <;>
      cases last : arch.wordAddressingMode? (FetchedWord.destinationBits opcode second) <;>
        simp_all [Machine.wordKinds, Machine.operandBits, FetchedWord.sourceBits,
          FetchedWord.destinationBits]

/-- The kinds of some operands take the bytes of their words. -/
theorem sum_kinds (wordMachine : arch.model = .word) (operands : List UInt8) :
    ((operands.flatMap fun bits => ((arch.wordAddressingMode? bits).map (·.kind)).toList).map
      arch.operandBytes).sum = arch.wordBytes operands := by
  induction operands with
  | nil => rfl
  | cons bits operands induction =>
      rw [List.flatMap_cons, List.map_append, List.sum_append, induction,
        sum_kind_toList wordMachine]
      rfl

/-- The size that is shown counts the opcode and the words of the operands. -/
theorem instructionBytes_word (wordMachine : arch.model = .word)
    (shape : instruction.hasWordShape = true) :
    arch.instructionBytes instruction
        (Machine.wordKinds arch opcode second instruction.parameters) =
      (if instruction.size = 1 then 1 else 2) + instruction.wordBytes arch opcode second := by
  by_cases size : instruction.size = 0
  · simp only [Datasheet.instructionBytes, size, ne_eq, not_true_eq_false, if_false, wordMachine,
      wordBytes, if_true, foldl_operandBytes, wordKinds_eq shape size, sum_kinds wordMachine]
    rfl
  · have fixed : instruction.size = 1 ∨ instruction.size = 2 := by
      unfold hasWordShape at shape
      split at shape <;> simp_all
    rcases fixed with one | two
    · simp [Datasheet.instructionBytes, wordBytes, one]
    · simp [Datasheet.instructionBytes, wordBytes, two]

end Instruction

/-! ## Steps -/

namespace Machine

/-- The size that is shown at the program counter of a word machine. -/
theorem size_instructionText_word (regular : arch.WordRegular) {machine : Machine arch}
    {instruction : Instruction}
    (known : arch.instruction? (machine.peek machine.counter) = some instruction) :
    (machine.instructionText machine.counter).size =
      (if instruction.size = 1 then 1 else 2) +
        instruction.wordBytes arch (machine.peek machine.counter)
          (machine.secondByte instruction) := by
  have shape := regular.shapes instruction (List.mem_of_find?_eq_some known)
  rw [← Instruction.instructionBytes_word regular.model shape]
  simp only [instructionText, known, regular.model, secondByte]

theorem numbered_pastOpcode {number : Nat} (other : number ≠ arch.counter)
    (machine : Machine arch) : machine.pastOpcode.numbered number = machine.numbered number := by
  unfold numbered
  split
  · rename_i there
    exact machine.register_pastOpcode fun same => other (congrArg Fin.val same)
  · rfl

end Machine

/-- Whether an instruction goes on elsewhere does not depend on the program counter. -/
theorem Instruction.leavesWord_pastOpcode (instruction : Instruction) (opcode second : UInt8)
    (machine : Machine arch) :
    instruction.leavesWord opcode second machine.pastOpcode =
      instruction.leavesWord opcode second machine := by
  unfold leavesWord
  split
  · rfl
  · rfl
  · rw [Machine.status_pastOpcode]
  · by_cases other : FetchedWord.registerNumber opcode = arch.counter
    · simp [other]
    · rw [Machine.numbered_pastOpcode other]
  · rfl
  · rfl

theorem Instruction.leavesWord_pastWordFetch (instruction : Instruction) (opcode second : UInt8)
    (machine : Machine arch) :
    instruction.leavesWord opcode second (machine.pastWordFetch instruction) =
      instruction.leavesWord opcode second machine := by
  unfold Machine.pastWordFetch
  split <;> simp only [leavesWord_pastOpcode]

namespace Exec

theorem step_of_word (wordMachine : arch.model = .word) :
    (step : Exec arch Unit) = (do wordInstruction; modify Machine.countInstruction) := by
  unfold step
  rw [wordMachine]

theorem ends_wordInstruction_of_none {machine : Machine arch}
    (unknown : arch.instruction? (machine.peek machine.counter) = none) :
    Ends wordInstruction machine fun _ after =>
      after.counter = (machine.counter + 1) % arch.counterSize :=
  .of_eq (wordInstruction_of_none unknown) machine.counter_pastOpcode

/-- An instruction that goes on behind itself is passed over as it is shown. -/
theorem ends_wordInstruction (regular : arch.WordRegular) {machine : Machine arch}
    {instruction : Instruction}
    (known : arch.instruction? (machine.peek machine.counter) = some instruction)
    (stays : instruction.leavesWord (machine.peek machine.counter)
      (machine.secondByte instruction) machine = false)
    (apart : instruction.setsCounter arch (machine.peek machine.counter)
      (machine.secondByte instruction) = false) :
    Ends wordInstruction machine fun _ after =>
      after.counter =
        (machine.counter + (machine.instructionText machine.counter).size) %
          arch.counterSize := by
  have shape := regular.shapes instruction (List.mem_of_find?_eq_some known)
  have bounded : (machine.pastWordFetch instruction).counter < arch.counterSize := by
    rw [machine.counter_pastWordFetch]
    exact Nat.mod_lt _ (regular.size ▸ arch.memorySize_pos)
  rw [← instruction.leavesWord_pastWordFetch] at stays
  apply Ends.fetched regular.size known
  apply (FetchedWord.ends_execute regular bounded shape stays apart).mono
  intro _ after moved
  rw [moved, machine.counter_pastWordFetch, Nat.mod_add_mod,
    Machine.size_instructionText_word regular known, Nat.add_assoc]

end Exec

end ClassroomCpu
