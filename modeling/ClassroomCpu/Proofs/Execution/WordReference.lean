import ClassroomCpu.Proofs.Alu
import ClassroomCpu.Proofs.Execution.WordFetch
import ClassroomCpu.Proofs.Execution.WordOperands

/-!
# Written instructions of word machines

Where the bytes of a written instruction lie, a step does what was written.
-/

namespace ClassroomCpu

open Assembly

variable {arch : Architecture}

/-- Only the counting loop is written as one. -/
theorem operation_of_loop {operation : Operation} (format : operation.format = .loop) :
    operation = .loop := by
  cases operation with
  | jump test => cases test <;> cases format
  | loop => rfl
  | _ => cases format

namespace Assembly

/-! ## Registers, condition codes and targets -/

theorem toNat_opcodePlus (sound : arch.WordSound) {instruction : Instruction}
    (known : instruction ∈ arch.instructions) {number : Nat}
    (small : number < instruction.operation.format.choices) :
    (instruction.opcodePlus number).toNat = instruction.opcode.toNat + number := by
  have aligned := (sound.decodes instruction known).1
  have bounded := instruction.opcode.toNat_lt
  rw [Instruction.opcodePlus, UInt8.toNat_ofNat']
  cases format : instruction.operation.format <;>
    simp only [format, WordFormat.choices] at aligned small <;> omega

/-- The number in an opcode is the one that was put there. -/
theorem toNat_opcodePlus_mod (sound : arch.WordSound) {instruction : Instruction}
    (known : instruction ∈ arch.instructions) {number : Nat}
    (small : number < instruction.operation.format.choices) :
    (instruction.opcodePlus number).toNat % instruction.operation.format.choices = number := by
  rw [toNat_opcodePlus sound known small, Nat.add_mod, (sound.decodes instruction known).1,
    Nat.zero_add, Nat.mod_mod, Nat.mod_eq_of_lt small]

/-- The register in an opcode is the one that was written. -/
theorem registerNumber_opcodePlus (sound : arch.WordSound) {instruction : Instruction}
    (known : instruction ∈ arch.instructions)
    (choices : instruction.operation.format.choices = 8) {named : RegisterSpec}
    (selectable : Selectable arch.toDatasheet named) :
    FetchedWord.registerNumber (instruction.opcodePlus (WordParts.registerNumber named)) =
      registerPlace arch (some named) := by
  obtain ⟨index, _, place, number⟩ := WordOperand.registerPlace_eq sound selectable
  have held := toNat_opcodePlus_mod sound known (choices ▸ registerNumber_lt named)
  rw [choices] at held
  rw [FetchedWord.registerNumber, held, place, number]

/-- The operands in the first two bytes are those that were written. -/
theorem bits_of_operands (sound : arch.WordSound) {instruction : Instruction}
    (known : instruction ∈ arch.instructions) (format : instruction.operation.format = .operands)
    {source destination : Nat} (smallSource : source < 64) (smallDestination : destination < 64) :
    FetchedWord.sourceBits (instruction.opcodePlus (source / 4))
        (UInt8.ofNat (source % 4 * 64 + destination)) = UInt8.ofNat source ∧
      FetchedWord.destinationBits (instruction.opcodePlus (source / 4))
        (UInt8.ofNat (source % 4 * 64 + destination)) = UInt8.ofNat destination := by
  have aligned := (sound.decodes instruction known).1
  rw [format] at aligned
  have high : source / 4 < instruction.operation.format.choices := by
    rw [format]
    exact Nat.div_lt_of_lt_mul smallSource
  have first := toNat_opcodePlus sound known high
  simp only [WordFormat.choices] at aligned
  rw [FetchedWord.sourceBits, FetchedWord.destinationBits, first, UInt8.toNat_ofNat']
  constructor <;> congr 1 <;> omega

/-- The condition codes in an opcode are those that were written. -/
theorem selectedCodes_opcodePlus (sound : arch.WordSound) {instruction : Instruction}
    (known : instruction ∈ arch.instructions)
    (choices : instruction.operation.format.choices = 16) {letters : String} {bits : Nat}
    (given : WordParts.flagBits letters = .ok bits) :
    FetchedWord.selectedCodes (instruction.opcodePlus bits) = writtenCodes letters := by
  obtain ⟨small, places⟩ := flagBits_ok given
  have low := toNat_opcodePlus_mod sound known (choices ▸ small)
  rw [choices] at low
  have bit : ∀ flag ∈ flagPlaces, (instruction.opcodePlus bits).toNat.testBit flag.2 =
      letters.toList.any fun letter => letter.toLower == flag.1 := by
    intro flag member
    have inside : flag.2 < 4 := by
      revert flag
      decide
    have lowBit := Nat.testBit_mod_two_pow (instruction.opcodePlus bits).toNat 4 flag.2
    rw [show 2 ^ 4 = 16 from rfl, low] at lowBit
    rw [← places flag member, lowBit]
    simp [inside]
  have negative := bit ('n', 3) (by decide)
  have zero := bit ('z', 2) (by decide)
  have overflow := bit ('v', 1) (by decide)
  have carry := bit ('c', 0) (by decide)
  simp only at negative zero overflow carry
  simp only [FetchedWord.selectedCodes, writtenCodes, List.filterMap_cons, negative, zero,
    overflow, carry]
  rfl

/-- A distance that fits into a byte with a sign is kept there. -/
theorem signed_ofInt {distance : Int} (low : -128 ≤ distance) (high : distance ≤ 127) :
    Alu.signed 8 (UInt8.ofInt distance).toNat = distance := by
  apply Alu.signed_eq_of_emod (by decide)
  · exact low
  · exact Int.lt_add_one_of_le high
  · rw [ByteOrder.toNat_ofInt]
    exact Int.emod_emod_of_dvd distance (Int.dvd_refl _)

section Offset

variable {labels : LabelTable} {cursor : Nat} {instruction : Instruction} {text : String}
  {byte : UInt8} (given : Scope.offset ⟨.emit, labels, cursor⟩ instruction text = .ok byte)
include given

/-- The byte of a branch holds the distance to a label, or a number as it is. -/
theorem label_or_number_of_offset :
    (∃ target, resolve? labels text = some ⟨target, true⟩ ∧
      let distance := Scope.distance ⟨.emit, labels, cursor⟩ instruction target
      distance.2.holds distance.1 = true ∧ byte = UInt8.ofInt distance.1) ∨
    ∃ number, resolve? labels text = some ⟨number, false⟩ ∧ byte = UInt8.ofInt number := by
  unfold Scope.offset at given
  cases resolved : resolve? labels text with
  | none =>
      rw [resolved] at given
      exact absurd given Outcome.reject_ne_ok
  | some target =>
      obtain ⟨value, isLabel⟩ := target
      rw [resolved] at given
      cases isLabel with
      | true =>
          simp only [if_true] at given
          split at given
          · exact .inl ⟨value, rfl, ‹_›, (Except.ok.inj given).symm⟩
          · exact absurd given Outcome.reject_ne_ok
      | false =>
          simp only [Bool.false_eq_true, if_false] at given
          split at given
          · exact .inr ⟨value, rfl, (Except.ok.inj given).symm⟩
          · exact absurd given Outcome.reject_ne_ok

/-- The target in the second byte of a branch is the one that was written. -/
theorem branchTarget_emod {next size : Nat} (behind : next = (cursor + 2) % size) :
    FetchedWord.branchTarget instruction byte next % size =
      writtenTarget labels instruction text next % size := by
  unfold writtenTarget FetchedWord.branchTarget
  rcases label_or_number_of_offset given with
    ⟨target, resolved, inside, rfl⟩ | ⟨number, resolved, rfl⟩
  · have reached : (next + (target - (cursor + 2))) % (size : Int) = target % size := by
      rw [behind, Int.natCast_emod, Int.emod_add_emod]
      congr 1
      omega
    obtain ⟨low, high⟩ := Bounds.holds_iff.mp inside
    rw [resolved]
    by_cases loop : instruction.operation = .loop <;>
      simp only [Scope.distance, loop, if_true, if_false] at low high ⊢
    · have kept := ByteOrder.toNat_ofInt (cursor + 2 - target)
      have same : (next : Int) - (UInt8.ofInt (cursor + 2 - target)).toNat =
          next + (target - (cursor + 2)) := by omega
      rw [same, reached]
    · rw [signed_ofInt low high, reached]
  · rw [resolved]
    dsimp only
    rw [← ByteOrder.toNat_ofInt, Int.toNat_natCast]

end Offset

/-! ## Encoded instructions in memory -/

section Encoded

variable {instruction : Instruction} {format : WordFormat} {arguments : List Argument}
  {bytes : List UInt8}

/-- The first byte of an encoded instruction is one of its opcodes. -/
theorem WordEncoded.exists_opcode {scope : Scope} (sound : arch.WordSound)
    (encoded : WordEncoded scope arch instruction format arguments bytes) :
    ∃ number < format.choices, ∃ further, bytes = instruction.opcodePlus number :: further := by
  cases encoded with
  | plain | branch _ | operand _ _ => exact ⟨0, by decide, _, rfl⟩
  | flags given => exact ⟨_, (flagBits_ok given).1, _, rfl⟩
  | register _ | loop _ _ | call _ _ _ => exact ⟨_, registerNumber_lt _, _, rfl⟩
  | operands sourceFits _ _ _ =>
      exact ⟨_, Nat.div_lt_of_lt_mul (operandBits_lt sound sourceFits), _, rfl⟩

/-- Where an encoded instruction lies, it is decoded. -/
theorem WordEncoded.decoded {scope : Scope} (sound : arch.WordSound)
    (known : instruction ∈ arch.instructions)
    (encoded : WordEncoded scope arch instruction instruction.operation.format arguments bytes)
    {machine : Machine arch} {address : Nat} (there : machine.Holds address bytes) :
    arch.instruction? (machine.peek address) = some instruction := by
  obtain ⟨number, small, further, rfl⟩ := encoded.exists_opcode sound
  rw [(Machine.holds_cons.mp there).1]
  exact (sound.decodes instruction known).2 number small

theorem size_eq_of_format (sound : arch.WordSound) (known : instruction ∈ arch.instructions)
    (formatted : instruction.operation.format = format) : instruction.size = format.size :=
  formatted ▸ (sound.formed known).2

variable {labels : LabelTable} {machine : Machine arch}

/-- The second byte is fetched, and the program counter is at the words of the operands then. -/
theorem fetched_second (wraps : arch.counterSize = arch.memorySize) (double : instruction.size ≠ 1)
    {first second : UInt8} {words : List UInt8}
    (there : machine.Holds machine.counter (first :: second :: words)) :
    machine.secondByte instruction = second ∧
      (machine.pastWordFetch instruction).Holds (machine.pastWordFetch instruction).counter
        words := by
  obtain ⟨_, behind⟩ := Machine.holds_cons.mp there
  obtain ⟨here, further⟩ := Machine.holds_cons.mp behind
  rw [Machine.secondByte, if_neg double, machine.pastWordFetch_of_double double]
  refine ⟨here, further.congr machine.pastOpcode.memory_pastOpcode ?_⟩
  rw [machine.counter_pastTwo, wraps, Nat.mod_mod]

section Fields

variable (regular : arch.WordRegular) (sound : arch.WordSound)
  (known : instruction ∈ arch.instructions) (formatted : instruction.operation.format = format)
  (encoded : WordEncoded ⟨.emit, labels, machine.counter⟩ arch instruction format arguments bytes)
  (there : machine.Holds machine.counter bytes)
include sound known formatted encoded there

theorem number_fetchedWord (hasRegister : format.parameters.contains .register = true) :
    (machine.fetchedWord instruction).number =
      (FetchedWord.written arch labels instruction arguments).number := by
  cases encoded with
  | register selectable | loop selectable _ | call selectable _ _ =>
      have number := registerNumber_opcodePlus sound known (by rw [formatted]; rfl) selectable
      rwa [← (Machine.holds_cons.mp there).1] at number
  | _ => exact absurd hasRegister (by decide)

theorem codes_fetchedWord (isFlags : format = .flags) :
    (machine.fetchedWord instruction).codes =
      (FetchedWord.written arch labels instruction arguments).codes := by
  subst isFlags
  cases encoded with
  | flags given =>
      have codes := selectedCodes_opcodePlus sound known (by rw [formatted]; rfl) given
      rwa [← (Machine.holds_cons.mp there).1] at codes

omit sound known formatted encoded there in
/-- A loop counts with a register, which is not the program counter unless it is named. -/
theorem counts_written (sound : arch.WordSound)
    (encoded : WordEncoded ⟨.emit, labels, machine.counter⟩ arch instruction format arguments bytes)
    (others : ∀ named ∈ namedRegister? arguments,
      arch.registerAt? named.name ≠ some arch.counter)
    (isLoop : format = .loop) :
    ∃ index : Fin arch.registers.length, index ≠ arch.counter ∧
      (FetchedWord.written arch labels instruction arguments).number = index := by
  subst isLoop
  cases encoded with
  | @loop named _ _ selectable _ =>
      obtain ⟨index, found, place, _⟩ := WordOperand.registerPlace_eq sound selectable
      refine ⟨index, ?_, place⟩
      rintro rfl
      exact others named rfl found

include regular

theorem target_fetchedWord (hasOffset : format.parameters.contains .offset = true) :
    (machine.fetchedWord instruction).target (machine.pastWordFetch instruction).counter %
        arch.counterSize =
      (FetchedWord.written arch labels instruction arguments).target
        (machine.pastWordFetch instruction).counter % arch.counterSize := by
  have size := size_eq_of_format sound known formatted
  cases encoded with
  | branch given | loop _ given =>
      have double : instruction.size ≠ 1 := by rw [size]; decide
      have behind := machine.counter_pastWordFetch instruction
      rw [if_neg double] at behind
      have target := branchTarget_emod given behind
      rwa [← (fetched_second regular.size double there).1] at target
  | _ => exact absurd hasOffset (by decide)

variable (apart : ∀ operand ∈ writtenOperands arguments, operand.movesCounter arch = false)
include apart

theorem operand_fetchedWord (hasOperand : format.parameters.contains (.operand "a") = true) :
    (machine.fetchedWord instruction).operand.SameAt
      (FetchedWord.written arch labels instruction arguments).operand
        (machine.pastWordFetch instruction) := by
  have size := size_eq_of_format sound known formatted
  cases encoded with
  | @operand operand _ fits given | @call _ operand _ _ fits given =>
      obtain ⟨second, words⟩ := fetched_second regular.size (by rw [size]; decide) there
      have same := WordOperand.sameAt_written regular sound fits given words
        (apart operand (List.mem_singleton_self _))
      rwa [← second] at same
  | _ => exact absurd hasOperand (by decide)

theorem operands_fetchedWord (isOperands : format = .operands) :
    (machine.fetchedWord instruction).source.SameAt
        (FetchedWord.written arch labels instruction arguments).source
          (machine.pastWordFetch instruction) ∧
      ∀ place between value after,
        (FetchedWord.written arch labels instruction arguments).source.locate
            (machine.pastWordFetch instruction) = .ok place between →
          (FetchedWord.written arch labels instruction arguments).source.load place between =
              .ok value after →
            (machine.fetchedWord instruction).destination.SameAt
              (FetchedWord.written arch labels instruction arguments).destination after := by
  subst isOperands
  have size := size_eq_of_format sound known formatted
  cases encoded with
  | @operands source destination _ _ sourceFits destinationFits firstGiven secondGiven =>
      obtain ⟨second, words⟩ := fetched_second regular.size (by rw [size]; decide) there
      have sourceApart := apart source List.mem_cons_self
      have destinationApart := apart destination (List.mem_cons_of_mem _ (List.mem_singleton_self _))
      obtain ⟨sourceBits, destinationBits⟩ := bits_of_operands sound known formatted
        (operandBits_lt sound sourceFits) (operandBits_lt sound destinationFits)
      rw [← (Machine.holds_cons.mp there).1, ← second] at sourceBits destinationBits
      have bounded : (machine.pastWordFetch instruction).counter < arch.counterSize := by
        rw [machine.counter_pastWordFetch]
        exact Nat.mod_lt _ (regular.size ▸ arch.memorySize_pos)
      have same := WordOperand.sameAt_written regular sound sourceFits firstGiven
        (Machine.holds_append.mp words).1 sourceApart
      rw [← sourceBits] at same
      refine ⟨same, fun _ _ _ _ located read => ?_⟩
      have behind := WordOperand.sameAt_written_behind regular sound sourceFits destinationFits
        firstGiven secondGiven sourceApart destinationApart bounded words located read
      rwa [← destinationBits] at behind

end Fields

end Encoded

end Assembly

/-! ## Steps -/

namespace Exec

theorem passBytes_one (machine : Machine arch) :
    passBytes 1 machine = .ok () machine.pastOpcode := rfl

/-- What was written is done behind the bytes that are fetched. -/
theorem writtenWordInstruction_apply (labels : LabelTable) (instruction : Instruction)
    (arguments : List Argument) (machine : Machine arch) :
    writtenWordInstruction arch labels instruction arguments machine =
      (FetchedWord.written arch labels instruction arguments).execute
        (machine.pastWordFetch instruction) := by
  unfold writtenWordInstruction
  rw [bind_of_ok (passBytes_one machine)]
  by_cases single : instruction.size = 1
  · rw [if_neg (by simpa using single), machine.pastWordFetch_of_single single]
  · rw [if_pos single, bind_of_ok (passBytes_one _), machine.pastWordFetch_of_double single]

/-- A step at the bytes of a written instruction does what was written. -/
theorem wordInstruction_eq_written (regular : arch.WordRegular) (sound : arch.WordSound)
    {labels : LabelTable} {instruction : Instruction} (known : instruction ∈ arch.instructions)
    {arguments : List Argument} {bytes : List UInt8} {machine : Machine arch}
    (encoded : WordEncoded ⟨.emit, labels, machine.counter⟩ arch instruction
      instruction.operation.format arguments bytes)
    (apart : ∀ operand ∈ writtenOperands arguments, operand.movesCounter arch = false)
    (counts : instruction.operation = .loop → ∀ named ∈ namedRegister? arguments,
      arch.registerAt? named.name ≠ some arch.counter)
    (there : machine.Holds machine.counter bytes) :
    wordInstruction machine =
      writtenWordInstruction arch labels instruction arguments machine := by
  have operands := operands_fetchedWord regular sound known rfl encoded there apart
  have same : FetchedWord.SameAt instruction.operation.format (machine.fetchedWord instruction)
      (.written arch labels instruction arguments) (machine.pastWordFetch instruction) :=
    { formatted := rfl
      instruction := rfl
      number := number_fetchedWord sound known rfl encoded there
      codes := codes_fetchedWord sound known rfl encoded there
      operand := operand_fetchedWord regular sound known rfl encoded there apart
      source := fun isOperands => (operands isOperands).1
      destination := fun isOperands => (operands isOperands).2
      target := target_fetchedWord regular sound known rfl encoded there
      counts := fun isLoop =>
        counts_written sound encoded (counts (operation_of_loop isLoop)) isLoop }
  rw [wordInstruction_of_some regular.size (encoded.decoded sound known there),
    writtenWordInstruction_apply, FetchedWord.execute_congr same]

end Exec

end ClassroomCpu
