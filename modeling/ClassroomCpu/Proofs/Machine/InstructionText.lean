import ClassroomCpu.Proofs.Catalog.Legibility
import ClassroomCpu.Proofs.Execution.Reference
import ClassroomCpu.Proofs.Machine.ByteListing
import ClassroomCpu.Proofs.Machine.WordListing

/-!
# Instruction texts are assembled again

On every machine of the catalog the text that is shown where the bytes of a
statement lie takes as many bytes, and is encoded into the same ones.
-/

namespace ClassroomCpu

open Assembly

namespace Catalog

/-- Whether operands that stand beside each other have the one mode. -/
def hasOperandsApart (arch : Architecture) : Bool :=
  arch.addressingModes.length == 1
    || arch.instructions.all fun instruction => instruction.furtherParameters.length ≤ 1

theorem operandsApart_of_check {arch : Architecture} (check : hasOperandsApart arch = true) :
    arch.OperandsApart := by
  intro instruction known
  simp only [hasOperandsApart, Bool.or_eq_true, beq_iff_eq, List.all_eq_true,
    decide_eq_true_eq] at check
  rcases check with single | few
  · exact .inr (List.length_eq_one_iff.mp single)
  · exact .inl (few instruction known)

theorem hasOperandsApart_of_ne_cesar :
    ∀ arch ∈ machines, arch.model ≠ .word → hasOperandsApart arch = true :=
  forall_byteMachine (by decide +kernel) (by decide +kernel) (by decide +kernel)
    (by decide +kernel) (by decide +kernel) (by decide +kernel)

end Catalog

namespace Machine

/--
Where the bytes of a written instruction lie, at any place and beside anything
else, the instruction that is shown there has as many bytes, and its text is
encoded into the same bytes, wherever it is written and whatever labels there
are.  On Cesar an operand that moves the program counter on is left out: it is
shown in the mode for which it stands.
-/
theorem instructionText_encodes (arch : Architecture) (member : arch ∈ Catalog.machines)
    (labels : LabelTable) (cursor : Nat) {statement : String} {instruction : Instruction}
    {arguments : List Argument}
    (written : writtenInstruction? arch statement = some (instruction, arguments))
    (apart : arch = Catalog.cesar → ∀ operand ∈ writtenOperands arguments,
      operand.mode.kind.increments = true → operand.namesCounter arch = false)
    {bytes : List UInt8}
    (emitted : statementEffect ⟨.emit, labels, cursor⟩ arch statement = .ok (.data bytes))
    (machine : Machine arch) (there : machine.Holds cursor bytes)
    {later : LabelTable} (wellFormed : later.WellFormed) (place : Nat) :
    (machine.instructionText cursor).size = bytes.length ∧
      statementEffect ⟨.emit, later, place⟩ arch (machine.instructionText cursor).text =
        .ok (.data bytes) := by
  have encoded := encode_of_emitted written emitted
  have legible := Catalog.legible arch member
  rcases Catalog.byte_or_word arch member with ⟨sound, operated, _⟩ | ⟨sound, regular, _⟩
  · have beside := Catalog.operandsApart_of_check
      (Catalog.hasOperandsApart_of_ne_cesar arch member sound.model)
    exact byteInstruction_shown sound operated beside legible written encoded there wellFormed
      place
  · have noIncrement := apart (Catalog.eq_cesar_of_word arch member sound.model)
    exact wordInstruction_shown sound regular legible written noIncrement encoded there wellFormed
      place

/-- A quoted character and a label with an offset are shown as numbers, in modes of their own. -/
theorem instructionText_encodes_indexed :
    let machine := ((((((Machine.new Catalog.cesar).poke 16 147).poke 17 250).poke 18 0).poke 19
      97).poke 20 1).poke 21 43
    let named : RegisterSpec := .sixteenBit "R2" ⟨".....010"⟩ true
    let immediate : Operand := ⟨⟨some (.quoted "'a'"), none⟩, ⟨⟨"..001..."⟩, .immediate, "#a"⟩⟩
    let indexed : Operand := ⟨⟨some (.word "val-h1"), some named⟩,
      ⟨⟨"..111..."⟩, .indexedIndirect, "(a(r))"⟩⟩
    let instruction : Instruction := ⟨0, ⟨"1001...."⟩, .move, "mov a0 a1"⟩
    let bytes : List UInt8 := [147, 250, 0, 97, 1, 43]
    let later : LabelTable := [("VAL", 7)]
    writtenInstruction? Catalog.cesar "mov #'a', (val-h1(R2))" =
        some (instruction, [.operand immediate, .operand indexed]) ∧
      machine.Holds 16 bytes ∧ later.WellFormed ∧
        (machine.instructionText 16).size = 6 ∧
          statementEffect ⟨.emit, later, 2⟩ Catalog.cesar (machine.instructionText 16).text =
            .ok (.data bytes) := by
  intro machine named immediate indexed instruction bytes later
  have member : Catalog.cesar ∈ Catalog.machines := by simp [Catalog.machines]
  have written : writtenInstruction? Catalog.cesar "mov #'a', (val-h1(R2))" =
      some (instruction, [.operand immediate, .operand indexed]) := by decide +kernel
  have emitted : statementEffect ⟨.emit, [("VAL", 300)], 16⟩ Catalog.cesar
      "mov #'a', (val-h1(R2))" = .ok (.data bytes) := by
    rw [statementEffect_of_written written, encode_of_word rfl]
    have encoded : encodeWord ⟨.emit, [("VAL", 300)], 16⟩ Catalog.cesar instruction
        [.operand immediate, .operand indexed] = .ok bytes := by decide +kernel
    rw [encoded]
    rfl
  have there : machine.Holds 16 bytes := by
    unfold Machine.Holds
    decide +kernel
  have apart : Catalog.cesar = Catalog.cesar →
      ∀ operand ∈ writtenOperands [.operand immediate, .operand indexed],
        operand.mode.kind.increments = true → operand.namesCounter Catalog.cesar = false :=
    fun _ => by decide +kernel
  have wellFormed : later.WellFormed := by
    unfold LabelTable.WellFormed
    decide
  have again := instructionText_encodes Catalog.cesar member [("VAL", 300)] 16 written apart
    emitted machine there wellFormed 2
  exact ⟨written, there, wellFormed, again⟩

end Machine

end ClassroomCpu
