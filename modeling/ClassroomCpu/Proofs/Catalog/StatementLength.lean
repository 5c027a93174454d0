import ClassroomCpu.Proofs.Execution.Reference
import ClassroomCpu.Proofs.Machine.WordListing

/-!
# Bytes of written instructions

An instruction is encoded into as many bytes as its datasheet says for the
addressing modes of its operands.  The bytes of its parts are exactly as many,
so that nothing is cut off them, and nothing is put behind them.
-/

namespace ClassroomCpu

namespace Assembly

variable {arch : Architecture} {instruction : Instruction} {arguments : List Argument}
  {scope : Scope}

/-- The bytes of the parts of an instruction of a byte machine, however many they are. -/
def joinedParts (scope : Scope) (arch : Architecture) (instruction : Instruction)
    (arguments : List Argument) : Outcome (List UInt8) :=
  (arguments.foldlM (ByteParts.addArgument scope arch) ⟨instruction.opcode, [], []⟩).map
    fun parts => parts.opcode :: parts.operands

/-- The bytes of the parts fill an instruction of a byte machine as they are. -/
theorem ByteFit.joinedParts_eq {register : Option RegisterSpec} {operands : List Operand}
    (fit : ByteFit arch instruction register operands) (sound : arch.ByteSound)
    {bytes : List UInt8}
    (encoded : encodeBytes scope arch instruction (byteArguments register operands) =
      .ok bytes) :
    joinedParts scope arch instruction (byteArguments register operands) = .ok bytes := by
  obtain ⟨values, given, same⟩ := fit.encodeBytes_eq sound encoded
  obtain ⟨parts, added, fitted⟩ := Outcome.bind_eq_ok.mp encoded
  obtain ⟨others, givenToo, operandsEq, _⟩ := foldlM_byteArguments added
  have fits := Outcome.pure_eq_ok.mp fitted
  have length : bytes.length = (parts.opcode :: parts.operands).length := by
    rw [same, operandsEq, List.length_cons, List.length_cons, length_operandBytes given.length_eq,
      length_operandBytes givenToo.length_eq]
  have whole := length_fitLength (arch.instructionBytes instruction parts.kinds)
    (parts.opcode :: parts.operands)
  rw [fits] at whole
  rw [← whole, length, fitLength_length] at fits
  rw [joinedParts, added, ← fits]
  rfl

/-- What an instruction of a machine of the catalog is encoded into has the size that is looked up. -/
theorem length_encode_of_written (member : arch ∈ Catalog.machines) {statement : String}
    (written : writtenInstruction? arch statement = some (instruction, arguments))
    {bytes : List UInt8} (encoded : encode scope arch instruction arguments = .ok bytes) :
    bytes.length = arch.instructionBytes instruction (arguments.filterMap Argument.kind?) ∧
      (arch.model ≠ .word → joinedParts scope arch instruction arguments = .ok bytes) := by
  rcases Catalog.byte_or_word arch member with ⟨sound, _, _⟩ | ⟨sound, _, _⟩
  · obtain ⟨register, operands, rfl, fit⟩ := byteFit_of_written sound written
    rw [encode_of_byte sound.model] at encoded
    exact ⟨length_encodeBytes encoded, fun _ => fit.joinedParts_eq sound encoded⟩
  · have size := (sound.formed (mem_instructions_of_written written)).2
    exact ⟨(wordEncoded_of_written sound written encoded).length_eq sound size,
      fun byteMachine => absurd sound.model byteMachine⟩

end Assembly

namespace Catalog

open Assembly

/--
A statement of a machine of the catalog that does not place gives equally many
bytes under any labels, at any cursor, while memory is reserved and while bytes
are emitted: as many as its syntax asks for.  For an instruction this is the size
of the instruction with the addressing modes of its operands, and the bytes of
its parts are so many as they stand.
-/
theorem statementEffect_lengths :
    ∀ arch ∈ machines, ∀ statement, Placement.ofStatement? statement = none →
      ∀ (labels later : LabelTable) (cursor other : Nat) (effect effectLater : Effect arch),
        statementEffect ⟨.reserve, labels, cursor⟩ arch statement = .ok effect →
          statementEffect ⟨.emit, later, other⟩ arch statement = .ok effectLater →
            ∃ bytes bytesLater, effect = .data bytes ∧ effectLater = .data bytesLater ∧
              bytes.length = statementSize arch statement ∧
              bytesLater.length = statementSize arch statement ∧
              ∀ instruction arguments,
                writtenInstruction? arch statement = some (instruction, arguments) →
                  statementSize arch statement =
                      arch.instructionBytes instruction (arguments.filterMap Argument.kind?) ∧
                    (arch.model ≠ .word →
                      joinedParts ⟨.reserve, labels, cursor⟩ arch instruction arguments =
                          .ok bytes ∧
                        joinedParts ⟨.emit, later, other⟩ arch instruction arguments =
                          .ok bytesLater) := by
  intro arch member statement placeless labels later cursor other effect effectLater given givenLater
  obtain ⟨bytes, rfl, length⟩ := length_of_statementEffect placeless given
  obtain ⟨bytesLater, rfl, lengthLater⟩ := length_of_statementEffect placeless givenLater
  refine ⟨bytes, bytesLater, rfl, rfl, length, lengthLater, ?_⟩
  intro instruction arguments written
  obtain ⟨size, parts⟩ := length_encode_of_written member written (encode_of_emitted written given)
  obtain ⟨_, partsLater⟩ :=
    length_encode_of_written member written (encode_of_emitted written givenLater)
  exact ⟨length.symm.trans size, fun byteMachine => ⟨parts byteMachine, partsLater byteMachine⟩⟩

/-- A label of two bytes that is not known yet takes the bytes that it has later. -/
theorem statementEffect_lengths_forward :
    let statement := "ldr a later,x"
    let labels : LabelTable := [("LATER", 300)]
    let arguments : List Argument := [.register (.eightBit "A" ⟨"....00.."⟩ true),
      .operand ⟨⟨some (.word "later"), none⟩, ⟨⟨"......11"⟩, .indexedByX, "a,X"⟩⟩]
    let instruction : Instruction := ⟨0, ⟨"0010...."⟩, .load, "ldr r a"⟩
    statementEffect ⟨.reserve, [], 5⟩ pericles statement = .ok (.data [0x23, 0, 0]) ∧
      statementEffect ⟨.emit, labels, 9⟩ pericles statement = .ok (.data [0x23, 0x2C, 1]) ∧
        statementSize pericles statement = 3 ∧
          joinedParts ⟨.emit, labels, 9⟩ pericles instruction arguments =
            .ok [0x23, 0x2C, 1] := by
  intro statement labels arguments instruction
  have member : pericles ∈ machines := by simp [machines]
  have placeless : Placement.ofStatement? statement = none := by decide +kernel
  have written : writtenInstruction? pericles statement = some (instruction, arguments) := by
    decide +kernel
  have encodes (scope : Scope) (bytes : List UInt8)
      (encoded : encodeBytes scope pericles instruction arguments = .ok bytes) :
      statementEffect scope pericles statement = .ok (.data bytes) := by
    rw [statementEffect_of_written written, encode_of_byte (by decide), encoded]
    rfl
  have reserved := encodes ⟨.reserve, [], 5⟩ [0x23, 0, 0] (by decide +kernel)
  have emitted := encodes ⟨.emit, labels, 9⟩ [0x23, 0x2C, 1] (by decide +kernel)
  obtain ⟨bytes, bytesLater, same, sameLater, size, _, parts⟩ :=
    statementEffect_lengths pericles member statement placeless [] labels 5 9 _ _ reserved emitted
  rw [← Effect.data.inj same] at size
  rw [Effect.data.inj sameLater]
  exact ⟨reserved, sameLater ▸ emitted, size.symm,
    ((parts instruction arguments written).2 (by decide)).2⟩

end Catalog

end ClassroomCpu
