import ClassroomCpu.Proofs.Machine.Retyping

/-!
# What the machines of the catalog show can be typed back in

The text at any address of any memory, if there is one, is a program of one
line: it is assembled into as many bytes as are shown for it, and these are shown
by the same text.  There are two exceptions.  On Ramses and Pericles an opcode
can leave the register open that its instruction names, and on Pericles an
address has room for numbers that are no address.
-/

namespace ClassroomCpu

open Assembly

/-- The instruction of an opcode names a register, while the opcode selects none. -/
def Datasheet.LeavesRegister (sheet : Datasheet) (opcode : UInt8) : Prop :=
  ∃ instruction ∈ sheet.instruction? opcode,
    instruction.selectsRegister = true ∧ sheet.selectedName opcode = ""

instance (sheet : Datasheet) (opcode : UInt8) : Decidable (sheet.LeavesRegister opcode) :=
  inferInstanceAs (Decidable (∃ instruction ∈ sheet.instruction? opcode, _ ∧ _))

/-- The numbers of those operands of the instruction at an address that are addresses. -/
def Machine.addressOperands {arch : Architecture} (machine : Machine arch) (address : Nat) :
    List Nat :=
  match arch.instruction? (machine.peek address), arch.addressingMode? (machine.peek address) with
  | some instruction, some mode =>
      if mode.kind = .immediate then []
      else
        machine.operandNumbers (arch.operandBytes mode.kind) (address + 1)
          instruction.furtherParameters.length
  | _, _ => []

namespace Catalog

/-! ## Checks -/

/-- Whether no instruction names a register. -/
def namesNoRegister (sheet : Datasheet) : Bool :=
  sheet.instructions.all fun instruction => !instruction.selectsRegister

/-- Whether some bits of an operand of a word machine tell one that can be written. -/
def showsOperand (arch : Architecture) (bits : UInt8) : Bool :=
  (arch.wordAddressingMode? bits).any fun mode =>
    !mode.kind.increments || !(Operand.ofBits arch mode bits 0).namesCounter arch

theorem isSome_addressingMode? : ∀ arch ∈ machines, arch.model ≠ .word →
    ∀ opcode, (arch.addressingMode? opcode).isSome = true :=
  forall_machine
    (fun _ => forall_byte (by decide +kernel)) (fun _ => forall_byte (by decide +kernel))
    (fun _ => forall_byte (by decide +kernel)) (fun _ => forall_byte (by decide +kernel))
    (fun _ => forall_byte (by decide +kernel)) (fun _ => forall_byte (by decide +kernel))
    (fun byteMachine => absurd rfl byteMachine)

theorem not_leavesRegister_of_check {sheet : Datasheet} (check : namesNoRegister sheet = true)
    (opcode : UInt8) : ¬ sheet.LeavesRegister opcode := by
  rintro ⟨instruction, decoded, names, -⟩
  have none := List.all_eq_true.mp check instruction (List.mem_of_find?_eq_some decoded)
  simp [names] at none

/-- The low six bits of an opcode of REG number a register. -/
theorem isMatch_regRegister (opcode : UInt8) :
    (regRegister (opcode.toNat % 64)).pattern.isMatch opcode = true := by
  have low (position : Nat) : (opcode.toNat % 64).testBit position =
      (decide (position < 6) && opcode.toNat.testBit position) :=
    Nat.testBit_mod_two_pow opcode.toNat 6 position
  have points : "..".toList = ['.', '.'] := by decide
  simp only [regRegister, RegisterSpec.eightBit, BitPattern.isMatch, BitPattern.symbols, low,
    String.toList_append, String.toList_ofList, points]
  simp [BitPattern.agrees]

theorem selectedName_reg (opcode : UInt8) : reg.selectedName opcode ≠ "" := by
  have named : (reg.registers.all fun register => register.name != "") = true := by
    decide +kernel
  have selected : (reg.registers.find? fun register =>
      register.pattern.isMatch opcode).isSome = true := by
    rw [List.find?_isSome]
    refine ⟨regRegister (opcode.toNat % 64), ?_, isMatch_regRegister opcode⟩
    exact List.mem_append_left _
      (List.mem_map_of_mem (List.mem_range.mpr (Nat.mod_lt _ (by decide))))
  obtain ⟨register, found⟩ := Option.isSome_iff_exists.mp selected
  have name := List.all_eq_true.mp named register (List.mem_of_find?_eq_some found)
  simpa [Datasheet.selectedName, found] using name

theorem not_leavesRegister : ∀ arch ∈ machines, arch.model ≠ .word →
    ¬ (arch = ramses ∨ arch = pericles) → ∀ opcode, ¬ arch.LeavesRegister opcode :=
  forall_machine (fun _ _ => not_leavesRegister_of_check (by decide +kernel))
    (fun _ _ => not_leavesRegister_of_check (by decide +kernel))
    (fun _ other => absurd (.inl rfl) other) (fun _ other => absurd (.inr rfl) other)
    (fun _ _ opcode ⟨_, _, _, unnamed⟩ => selectedName_reg opcode unnamed)
    (fun _ _ => not_leavesRegister_of_check (by decide +kernel))
    (fun byteMachine => absurd rfl byteMachine)

/-- Apart from Pericles, every number that fits into an address is one. -/
theorem wide_of_byte : ∀ arch ∈ machines, arch.model ≠ .word → arch ≠ pericles →
    256 ^ arch.addressBytes ≤ arch.memorySize :=
  forall_machine (fun _ _ => by decide) (fun _ _ => by decide) (fun _ _ => by decide)
    (fun _ other => absurd rfl other) (fun _ _ => by decide) (fun _ _ => by decide)
    (fun byteMachine => absurd rfl byteMachine)

theorem showsOperands_cesar : cesar.ShowsOperands := by
  have shows : ∀ bits, showsOperand cesar bits = true := forall_byte (by decide +kernel)
  have selects : (cesar.registers.all fun named => !named.pattern.text.isEmpty) = true := by
    decide +kernel
  refine ⟨fun bits => ?_, fun named member => ⟨member, ?_⟩, fun bits mode moded increments => ?_⟩
  · obtain ⟨mode, moded, _⟩ := (Option.any_eq_true _ _).mp (shows bits)
    rw [moded]
    rfl
  · simpa using List.all_eq_true.mp selects named member
  · have here := shows bits
    rw [showsOperand, moded] at here
    simpa [increments] using here

/-- Memory has room for every instruction. -/
def fitsMemory (arch : Architecture) : Bool :=
  arch.instructions.all fun instruction =>
    decide (instruction.size + 5 + 2 * instruction.parameters.length ≤ arch.memorySize)

theorem fitsMemory_of_mem : ∀ arch ∈ machines, fitsMemory arch = true :=
  forall_machine (by decide +kernel) (by decide +kernel) (by decide +kernel) (by decide +kernel)
    (by decide +kernel) (by decide +kernel) (by decide +kernel)

end Catalog

/-! ## Sizes -/

theorem Catalog.operandBytes_le_two {arch : Architecture} (member : arch ∈ machines)
    (kind : AddressingMode.Kind) : arch.operandBytes kind ≤ 2 := by
  rcases byte_or_word arch member with ⟨sound, _⟩ | ⟨sound, _⟩
  · exact Assembly.operandBytes_le_two sound kind
  · rw [Datasheet.operandBytes_of_word sound.model]
    cases kind <;> simp

theorem Architecture.sum_operandBytes_le {arch : Architecture}
    (narrow : ∀ kind, arch.operandBytes kind ≤ 2) (kinds : List AddressingMode.Kind) :
    (kinds.map arch.operandBytes).sum ≤ 2 * kinds.length := by
  induction kinds with
  | nil => simp
  | cons kind kinds induction =>
      have here := narrow kind
      simp only [List.map_cons, List.sum_cons, List.length_cons]
      omega

theorem Architecture.instructionBytes_le {arch : Architecture}
    (narrow : ∀ kind, arch.operandBytes kind ≤ 2) (instruction : Instruction)
    (kinds : List AddressingMode.Kind) :
    arch.instructionBytes instruction kinds ≤ instruction.size + 3 + 2 * kinds.length := by
  have first := narrow (kinds.headD .direct)
  have total := arch.sum_operandBytes_le narrow kinds
  unfold Datasheet.instructionBytes
  split
  · omega
  · split
    · rw [Instruction.foldl_operandBytes]
      omega
    all_goals omega

theorem Machine.size_instructionText_le {arch : Architecture} (member : arch ∈ Catalog.machines)
    (machine : Machine arch) (address : Nat) {instruction : Instruction}
    (decoded : arch.instruction? (machine.peek address) = some instruction) :
    (machine.instructionText address).size ≤ arch.memorySize := by
  have room := of_decide_eq_true (List.all_eq_true.mp (Catalog.fitsMemory_of_mem arch member)
    instruction (List.mem_of_find?_eq_some decoded))
  have size := Architecture.instructionBytes_le (Catalog.operandBytes_le_two member) instruction
  by_cases wordMachine : arch.model = .word
  · generalize behind : (if instruction.size = 1 then 0 else machine.peek (address + 1)) = second
    rw [instructionText_of_word wordMachine rfl decoded behind]
    refine (size _).trans (le_trans ?_ room)
    have kinds : (wordKinds arch (machine.peek address) second instruction.parameters).length ≤
        instruction.parameters.length := by
      unfold wordKinds
      exact List.length_filterMap_le _ _
    omega
  · rw [instructionText_of_byte wordMachine rfl decoded]
    refine (size _).trans (le_trans ?_ room)
    simp only [List.length_singleton]
    omega

namespace Catalog

/-! ## Typing back in -/

variable {arch : Architecture} {machine : Machine arch} {address : Nat}

/-- What is shown at an address of any machine of the catalog reads back, but for the exceptions. -/
theorem exists_readsBack (member : arch ∈ machines) {instruction : Instruction}
    (decoded : arch.instruction? (machine.peek address) = some instruction)
    (selects : arch = ramses ∨ arch = pericles → ¬ arch.LeavesRegister (machine.peek address))
    (inside : arch = pericles → ∀ number ∈ machine.addressOperands address, number < 4096)
    {labels : LabelTable} (wellFormed : labels.WellFormed) (cursor : Nat) :
    ∃ bytes, machine.ReadsBack address labels cursor bytes := by
  have readable := legible arch member
  rcases byte_or_word arch member with ⟨sound, operated, _⟩ | ⟨sound, regular, _⟩
  · have apart := operandsApart_of_check (hasOperandsApart_of_ne_cesar arch member sound.model)
    obtain ⟨mode, moded⟩ := Option.isSome_iff_exists.mp
      (isSome_addressingMode? arch member sound.model (machine.peek address))
    refine Machine.exists_readsBack_of_byte sound operated apart readable decoded moded
      (fun addressed number among => ?_) (fun names unnamed => ?_) wellFormed cursor
    · by_cases isPericles : arch = pericles
      · have addresses := inside isPericles
        simp only [Machine.addressOperands, decoded, moded, addressed, if_false] at addresses
        have size : arch.memorySize = 4096 := by rw [isPericles]; rfl
        exact (addresses number among).trans_eq size.symm
      · have small := Machine.lt_of_mem_operandNumbers among
        rw [Datasheet.operandBytes_of_ne_immediate sound.model addressed] at small
        exact small.trans_le (wide_of_byte arch member sound.model isPericles)
    · have leaves : arch.LeavesRegister (machine.peek address) :=
        ⟨instruction, decoded, names, unnamed⟩
      by_cases exception : arch = ramses ∨ arch = pericles
      · exact selects exception leaves
      · exact not_leavesRegister arch member sound.model exception _ leaves
  · obtain rfl := eq_cesar_of_word arch member sound.model
    exact Machine.exists_readsBack_of_word sound regular showsOperands_cesar readable decoded
      wellFormed cursor

/--
What a machine shows at an address can be typed back in, if it shows anything:
the text is a program of one line, which is assembled without errors into as
many bytes as are shown, at the start of memory, and is shown there again with
the same size.
-/
theorem assemble_instructionText (member : arch ∈ machines) (machine : Machine arch)
    (address : Nat) (shown : (machine.instructionText address).text ≠ "")
    (selects : arch = ramses ∨ arch = pericles → ¬ arch.LeavesRegister (machine.peek address))
    (inside : arch = pericles → ∀ number ∈ machine.addressOperands address, number < 4096)
    {before : Architecture} (assembler : Assembler before) (target : Machine arch) :
    let built := assembler.assemble target (machine.instructionText address).text
    built.errors = [] ∧ built.fault = none ∧
      (∃ bytes, bytes.length = (machine.instructionText address).size ∧
        statementEffect ⟨.emit, [], 0⟩ arch (machine.instructionText address).text =
          .ok (.data bytes) ∧ built.machine.Holds 0 bytes) ∧
      (∀ cell : Fin arch.memorySize, built.assembler.line? cell =
        if cell < (machine.instructionText address).size then some 0 else none) ∧
      built.machine.instructionText 0 = machine.instructionText address := by
  obtain ⟨instruction, decoded⟩ :
      ∃ instruction, arch.instruction? (machine.peek address) = some instruction := by
    refine Option.ne_none_iff_exists'.mp fun nothing => shown ?_
    simp only [Machine.instructionText, nothing]
  have noLabels : LabelTable.WellFormed [] := fun _ among => absurd among (by simp)
  obtain ⟨bytes, reads⟩ := exists_readsBack member decoded selects inside noLabels 0
  obtain ⟨first, reserved, same⟩ := reads.reserved
  have few : bytes.length ≤ arch.memorySize :=
    reads.length ▸ machine.size_instructionText_le member address decoded
  obtain ⟨errors, fault, there, lines⟩ := assemble_statement reads.line reserved
    reads.emitted same few (Machine.reachesStack arch member) assembler target
  rw [reads.length] at lines
  exact ⟨errors, fault, ⟨bytes, reads.length, reads.emitted, there⟩, lines,
    reads.again _ 0 there⟩

/-- Two bits of the opcode of this jump stand for nothing; they are zeros in its new bytes. -/
theorem assemble_instructionText_jump :
    let machine := (((Machine.new pericles).poke 7 0x8C).poke 8 0xFF).poke 9 0x0F
    let built := (Assembler.new neander).assemble (Machine.new pericles) "JMP 4095"
    machine.instructionText 7 = ⟨"JMP 4095", 3⟩ ∧ ¬ pericles.LeavesRegister (machine.peek 7) ∧
      machine.addressOperands 7 = [4095] ∧ built.errors = [] ∧ built.fault = none ∧
        built.machine.Holds 0 [0x80, 0xFF, 0x0F] ∧
          built.machine.instructionText 0 = ⟨"JMP 4095", 3⟩ := by
  intro machine built
  have text : machine.instructionText 7 = ⟨"JMP 4095", 3⟩ := by decide +kernel
  have named : ¬ pericles.LeavesRegister (machine.peek 7) := by decide +kernel
  have operands : machine.addressOperands 7 = [4095] := by decide +kernel
  have emitted : statementEffect ⟨.emit, [], 0⟩ pericles "JMP 4095" =
      .ok (.data [0x80, 0xFF, 0x0F]) := by
    let instruction : Instruction := ⟨0, ⟨"1000...."⟩, .jump .always, "jmp a"⟩
    let target : Operand := ⟨⟨some (.word "4095"), none⟩, ⟨⟨"......00"⟩, .direct, "a"⟩⟩
    have written : writtenInstruction? pericles "JMP 4095" =
        some (instruction, [.operand target]) := by decide +kernel
    have encoded : encode ⟨.emit, [], 0⟩ pericles instruction [.operand target] =
        .ok [0x80, 0xFF, 0x0F] := by decide +kernel
    rw [statementEffect_of_written written, encoded]
    rfl
  obtain ⟨errors, fault, ⟨bytes, -, same, there⟩, -, again⟩ :=
    assemble_instructionText (by simp [machines]) machine 7 (by simp [text]) (fun _ => named)
      (fun _ => by simp [operands]) (Assembler.new neander) (Machine.new pericles)
  rw [text] at errors fault same there again
  obtain rfl : [0x80, 0xFF, 0x0F] = bytes := by simpa [emitted] using same
  exact ⟨text, named, operands, errors, fault, there, again⟩

end Catalog

end ClassroomCpu
