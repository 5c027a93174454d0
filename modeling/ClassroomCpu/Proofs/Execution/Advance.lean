import ClassroomCpu.Proofs.Catalog.Registers

/-!
# Steps go on by the size that is shown

Sizes are looked up where instructions are shown, and come about by fetching
and by finding operands where they are executed.  Both agree on every machine
of the catalog, in every state.
-/

namespace ClassroomCpu

open Exec

variable {arch : Architecture}

/-- Every machine of the catalog is regular in the way of its model. -/
theorem Catalog.counterApart_or_wordRegular :
    ∀ arch ∈ machines, (arch.model ≠ .word ∧ arch.CounterApart) ∨ arch.WordRegular :=
  fun arch member => by
    by_cases model : arch.model = .word
    · obtain rfl := eq_cesar_of_word arch member model
      exact .inr wordRegular_cesar
    · exact .inl ⟨model, counterApart_of_byte arch member model⟩

/-- Whether an instruction is none that skips, or one of a single byte on a stack machine. -/
def Catalog.skipsOneByte (arch : Architecture) (instruction : Instruction) : Bool :=
  match instruction.operation with
  | .skip _ => arch.model == .stack && instruction.size == 1
  | _ => true

/-- Skips are instructions of one byte, and only stack machines have them. -/
theorem Catalog.stack_of_skip :
    ∀ arch ∈ machines, ∀ instruction ∈ arch.instructions, ∀ test,
      instruction.operation = .skip test → arch.model = .stack ∧ instruction.size = 1 := by
  have checked : ∀ arch ∈ machines, arch.instructions.all (skipsOneByte arch) = true :=
    forall_machine (by decide) (by decide) (by decide) (by decide) (by decide) (by decide)
      (by decide)
  intro arch member instruction known test operation
  have check := List.all_eq_true.mp (checked arch member) instruction known
  simpa [skipsOneByte, operation] using check

namespace Exec

/-- Counting the instruction leaves the program counter where it is. -/
theorem ends_step {instruction : Exec arch Unit} {machine : Machine arch} {counter : Nat}
    (ends : Ends instruction machine fun _ after => after.counter = counter) :
    Ends (do instruction; modify Machine.countInstruction) machine fun _ after =>
      after.counter = counter := by
  apply ends.bind
  rintro _ after rfl
  exact keeps_countInstruction after

theorem ends_step_of_none (machine : Machine arch)
    (unknown : arch.instruction? (machine.peek machine.counter) = none) :
    Ends step machine fun _ after =>
      after.counter = (machine.counter + 1) % arch.counterSize := by
  by_cases wordMachine : arch.model = .word
  · rw [step_of_word wordMachine]
    exact ends_step (ends_wordInstruction_of_none unknown)
  · rw [step_of_byte wordMachine]
    exact ends_step (ends_byteInstruction_of_none unknown)

theorem ends_step_of_fallsThrough (member : arch ∈ Catalog.machines) {machine : Machine arch}
    (falls : machine.fallsThrough = true) :
    Ends step machine fun _ after =>
      after.counter =
        (machine.counter + (machine.instructionText machine.counter).size) %
          arch.counterSize := by
  unfold Machine.fallsThrough at falls
  cases known : arch.instruction? (machine.peek machine.counter) with
  | none =>
      rw [Machine.size_instructionText_of_none known]
      exact ends_step_of_none machine known
  | some instruction =>
      simp only [known] at falls
      rcases Catalog.counterApart_or_wordRegular arch member with ⟨byteMachine, facts⟩ | regular
      · have stays : instruction.leavesByte (arch.addressingKind (machine.peek machine.counter))
            machine = false := by
          split at falls
          · contradiction
          · simpa using falls
          · simpa using falls
        rw [step_of_byte byteMachine, Machine.size_instructionText_byte byteMachine]
        exact ends_step (ends_byteInstruction_of_stays byteMachine facts known stays)
      · simp only [regular.model, Bool.and_eq_true, Bool.not_eq_true'] at falls
        rw [step_of_word regular.model]
        exact ends_step (ends_wordInstruction regular known falls.1 falls.2)

theorem ends_step_of_skips (member : arch ∈ Catalog.machines) {machine : Machine arch}
    (skips : machine.skips = true) :
    Ends step machine fun _ after =>
      after.counter =
        (machine.counter + 1 + (machine.instructionText (machine.counter + 1)).size) %
          arch.counterSize := by
  unfold Machine.skips at skips
  split at skips
  · rename_i instruction known
    split at skips
    · rename_i test operation
      obtain ⟨stack, single⟩ := Catalog.stack_of_skip arch member instruction
        (List.mem_of_find?_eq_some known) test operation
      have byteMachine : arch.model ≠ .word := by simp [stack]
      rcases Catalog.counterApart_or_wordRegular arch member with ⟨_, facts⟩ | regular
      · rw [step_of_byte byteMachine, Machine.size_instructionText_byte byteMachine]
        exact ends_step (ends_byteInstruction_of_skip facts known stack single operation skips)
      · exact absurd regular.model byteMachine
    · contradiction
  · contradiction

/--
A step that does not go on elsewhere moves the program counter by the size that
is shown for the instruction there, an undefined opcode counts as one byte, and
a skip that is taken passes over the instruction behind it as well.
-/
theorem step_advances_by_size (arch : Architecture) (member : arch ∈ Catalog.machines)
    (machine : Machine arch) :
    (machine.fallsThrough = true →
      Ends step machine fun _ after =>
        after.counter =
          (machine.counter + (machine.instructionText machine.counter).size) %
            arch.counterSize) ∧
      (arch.instruction? (machine.peek machine.counter) = none →
        machine.fallsThrough = true ∧ (machine.instructionText machine.counter).size = 1) ∧
      (machine.skips = true →
        Ends step machine fun _ after =>
          after.counter =
            (machine.counter + 1 + (machine.instructionText (machine.counter + 1)).size) %
              arch.counterSize) := by
  refine ⟨ends_step_of_fallsThrough member, ?_, ends_step_of_skips member⟩
  intro unknown
  exact ⟨by simp [Machine.fallsThrough, unknown], Machine.size_instructionText_of_none unknown⟩

/-- A skip in front of an instruction of two bytes goes on at address three. -/
theorem step_advances_by_size_skip :
    let machine := ((Machine.new Catalog.volta).poke 0 0x21).poke 1 0x70
    Catalog.volta ∈ Catalog.machines ∧ machine.skips = true ∧
      Ends step machine fun _ after => after.counter = 3 := by
  intro machine
  have member : Catalog.volta ∈ Catalog.machines := by simp [Catalog.machines]
  have skips : machine.skips = true := by decide +kernel
  have next : (machine.counter + 1 + (machine.instructionText (machine.counter + 1)).size) %
      Catalog.volta.counterSize = 3 := by decide +kernel
  have advances := (step_advances_by_size Catalog.volta member machine).2.2 skips
  rw [next] at advances
  exact ⟨member, skips, advances⟩

end Exec

end ClassroomCpu
