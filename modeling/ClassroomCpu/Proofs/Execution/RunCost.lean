import ClassroomCpu.Proofs.Execution.ByteCost
import ClassroomCpu.Proofs.Execution.Reference
import ClassroomCpu.Proofs.Execution.WordCost

/-!
# What runs cost

The cost of a step can be told from the machine before it.  A run counts one
instruction for each of its steps, and the accesses of all steps together.
-/

namespace ClassroomCpu

variable {arch : Architecture}

/-- The accesses of the next step. -/
def Machine.stepAccesses (machine : Machine arch) : Nat :=
  match arch.model with
  | .word => machine.wordAccesses
  | .standard | .stack => machine.byteAccesses

namespace Exec

/-- Some machines, each of them running, are stepped one after the other. -/
inductive Executes : Machine arch → List (Machine arch) → Machine arch → Prop where
  | done (machine : Machine arch) : Executes machine [] machine
  | step {machine between after : Machine arch} {later : List (Machine arch)}
      (running : machine.running = true) (ends : Exec.step machine = .ok () between)
      (rest : Executes between later after) : Executes machine (machine :: later) after

/-- Counting the instruction is no access. -/
theorem ends_step_of_counted {instruction : Exec arch Unit} {machine : Machine arch}
    {accesses : Nat}
    (ends : Ends instruction machine fun _ (after : Machine arch) =>
      machine.Counted after accesses) :
    Ends (do instruction; modify Machine.countInstruction) machine fun _ after =>
      after.instructionCount = machine.instructionCount + 1 ∧
        after.accessCount = machine.accessCount + accesses := by
  apply ends.bind
  intro _ between counted
  exact .of_eq rfl ⟨congrArg (· + 1) counted.instructions, counted.accesses⟩

/-- A step counts one instruction and the accesses that can be told before it. -/
theorem counted_step (member : arch ∈ Catalog.machines) (machine : Machine arch) :
    Ends step machine fun _ after =>
      after.instructionCount = machine.instructionCount + 1 ∧
        after.accessCount = machine.accessCount + machine.stepAccesses := by
  unfold Machine.stepAccesses
  rcases Catalog.byte_or_word arch member with ⟨sound, _, facts⟩ | ⟨_, regular, pointer⟩
  · rw [step_of_byte sound.model]
    have ends := ends_step_of_counted (costs_byteInstruction facts machine)
    cases model : arch.model with
    | word => exact absurd model sound.model
    | standard | stack => exact ends
  · rw [step_of_word regular.model, regular.model]
    exact ends_step_of_counted (costs_wordInstruction regular pointer machine)

/-- Steps that are made while the machine runs count themselves and their accesses. -/
theorem counted_stepsFrom (member : arch ∈ Catalog.machines) (before limit : Nat)
    (machine : Machine arch) :
    Ends (stepsFrom before limit) machine fun steps after =>
      ∃ executed, Executes machine executed after ∧ steps = before + executed.length ∧
        executed.length ≤ limit ∧ (executed.length < limit → after.running = false) ∧
          after.instructionCount = machine.instructionCount + executed.length ∧
            after.accessCount =
              machine.accessCount + (executed.map Machine.stepAccesses).sum := by
  induction limit generalizing before machine with
  | zero => exact .of_pure ⟨[], .done machine, rfl, Nat.le_refl 0, by simp, rfl, rfl⟩
  | succ limit induction =>
      rw [stepsFrom]
      apply Ends.after (get_apply machine)
      by_cases running : machine.running = true
      · rw [if_pos running]
        obtain ⟨_, between, ends, instructions, accesses⟩ := counted_step member machine
        apply Ends.after ends
        apply (induction (before + 1) between).mono
        rintro steps after ⟨later, executes, count, bounded, halted, instructionsLater, accessesLater⟩
        refine ⟨machine :: later, .step running ends executes, ?_, ?_, ?_, ?_, ?_⟩
        · rw [count, List.length_cons]
          omega
        · rw [List.length_cons]
          omega
        · intro fewer
          rw [List.length_cons] at fewer
          exact halted (by omega)
        · rw [instructionsLater, instructions, List.length_cons]
          omega
        · rw [accessesLater, accesses, List.map_cons, List.sum_cons, Nat.add_assoc]
      · rw [if_neg running]
        exact .of_pure ⟨[], .done machine, rfl, Nat.zero_le _, fun _ => by simpa using running,
          rfl, rfl⟩

/--
A run on a machine of the catalog ends.  Its result is the number of the steps that it made, no
more than its limit and fewer only if the machine halted; the number of instructions has grown by
that, and the number of accesses by what each of the steps costs.
-/
theorem run_counts (arch : Architecture) (member : arch ∈ Catalog.machines)
    (machine : Machine arch) (limit : Nat) :
    Ends (run limit) machine fun steps after =>
      ∃ executed, Executes (machine.setRunning true) executed after ∧ steps = executed.length ∧
        steps ≤ limit ∧ (steps < limit → after.running = false) ∧
          after.instructionCount = machine.instructionCount + steps ∧
            after.accessCount =
              machine.accessCount + (executed.map Machine.stepAccesses).sum := by
  have started : setRunning true machine = .ok () (machine.setRunning true) := rfl
  apply Ends.after started
  apply (counted_stepsFrom member 0 limit (machine.setRunning true)).mono
  rintro steps after ⟨executed, executes, count, bounded, halted, instructions, accesses⟩
  rw [Nat.zero_add] at count
  subst count
  exact ⟨executed, executes, rfl, bounded, halted, instructions, accesses⟩

/-- An indirect load of Ramses costs four accesses, whatever is run behind it. -/
theorem run_counts_indirect :
    let machine := ((Machine.new Catalog.ramses).poke 0 0x21).poke 1 0x80
    machine.stepAccesses = 4 ∧
      Ends (run 2) machine fun steps after =>
        ∃ executed, Executes (machine.setRunning true) executed after ∧ steps = executed.length ∧
          steps ≤ 2 ∧ (steps < 2 → after.running = false) ∧
            after.instructionCount = machine.instructionCount + steps ∧
              after.accessCount =
                machine.accessCount + (executed.map Machine.stepAccesses).sum := by
  intro machine
  have member : Catalog.ramses ∈ Catalog.machines := by simp [Catalog.machines]
  exact ⟨by decide +kernel, run_counts Catalog.ramses member machine 2⟩

end Exec

end ClassroomCpu
