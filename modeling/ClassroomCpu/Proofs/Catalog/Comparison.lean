import ClassroomCpu.Proofs.Catalog.Registers
import ClassroomCpu.Proofs.Execution.Comparison

/-!
# Branches of Cesar behind a comparison

Each of the fifteen branches of Cesar is taken behind a comparison just if the
compared words are in the order that the branch is named for.
-/

namespace ClassroomCpu

/-- The condition of a branch. -/
def Operation.condition? : Operation → Option Condition
  | .branch condition => some condition
  | _ => none

namespace Catalog

/-- The branches of Cesar, and the conditions under which they are taken. -/
def cesarBranches : List (String × Condition) :=
  [("BR", .always), ("BNE", .notEqual), ("BEQ", .equal), ("BPL", .plus), ("BMI", .minus),
    ("BVC", .overflowClear), ("BVS", .overflowSet), ("BCC", .carryClear), ("BCS", .carrySet),
    ("BGE", .greaterOrEqual), ("BLT", .less), ("BGT", .greater), ("BLE", .lessOrEqual),
    ("BHI", .higher), ("BLS", .lowerOrSame)]

theorem hasWordCodes_cesar : cesar.HasWordCodes := by
  intro code notBorrow
  cases code with
  | borrow => exact absurd rfl notBorrow
  | _ => rfl

/--
The branches of Cesar are those of the table.  A comparison reads two words,
whatever the addressing modes, and stores neither: memory is as it was, and the
registers are as finding the words left them.  Every condition holds behind it
just if the words are in its order, and a branch that follows is taken just then.
-/
theorem branches_order_compared :
    (cesar.instructions.filterMap fun instruction =>
      instruction.operation.condition?.map (instruction.title, ·)) = cesarBranches ∧
    ∀ machine : Machine cesar, machine.Sound → machine.operationAhead? = some .compare →
      Exec.Ends (Exec.readOperands (machine.peek machine.counter)
          (machine.peek (machine.counter + 1))) machine.pastOpcode.pastOpcode fun words found =>
        words.1 < 65536 ∧ words.2 < 65536 ∧
          Exec.Ends Exec.step machine fun _ after =>
            after.memory = machine.memory ∧ after.registers = found.registers ∧
              ∀ condition : Condition,
                (condition.holds after.status = true ↔ condition.Orders words.1 words.2) ∧
                  (after.operationAhead? = some (.branch condition) →
                    Exec.Ends Exec.step after fun _ last =>
                      (condition.Orders words.1 words.2 → last.counter = after.branchGoal) ∧
                        (¬ condition.Orders words.1 words.2 →
                          last.counter = (after.counter + 2) % 65536)) := by
  refine ⟨by decide +kernel, fun machine sound compares => ?_⟩
  apply (Exec.ends_step_of_compare wordRegular_cesar hasWordCodes_cesar sound compares).mono
  rintro words found ⟨smallFirst, smallSecond, steps⟩
  refine ⟨smallFirst, smallSecond, steps.mono ?_⟩
  rintro _ after ⟨shown, memory, registers⟩
  refine ⟨memory, registers, fun condition => ?_⟩
  have ordered := shown.holds_iff smallFirst smallSecond condition
  refine ⟨ordered, fun branches => ?_⟩
  apply (Exec.ends_step_of_branch wordRegular_cesar branches).mono
  intro _ last goes
  rw [← ordered, goes]
  exact ⟨fun taken => if_pos taken, fun passed => if_neg passed⟩

/--
The least signed number is compared with one, which is found in memory through
a register that moves on.  Their difference overflows, and the branch for the
signed order is taken.
-/
theorem branches_order_compared_least :
    let machine := ((Machine.new cesar).poke 0 0xC0).poke 1 0x09 |>.poke 2 0x3A |>.poke 3 0x10
      |>.poke 33 1 |>.setRegister ⟨0, by decide⟩ 0x8000 |>.setRegister ⟨1, by decide⟩ 32
    ∃ after last, Exec.step machine = .ok () after ∧ after.memory = machine.memory ∧
      Condition.overflowSet.holds after.status = true ∧ Condition.Orders 0x8000 1 .higher ∧
        Exec.step after = .ok () last ∧ last.counter = 20 := by
  intro machine
  have sound : machine.Sound :=
    (((Machine.Sound.new cesar).of_same (by rfl)).setRegister ⟨0, by decide⟩ 0x8000).setRegister
      ⟨1, by decide⟩ 32
  obtain ⟨words, found, reads, -, -, _, after, steps, memory, -, ordered⟩ :=
    branches_order_compared.2 machine sound (by decide +kernel)
  have compared : words = (0x8000, 1) := by
    have read : (match Exec.readOperands (machine.peek machine.counter)
        (machine.peek (machine.counter + 1)) machine.pastOpcode.pastOpcode with
      | .ok words _ => words
      | .error _ _ => (0, 0)) = (0x8000, 1) := by decide +kernel
    rw [reads] at read
    exact read
  subst compared
  have reached : after = Exec.after Exec.step machine := by rw [Exec.after, steps]
  obtain ⟨_, last, branches, taken, -⟩ :=
    (ordered .less).2 (by rw [reached]; decide +kernel)
  have goal : after.branchGoal = 20 := by
    rw [reached]
    decide +kernel
  exact ⟨after, last, steps, memory, (ordered .overflowSet).1.mpr (.inl (by decide)),
    (ordered .higher).1.mp (by rw [reached]; decide +kernel), branches,
    (taken (by simp only [Condition.Orders]; decide)).trans goal⟩

end Catalog

end ClassroomCpu
