import ClassroomCpu.Proofs.Assembly.WordEncoding
import ClassroomCpu.Proofs.Execution.ByteAgreement
import ClassroomCpu.Proofs.Execution.WordCounter

/-!
# Agreement of instructions of word machines

Instructions of a word machine do the same if they get at the same operands,
work on the same register and condition codes, and branch to the same place.
-/

namespace ClassroomCpu

variable {arch : Architecture}

namespace Machine

theorem setCounter_congr (machine : Machine arch) {value other : Int}
    (same : value % arch.counterSize = other % arch.counterSize) :
    machine.setCounter value = machine.setCounter other := by
  have held : (arch.registers.get arch.counter).hold value =
      (arch.registers.get arch.counter).hold other :=
    congrArg Int.toNat same
  simp only [setCounter, setRegister, held]

end Machine

/-- Two operands that are found and read alike at a machine. -/
structure WordOperand.SameAt (operand other : WordOperand arch) (machine : Machine arch) :
    Prop where
  kind : operand.kind = other.kind
  locate : operand.locate machine = other.locate machine
  load : ∀ location between, other.locate machine = .ok location between →
    operand.load location between = other.load location between

namespace FetchedWord

/-- Two instructions in a format that do the same at a machine, as far as the format goes. -/
structure SameAt (format : WordFormat) (fetched other : FetchedWord arch)
    (machine : Machine arch) : Prop where
  formatted : fetched.instruction.operation.format = format
  instruction : fetched.instruction = other.instruction
  number : format.parameters.contains .register = true → fetched.number = other.number
  codes : format = .flags → fetched.codes = other.codes
  operand : format.parameters.contains (.operand "a") = true →
    fetched.operand.SameAt other.operand machine
  source : format = .operands → fetched.source.SameAt other.source machine
  destination : format = .operands →
    ∀ place between value after, other.source.locate machine = .ok place between →
      other.source.load place between = .ok value after →
        fetched.destination.SameAt other.destination after
  target : format.parameters.contains .offset = true →
    fetched.target machine.counter % arch.counterSize =
      other.target machine.counter % arch.counterSize
  /-- A loop counts with a register other than the program counter. -/
  counts : format = .loop →
    ∃ index : Fin arch.registers.length, index ≠ arch.counter ∧ other.number = index

variable {fetched other : FetchedWord arch} {machine : Machine arch}

theorem jump_congr (operand : fetched.operand.SameAt other.operand machine) :
    fetched.jump machine = other.jump machine := by
  unfold jump
  rw [operand.kind]
  split
  · exact Exec.bind_congr_at operand.locate fun _ _ _ => rfl
  · rfl

theorem call_congr (operand : fetched.operand.SameAt other.operand machine)
    (number : fetched.number = other.number) : fetched.call machine = other.call machine := by
  unfold call
  rw [operand.kind, number]
  split
  · exact Exec.bind_congr_at operand.locate fun _ _ _ => rfl
  · rfl

theorem branch_congr {condition : Condition}
    (target : fetched.target machine.counter % arch.counterSize =
      other.target machine.counter % arch.counterSize) :
    fetched.branch condition machine = other.branch condition machine := by
  unfold branch
  rw [Exec.bind_of_ok (Exec.status_apply machine), Exec.bind_of_ok (Exec.status_apply machine)]
  split
  · rw [Exec.bind_of_ok (Exec.counter_apply machine), Exec.bind_of_ok (Exec.counter_apply machine),
      Exec.setCounter_apply, Exec.setCounter_apply, machine.setCounter_congr target]
  · rfl

theorem loop_congr (number : fetched.number = other.number)
    {index : Fin arch.registers.length} (apart : index ≠ arch.counter)
    (counts : other.number = index)
    (target : fetched.target machine.counter % arch.counterSize =
      other.target machine.counter % arch.counterSize) :
    fetched.loop machine = other.loop machine := by
  unfold loop
  rw [number, counts, Exec.bind_of_ok (Exec.readRegister_apply index machine),
    Exec.bind_of_ok (Exec.readRegister_apply index machine),
    Exec.bind_of_ok (Exec.writeRegister_apply index _ machine),
    Exec.bind_of_ok (Exec.writeRegister_apply index _ machine),
    Exec.bind_of_ok (Exec.readRegister_apply index _),
    Exec.bind_of_ok (Exec.readRegister_apply index _)]
  split
  · rw [Exec.bind_of_ok (Exec.counter_apply _), Exec.bind_of_ok (Exec.counter_apply _),
      machine.counter_setRegister apart, Exec.setCounter_apply, Exec.setCounter_apply,
      Machine.setCounter_congr _ target]
  · rfl

theorem computeOnWord_congr (instruction : fetched.instruction = other.instruction)
    (operand : fetched.operand.SameAt other.operand machine) :
    fetched.computeOnWord machine = other.computeOnWord machine := by
  unfold computeOnWord
  rw [instruction]
  apply Exec.bind_congr_at operand.locate
  intro location between found
  exact Exec.bind_congr_at (operand.load location between found) fun _ _ _ => rfl

theorem computeOnWords_congr (instruction : fetched.instruction = other.instruction)
    (source : fetched.source.SameAt other.source machine)
    (destination : ∀ place between value after, other.source.locate machine = .ok place between →
      other.source.load place between = .ok value after →
        fetched.destination.SameAt other.destination after) :
    fetched.computeOnWords machine = other.computeOnWords machine := by
  unfold computeOnWords
  rw [instruction]
  apply Exec.bind_congr_at source.locate
  intro place between foundSource
  apply Exec.bind_congr_at (source.load place between foundSource)
  intro value after read
  have same := destination place between value after foundSource read
  apply Exec.bind_congr_at same.locate
  intro location last found
  cases other.instruction.operation with
  | add | sub | compare | and | or =>
      exact Exec.bind_congr_at (same.load location last found) fun _ _ _ => rfl
  | _ => rfl

/-- Instructions that get at the same things do the same. -/
theorem execute_congr {format : WordFormat} (same : SameAt format fetched other machine) :
    fetched.execute machine = other.execute machine := by
  obtain ⟨rfl, instruction, number, codes, operand, source, destination, target, counts⟩ := same
  unfold execute
  rw [← instruction]
  cases operation : fetched.instruction.operation with
  | clearFlags | setFlags =>
      rw [operation] at codes
      rw [codes rfl]
  | branch condition =>
      rw [operation] at target
      exact branch_congr (target rfl)
  | loop =>
      rw [operation] at number target counts
      obtain ⟨index, apart, counted⟩ := counts rfl
      exact loop_congr (number rfl) apart counted (target rfl)
  | jump test =>
      rw [operation] at operand
      cases test with
      | always => exact jump_congr (operand rfl)
      | _ => rfl
  | call =>
      rw [operation] at operand number
      exact call_congr (operand rfl) (number rfl)
  | ret =>
      rw [operation] at number
      simp only [ret, number rfl]
  | clear =>
      rw [operation] at operand
      exact Exec.bind_congr_at (operand rfl).locate fun _ _ _ => rfl
  | not | inc | dec | neg | test | rotateRight | rotateLeft | halve | double | addCarry
  | subCarry =>
      rw [operation] at operand
      exact computeOnWord_congr instruction (operand rfl)
  | move | add | sub | compare | and | or =>
      rw [operation] at source destination
      exact computeOnWords_congr instruction (source rfl) (destination rfl)
  | _ => rfl

end FetchedWord

end ClassroomCpu
