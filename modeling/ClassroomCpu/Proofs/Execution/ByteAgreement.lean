import ClassroomCpu.Proofs.Execution.Fetch
import ClassroomCpu.Proofs.Execution.WrittenStep
import ClassroomCpu.Proofs.Machine.Held

/-!
# Operands of byte machines

Where the bytes of an operand lie, an instruction reads out of them exactly the
number that was written.  Instructions that read the same operands do the same.
-/

namespace ClassroomCpu

variable {arch : Architecture}

namespace Exec

theorem passOver_apply (count : Nat) (machine : Machine arch) :
    passOver count machine = .ok () (machine.countAccesses count) := rfl

theorem passBytes_apply (count : Nat) (machine : Machine arch) :
    passBytes count machine =
      .ok () ((machine.countAccesses count).setCounter (machine.counter + count)) := rfl

/-- Computations agree at a machine if their first parts do and they go on alike from there. -/
theorem bind_congr_at {α β : Type} {first other : Exec arch α} {next otherNext : α → Exec arch β}
    {machine : Machine arch} (same : first machine = other machine)
    (further : ∀ result between, other machine = .ok result between →
      next result between = otherNext result between) :
    (first >>= next) machine = (other >>= otherNext) machine := by
  simp only [Bind.bind, EStateM.bind, same]
  cases ends : other machine with
  | ok result between => exact further result between ends
  | error fault between => rfl

end Exec

namespace OperandAccess

/-! ## Operands in memory -/

section Numbers

variable {machine : Machine arch} {own : Nat} {number : Int}

end Numbers

end OperandAccess

/-! ## Execution -/

/-- Whether an operation of a byte machine works on an addressed operand. -/
def Operation.isAddressed (model : ExecutionModel) : Operation → Bool
  | .store | .load | .add | .sub | .or | .and => model == .standard
  | .push | .pop => model == .stack
  | .jump _ | .call => true
  | _ => false

namespace Fetched

/-- Two fetched instructions that do the same at a machine, as far as they look at operands. -/
structure SameAt (fetched other : Fetched arch) (machine : Machine arch) : Prop where
  instruction : fetched.instruction = other.instruction
  register : fetched.register = other.register
  addressed : fetched.instruction.operation.isAddressed arch.model = true →
    fetched.kind = other.kind ∧
      fetched.operand.address machine = other.operand.address machine ∧
        fetched.operand.value machine = other.operand.value machine
  choice : fetched.instruction.operation = .choose → ∀ first,
    fetched.operand.choice first machine = other.operand.choice first machine

variable {fetched other : Fetched arch} {machine : Machine arch}

end Fetched

end ClassroomCpu
