import ClassroomCpu.Proofs.Execution.Composed

/-!
# What instructions write

A step is a chain of writes, and so is a run, whether it ends or meets a fault:
nothing that an instruction does changes a machine in another way.
-/

namespace ClassroomCpu

variable {arch : Architecture}

namespace Exec

variable {α β : Type}

/-- The machine that a computation leaves, with a result or with a fault. -/
def after (computation : Exec arch α) (machine : Machine arch) : Machine arch :=
  match computation machine with
  | .ok _ after => after
  | .error _ after => after

/-- The computation does nothing but write. -/
def Writes (computation : Exec arch α) : Prop :=
  ∀ machine, Machine.Writes machine (computation.after machine)

namespace Writes

theorem of_pure (result : α) : Writes (pure result : Exec arch α) :=
  fun _ => .refl

theorem of_get : Writes (get : Exec arch (Machine arch)) :=
  fun _ => .refl

theorem of_throw (fault : Fault) : Writes (throw fault : Exec arch α) :=
  fun _ => .refl

theorem of_modify {change : Machine arch → Machine arch}
    (writes : ∀ machine, Machine.Writes machine (change machine)) :
    Writes (modify change : Exec arch PUnit) :=
  writes

theorem bind_of_gives {computation : Exec arch α} {next : α → Exec arch β}
    {described : α → Prop} (first : Writes computation) (gives : Gives computation described)
    (second : ∀ result, described result → Writes (next result)) :
    Writes (computation >>= next) := by
  intro machine
  have here := first machine
  unfold after at here ⊢
  cases ends : computation machine with
  | ok result between =>
      rw [ends] at here
      rw [bind_of_ok ends]
      exact here.trans (second result (gives machine result between ends) between)
  | error fault between =>
      -- What was written up to the fault stays written.
      rw [ends] at here
      have stops : (computation >>= next) machine = .error fault between := by
        simp [Bind.bind, EStateM.bind, ends]
      rw [stops]
      exact here

theorem bind {computation : Exec arch α} {next : α → Exec arch β}
    (first : Writes computation) (second : ∀ result, Writes (next result)) :
    Writes (computation >>= next) :=
  first.bind_of_gives (fun _ _ _ _ => trivial) fun result _ => second result

end Writes

/-- What is put together from parts does nothing but write. -/
theorem Composed.writes {computation : Exec arch α} (composed : Composed computation) :
    Writes computation := by
  induction composed with
  | pure result => exact .of_pure result
  | throw fault => exact .of_throw fault
  | look deaf further induction => exact Writes.of_get.bind induction
  | write writes announced => exact .of_modify writes
  | bind_of_gives first gives second first' second' => exact first'.bind_of_gives gives second'

/-- A step is a chain of writes. -/
theorem writes_step : Writes (step : Exec arch Unit) :=
  composed_step.writes

/-- A run is a chain of writes. -/
theorem writes_run (limit : Nat) : Writes (run limit : Exec arch Nat) :=
  (composed_run limit).writes

end Exec

end ClassroomCpu
