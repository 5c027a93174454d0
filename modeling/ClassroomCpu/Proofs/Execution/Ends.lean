import ClassroomCpu.Execution.Access

/-!
# Computations that end

A computation ends at a machine if it meets no fault there; what it leaves is
described by a relation.  Descriptions are put together along `do`.
-/

namespace ClassroomCpu.Exec

variable {arch : Architecture} {α β : Type}

theorem pure_apply (result : α) (machine : Machine arch) :
    (pure result : Exec arch α) machine = .ok result machine := rfl

theorem get_apply (machine : Machine arch) :
    (get : Exec arch (Machine arch)) machine = .ok machine machine := rfl

/-- A computation goes on where its first part ends. -/
theorem bind_of_ok {computation : Exec arch α} {next : α → Exec arch β}
    {machine after : Machine arch} {result : α} (ends : computation machine = .ok result after) :
    (computation >>= next) machine = next result after := by
  simp [Bind.bind, EStateM.bind, ends]

/-- The computation meets no fault; its result and the machine after it are as described. -/
def Ends (computation : Exec arch α) (machine : Machine arch)
    (described : α → Machine arch → Prop) : Prop :=
  ∃ result after, computation machine = .ok result after ∧ described result after

namespace Ends

variable {computation : Exec arch α} {machine : Machine arch}
  {described : α → Machine arch → Prop}

theorem of_eq {result : α} {after : Machine arch}
    (ends : computation machine = .ok result after) (holds : described result after) :
    Ends computation machine described :=
  ⟨result, after, ends, holds⟩

theorem of_pure {result : α} (holds : described result machine) :
    Ends (pure result) machine described :=
  of_eq rfl holds

theorem mono {weaker : α → Machine arch → Prop} (ends : Ends computation machine described)
    (weaken : ∀ result after, described result after → weaker result after) :
    Ends computation machine weaker := by
  obtain ⟨result, after, same, holds⟩ := ends
  exact ⟨result, after, same, weaken result after holds⟩

theorem bind {next : α → Exec arch β} {later : β → Machine arch → Prop}
    (first : Ends computation machine described)
    (second : ∀ result after, described result after → Ends (next result) after later) :
    Ends (computation >>= next) machine later := by
  obtain ⟨middle, between, firstEnds, holds⟩ := first
  obtain ⟨result, after, secondEnds, holdsLater⟩ := second middle between holds
  exact ⟨result, after, (bind_of_ok firstEnds).trans secondEnds, holdsLater⟩

/-- A computation whose first part is known ends if it does from there on. -/
theorem after {next : α → Exec arch β} {later : β → Machine arch → Prop} {result : α}
    {between : Machine arch} (first : computation machine = .ok result between)
    (second : Ends (next result) between later) : Ends (computation >>= next) machine later := by
  rw [Ends, bind_of_ok first]
  exact second

end Ends

/-- The computation ends everywhere and leaves the program counter as it is. -/
def Keeps (computation : Exec arch α) : Prop :=
  ∀ machine, Ends computation machine fun _ after => after.counter = machine.counter

namespace Keeps

theorem of_pure (result : α) : Keeps (pure result : Exec arch α) :=
  fun _ => .of_pure rfl

theorem bind {computation : Exec arch α} {next : α → Exec arch β}
    (first : Keeps computation) (second : ∀ result, Keeps (next result)) :
    Keeps (computation >>= next) := by
  intro machine
  apply (first machine).bind
  intro result between same
  rw [← same]
  exact second result between

theorem of_get : Keeps (get : Exec arch (Machine arch)) :=
  fun _ => .of_eq rfl rfl

theorem of_modify {change : Machine arch → Machine arch}
    (same : ∀ machine, (change machine).counter = machine.counter) :
    Keeps (modify change : Exec arch PUnit) :=
  fun machine => .of_eq rfl (same machine)

end Keeps

end ClassroomCpu.Exec
