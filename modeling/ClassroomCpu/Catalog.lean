import ClassroomCpu.Catalog.Ahmes
import ClassroomCpu.Catalog.Cesar
import ClassroomCpu.Catalog.Neander
import ClassroomCpu.Catalog.Ramses
import ClassroomCpu.Catalog.Reg
import ClassroomCpu.Catalog.Volta

/-!
# The catalog

All machines that there are, and how they are found by a name or by the
identifier in a memory image.
-/

namespace ClassroomCpu.Catalog

/-- The machines in the order of the catalog. -/
def machines : List Architecture :=
  [neander, ahmes, ramses, pericles, reg, volta, cesar]

/-- A fact about every machine of the catalog. -/
theorem forall_machine {motive : Architecture → Prop} (isNeander : motive neander)
    (isAhmes : motive ahmes) (isRamses : motive ramses) (isPericles : motive pericles)
    (isReg : motive reg) (isVolta : motive volta) (isCesar : motive cesar) :
    ∀ arch ∈ machines, motive arch := by
  intro arch member
  simp only [machines, List.mem_cons, List.not_mem_nil, or_false] at member
  rcases member with rfl | rfl | rfl | rfl | rfl | rfl | rfl <;> assumption

/-- A fact about every byte machine of the catalog. -/
theorem forall_byteMachine {motive : Architecture → Prop} (isNeander : motive neander)
    (isAhmes : motive ahmes) (isRamses : motive ramses) (isPericles : motive pericles)
    (isReg : motive reg) (isVolta : motive volta) :
    ∀ arch ∈ machines, arch.model ≠ .word → motive arch :=
  forall_machine (fun _ => isNeander) (fun _ => isAhmes) (fun _ => isRamses)
    (fun _ => isPericles) (fun _ => isReg) (fun _ => isVolta)
    (fun byteMachine => absurd rfl byteMachine)

/-- Cesar is the only word machine. -/
theorem eq_cesar_of_word : ∀ arch ∈ machines, arch.model = .word → arch = cesar :=
  forall_machine nofun nofun nofun nofun nofun nofun fun _ => rfl

/-- The machine with the given name or identifier, whatever the case of the letters. -/
def named? (name : String) : Option Architecture :=
  machines.find? fun arch =>
    Text.sameLetters arch.name name || Text.sameLetters arch.identifier name

/-- The machine with exactly the given identifier. -/
def identified? (identifier : String) : Option Architecture :=
  machines.find? fun arch => arch.identifier == identifier

end ClassroomCpu.Catalog
