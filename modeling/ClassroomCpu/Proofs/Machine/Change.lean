import ClassroomCpu.MemoryImage
import ClassroomCpu.Proofs.Assembly.Assembler
import Mathlib.Logic.Relation

/-!
# Changes of a machine

Whatever is done to a machine is a chain of few single changes.  Instructions
write memory, stack, registers, flags and counts; texts and labels are set and
events held back by the operations on the whole machine alone.  What every
single change keeps is kept by every operation.
-/

namespace ClassroomCpu.Machine

open Relation (ReflTransGen)

variable {arch : Architecture}

/-- A single write as instructions make them. -/
inductive Write : Machine arch → Machine arch → Prop where
  | poke (machine : Machine arch) (address : Nat) (value : Int) :
      Write machine (machine.poke address value)
  | pokeStack (machine : Machine arch) (index : Nat) (value : Int) :
      Write machine (machine.pokeStack index value)
  | setRegister (machine : Machine arch) (index : Fin arch.registers.length) (value : Int) :
      Write machine (machine.setRegister index value)
  | setFlag (machine : Machine arch) (index : Fin arch.flags.length) (value : Bool) :
      Write machine (machine.setFlag index value)
  | setRunning (machine : Machine arch) (value : Bool) : Write machine (machine.setRunning value)
  | setInstructionCount (machine : Machine arch) (count : Nat) :
      Write machine (machine.setInstructionCount count)
  | setAccessCount (machine : Machine arch) (count : Nat) :
      Write machine (machine.setAccessCount count)

/-- A single change of a machine or of how it tells about changes. -/
inductive Change : Machine arch → Machine arch → Prop where
  | write {machine after : Machine arch} : Write machine after → Change machine after
  | setText (machine : Machine arch) (cell : Fin arch.memorySize) (text : String) :
      Change machine (machine.setText cell text)
  | setLabel (machine : Machine arch) (cell : Fin arch.memorySize) (label : String) :
      Change machine (machine.setLabel cell label)
  | startQueue (machine : Machine arch) : Change machine machine.startQueue
  | flush (machine : Machine arch) : Change machine machine.flush

/-- A chain of writes. -/
abbrev Writes : Machine arch → Machine arch → Prop :=
  ReflTransGen Write

/-- A chain of changes. -/
abbrev Changes : Machine arch → Machine arch → Prop :=
  ReflTransGen Change

theorem Writes.changes {machine after : Machine arch} (writes : Writes machine after) :
    Changes machine after := by
  induction writes with
  | refl => exact .refl
  | tail _ write induction => exact induction.tail (.write write)

/-! ## Writes to places that need not be there -/

section Writes

variable (machine : Machine arch)

theorem writes_setRegister? (value : Int) (index : Option (Fin arch.registers.length)) :
    Writes machine (machine.setRegister? value index) := by
  cases index with
  | none => exact .refl
  | some index => exact .single (.setRegister machine index value)

theorem writes_setCode (code : FlagCode) (value : Bool) :
    Writes machine (machine.setCode code value) := by
  unfold setCode
  split
  · exact .single (.setFlag machine _ value)
  · exact .refl

theorem writes_clearCounts : Writes machine machine.clearCounts :=
  .tail (.single (.setInstructionCount machine 0)) (.setAccessCount _ 0)

/-! ## Chains over lists -/

/-- Changes for each element of a list are a chain. -/
theorem reflTransGen_foldl {Index : Type} {related : Machine arch → Machine arch → Prop}
    {step : Machine arch → Index → Machine arch}
    (each : ∀ machine index, ReflTransGen related machine (step machine index))
    (indices : List Index) : ReflTransGen related machine (indices.foldl step machine) := by
  induction indices generalizing machine with
  | nil => exact .refl
  | cons index indices induction => exact (each machine index).trans (induction _)

theorem writes_resetRegisters : Writes machine machine.resetRegisters :=
  reflTransGen_foldl machine (fun machine index => .single (.setRegister machine index 0)) _

theorem writes_resetFlags : Writes machine machine.resetFlags :=
  reflTransGen_foldl machine (fun machine index => .single (.setFlag machine index _)) _

theorem writes_resetStack : Writes machine machine.resetStack :=
  reflTransGen_foldl machine (fun machine index => .single (.pokeStack machine index 0)) _

end Writes

/-! ## Operations on the whole machine -/

section Changes

variable (machine : Machine arch)

theorem changes_clearTexts (address count : Nat) :
    Changes machine (machine.clearTexts address count) := by
  induction count generalizing machine address with
  | zero => exact .refl
  | succ count induction =>
      unfold clearTexts
      split
      · exact .head (.setText machine _ "") (induction _ _)
      · exact .refl

theorem changes_refreshTextsFrom (address : Nat) :
    Changes machine (machine.refreshTextsFrom address) := by
  fun_induction machine.refreshTextsFrom address with
  | case1 machine address inside shown =>
      rename_i induction
      exact (ReflTransGen.head (.setText machine _ _) (changes_clearTexts _ _ _)).trans induction
  | case2 => exact .refl

theorem changes_refreshTexts : Changes machine machine.refreshTexts :=
  changes_refreshTextsFrom machine 0

theorem changes_reset : Changes machine machine.reset := by
  have writes : Writes machine
      (machine.resetRegisters.resetFlags.resetStack.clearCounts.setRunning false) :=
    ((((writes_resetRegisters machine).trans (writes_resetFlags _)).trans
      (writes_resetStack _)).trans (writes_clearCounts _)).tail (.setRunning _ false)
  exact writes.changes.trans (changes_refreshTexts _)

theorem changes_writeImage (memory : Vector UInt8 arch.memorySize) :
    Changes machine (machine.writeImage memory) := by
  apply reflTransGen_foldl
  intro machine cell
  split
  · exact .refl
  · exact .single (.write (.poke machine _ _))

theorem changes_setLabels (labels : Vector String arch.memorySize) :
    Changes machine (machine.setLabels labels) :=
  reflTransGen_foldl machine (fun machine cell => .single (.setLabel machine cell _)) _

theorem changes_commit (assembler : Assembly.Assembler arch) :
    Changes machine (assembler.commit machine) := by
  have written : Changes machine
      ((machine.startQueue.writeImage assembler.memory).setLabels assembler.labelTexts) :=
    (ReflTransGen.head (.startQueue machine) (changes_writeImage _ _)).trans
      (changes_setLabels _ _)
  exact (written.trans (changes_reset _)).tail (.flush _)

theorem changes_assemble {before : Architecture} (assembler : Assembly.Assembler before)
    (source : String) : Changes machine (assembler.assemble machine source).machine := by
  rcases assembler.assemble_cases machine source with
    ⟨_, stopped⟩ | ⟨_, _, stopped⟩ | ⟨_, _, ended⟩
  · rw [stopped]
  · rw [stopped]
  · rw [ended]
    exact changes_commit machine _

theorem changes_takeCells (address : Nat) (values : List UInt8) :
    Changes machine (machine.takeCells address values) := by
  induction values generalizing machine address with
  | nil => exact .refl
  | cons value values induction =>
      unfold takeCells
      refine ReflTransGen.trans ?_ (induction _ _)
      refine ReflTransGen.tail ?_ (.setLabel _ _ "")
      split
      · exact .refl
      · exact .single (.write (.poke machine _ _))

/-- A memory image is taken over by a chain of changes; a refused one changes nothing. -/
theorem changes_importImage (image : List UInt8) :
    Changes machine ((machine.importImage image).toOption.getD machine) := by
  unfold importImage
  cases MemoryImage.cells arch image with
  | error refusal => exact .refl
  | ok values =>
      exact ((ReflTransGen.head (.startQueue machine) (changes_takeCells _ _ _)).trans
        (changes_refreshTexts _)).tail (.flush _)

end Changes

end ClassroomCpu.Machine
