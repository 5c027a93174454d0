import ClassroomCpu.Proofs.Event.Announcement
import Mathlib.Data.Nat.Find
import Mathlib.Order.WellFounded

/-!
# The events of a sweep

The sweep that refreshes the texts goes from instruction to instruction, but
together its steps bring every cell up to date once, in ascending order.  So it
tells of each cell whose text changes once, and a second sweep finds nothing to do.
-/

namespace ClassroomCpu.Machine

variable {arch : Architecture} {machine : Machine arch}

/-! ## The sweep cell by cell -/

/-- Brings the texts of some cells up to date. -/
def setTexts (machine : Machine arch) (texts : Vector String arch.memorySize)
    (cells : List (Fin arch.memorySize)) : Machine arch :=
  cells.foldl (fun machine cell => machine.setText cell (texts.get cell)) machine

/-- The cells from an address on. -/
def cellsBehind (arch : Architecture) (address : Nat) : List (Fin arch.memorySize) :=
  (List.finRange arch.memorySize).drop address

theorem cellsBehind_eq_cons {address : Nat} (inside : address < arch.memorySize) :
    cellsBehind arch address = ⟨address, inside⟩ :: cellsBehind arch (address + 1) := by
  have position : address < (List.finRange arch.memorySize).length := by
    rwa [List.length_finRange]
  rw [cellsBehind, List.drop_eq_getElem_cons position, List.getElem_finRange]
  rfl

theorem cellsBehind_eq_nil {address : Nat} (outside : arch.memorySize ≤ address) :
    cellsBehind arch address = [] :=
  List.drop_eq_nil_of_le (by rwa [List.length_finRange])

theorem setTexts_cons (texts : Vector String arch.memorySize) (cell : Fin arch.memorySize)
    (cells : List (Fin arch.memorySize)) :
    machine.setTexts texts (cell :: cells) =
      (machine.setText cell (texts.get cell)).setTexts texts cells :=
  rfl

/-- Cells that should hold no text are emptied one after the other; those behind are left. -/
theorem setTexts_cellsBehind_clearTexts {texts : Vector String arch.memorySize}
    {address count : Nat}
    (empty : ∀ cell : Fin arch.memorySize, address ≤ cell → cell < address + count →
      texts.get cell = "") :
    machine.setTexts texts (cellsBehind arch address) =
      (machine.clearTexts address count).setTexts texts (cellsBehind arch (address + count)) := by
  induction count generalizing machine address with
  | zero => rfl
  | succ count induction =>
      rw [clearTexts]
      split
      · rename_i inside
        have next : address + (count + 1) = address + 1 + count := by omega
        have here : texts.get ⟨address, inside⟩ = "" := empty _ le_rfl (by simp)
        rw [cellsBehind_eq_cons inside, setTexts_cons, here, next]
        apply induction
        exact fun cell after before => empty cell (by omega) (by omega)
      · rename_i outside
        rw [cellsBehind_eq_nil (by omega), cellsBehind_eq_nil (by omega)]

theorem startOf_withTexts (texts : Vector String arch.memorySize) (number : Nat) :
    (machine.withTexts texts).startOf number = machine.startOf number := by
  have memory : (machine.withTexts texts).memory = machine.memory := rfl
  exact startOf_of_memory memory number

theorem instructionText_withTexts (texts : Vector String arch.memorySize) (address : Nat) :
    (machine.withTexts texts).instructionText address = machine.instructionText address := by
  have memory : (machine.withTexts texts).memory = machine.memory := rfl
  exact instructionText_of_memory memory address

/-- From an instruction on, a sweep brings each cell up to date once. -/
theorem refreshTextsFrom_eq {texts : Vector String arch.memorySize}
    (listed : (machine.withTexts texts).Listed) (number : Nat) :
    machine.refreshTextsFrom (machine.startOf number) =
      machine.setTexts texts (cellsBehind arch (machine.startOf number)) := by
  generalize here : machine.startOf number = address
  fun_induction machine.refreshTextsFrom address generalizing number with
  | case1 machine address inside shown =>
      rename_i induction
      subst here
      let after := (machine.setText ⟨machine.startOf number, inside⟩ shown.text).clearTexts
        (machine.startOf number + 1) (shown.size - 1)
      have size : 0 < shown.size := Architecture.size_instructionText_pos machine _
      have behind : machine.startOf number + max shown.size 1 =
          machine.startOf number + 1 + (shown.size - 1) := by omega
      have next : machine.startOf (number + 1) =
          machine.startOf number + 1 + (shown.size - 1) := by
        rw [startOf]
        change machine.startOf number + shown.size = _
        omega
      have memory : after.memory = machine.memory :=
        (memory_clearTexts _ _).trans (memory_setText _ _)
      have start : texts.get ⟨machine.startOf number, inside⟩ = shown.text := by
        have text := listed.starts ⟨machine.startOf number, inside⟩ number (startOf_withTexts _ _)
        rwa [instructionText_withTexts] at text
      have empty : ∀ cell : Fin arch.memorySize, machine.startOf number + 1 ≤ cell →
          cell < machine.startOf number + 1 + (shown.size - 1) → texts.get cell = "" := by
        intro cell notBefore before
        apply listed.behind
        intro other
        rw [startOf_withTexts]
        exact startOf_ne_of_between notBefore (next ▸ before) other
      rw [behind] at induction ⊢
      rw [cellsBehind_eq_cons inside, setTexts_cons, start, setTexts_cellsBehind_clearTexts empty]
      apply induction (listed.congr memory rfl) (number + 1)
      rw [startOf_of_memory memory, next]
  | case2 machine address outside =>
      rw [cellsBehind_eq_nil (Nat.not_lt.mp outside)]
      rfl

/-- A sweep brings each cell up to date once, in ascending order. -/
theorem refreshTexts_eq {texts : Vector String arch.memorySize}
    (listed : (machine.withTexts texts).Listed) :
    machine.refreshTexts = machine.setTexts texts (List.finRange arch.memorySize) :=
  refreshTextsFrom_eq listed 0

theorem memory_refreshTexts (machine : Machine arch) :
    machine.refreshTexts.memory = machine.memory := by
  have rest := congrArg Machine.memory (rest_refreshTexts machine machine.texts)
  exact rest

theorem labels_refreshTexts (machine : Machine arch) :
    machine.refreshTexts.labels = machine.labels := by
  have rest := congrArg Machine.labels (rest_refreshTexts machine machine.texts)
  exact rest

/-- The texts that a sweep leaves are those that it should leave. -/
theorem listed_withTexts (machine : Machine arch) :
    (machine.withTexts machine.refreshTexts.texts).Listed :=
  (listed_refreshTexts machine).congr (memory_refreshTexts machine).symm rfl

/-! ## What is told -/

theorem announces_setTexts (machine : Machine arch) (texts : Vector String arch.memorySize) :
    Announces (fun machine => machine.setTexts texts (List.finRange arch.memorySize)) machine
      (changes (fun cell => .instructionText cell) machine.texts texts) := by
  refine Announces.foldl (fun machine cell => announces_setText machine texts cell) ?_
    (List.nodup_finRange _) machine
  intro machine cell other apart
  apply changed_congr
  rw [texts_setText, if_neg apart]

/-- A sweep tells of the cells whose text changes. -/
theorem announces_refreshTexts (machine : Machine arch) :
    Announces refreshTexts machine (machine.textChanges machine.refreshTexts) := by
  intro hub
  have listed := listed_withTexts machine
  have deaf : ((machine.withHub hub).withTexts machine.refreshTexts.texts).Listed :=
    listed.congr rfl rfl
  have told := announces_setTexts machine machine.refreshTexts.texts hub
  dsimp only at told
  rwa [← refreshTexts_eq deaf, ← refreshTexts_eq listed] at told

theorem setTexts_texts (machine : Machine arch) (cells : List (Fin arch.memorySize)) :
    machine.setTexts machine.texts cells = machine := by
  induction cells with
  | nil => rfl
  | cons cell cells induction => rw [setTexts_cons, setText, if_pos rfl, induction]

/-- A sweep leaves a machine alone whose texts are those of memory. -/
theorem refreshTexts_of_listed (listed : machine.Listed) : machine.refreshTexts = machine := by
  have same : (machine.withTexts machine.texts).Listed := listed
  rw [refreshTexts_eq same, setTexts_texts]

/-! ## The whole sweep -/

/-- The way from instruction to instruction leaves memory after finitely many of them. -/
theorem startOf_leaves (machine : Machine arch) :
    ∃ count ≤ arch.memorySize, ∀ number,
      machine.startOf number < arch.memorySize ↔ number < count := by
  have outside : arch.memorySize ≤ machine.startOf arch.memorySize :=
    machine.startOf_strictMono.le_apply
  have leaves : ∃ count, arch.memorySize ≤ machine.startOf count := ⟨_, outside⟩
  refine ⟨Nat.find leaves, Nat.find_min' leaves outside, fun number => ?_⟩
  constructor
  · intro inside
    by_contra notBefore
    have later := machine.startOf_strictMono.monotone (Nat.not_lt.mp notBefore)
    exact absurd (Nat.find_spec leaves) (by omega)
  · exact fun before => Nat.not_le.mp (Nat.find_min leaves before)

/-- What the sweep over memory leaves of a machine. -/
structure Swept (machine after : Machine arch) : Prop where
  /-- The sweep meets a first instruction that starts outside memory, and ends there. -/
  ends : ∃ count ≤ arch.memorySize, ∀ number,
    machine.startOf number < arch.memorySize ↔ number < count
  /-- Where an instruction starts is its text. -/
  starts : ∀ (cell : Fin arch.memorySize) number, machine.startOf number = cell →
    after.texts.get cell = (machine.instructionText cell).text
  /-- Everywhere else is no text. -/
  behind : ∀ cell : Fin arch.memorySize, (∀ number, machine.startOf number ≠ cell) →
    after.texts.get cell = ""
  /-- Nothing else changes, but for what the listeners are told. -/
  rest : after.silent.withTexts machine.texts = machine.silent

/--
A sweep over memory gives every cell its text, whatever the texts were before, and tells of each
cell whose text changes once, in ascending order, whoever listens.  The next sweep changes nothing
and tells of nothing.
-/
theorem refreshTexts_sweepsOnce (machine : Machine arch) :
    let after := machine.refreshTexts
    machine.Swept after ∧
      Announces refreshTexts machine (machine.textChanges after) ∧
      after.refreshTexts = after ∧ Announces refreshTexts after [] := by
  intro after
  have listed : after.Listed := listed_refreshTexts machine
  have memory : after.memory = machine.memory := memory_refreshTexts machine
  have again : after.refreshTexts = after := refreshTexts_of_listed listed
  refine ⟨⟨startOf_leaves machine, ?_, ?_, rest_refreshTexts machine machine.texts⟩,
    announces_refreshTexts machine, again, ?_⟩
  · intro cell number start
    rw [← instructionText_of_memory memory]
    exact listed.starts cell number ((startOf_of_memory memory number).trans start)
  · intro cell noStart
    apply listed.behind
    intro number
    rw [startOf_of_memory memory]
    exact noStart number
  · have told := announces_refreshTexts after
    rwa [again, textChanges, changes_self] at told

end ClassroomCpu.Machine
