import ClassroomCpu.Assembly.Problem
import ClassroomCpu.Fault

/-!
# Failures

What ends the treatment of a line: a problem of the program, or a fault of the
machine for which it is assembled.
-/

namespace ClassroomCpu.Assembly

/-- What ends the treatment of a line. -/
inductive Failure
  /-- The line is wrong. -/
  | problem (problem : Problem)
  /-- The machine is wrong. -/
  | fault (fault : Fault)
  deriving DecidableEq, Repr

/-- A result, or why there is none. -/
abbrev Outcome := Except Failure

/-- Rejects a line. -/
def reject {α : Type} (problem : Problem) : Outcome α :=
  .error (.problem problem)

/-- The value that is there, or a rejection. -/
def orReject {α : Type} (problem : Problem) : Option α → Outcome α
  | some value => .ok value
  | none => reject problem

namespace Outcome

/-- Two computations in sequence give a result if both do. -/
theorem bind_eq_ok {ε α β : Type} {first : Except ε α} {next : α → Except ε β} {result : β} :
    first >>= next = .ok result ↔
      ∃ middle, first = .ok middle ∧ next middle = .ok result := by
  cases first <;> simp [Bind.bind, Except.bind]

/-- A computation whose result is changed afterwards gives a result if it gives one itself. -/
theorem map_eq_ok {ε α β : Type} {outcome : Except ε α} {change : α → β} {result : β} :
    outcome.map change = .ok result ↔ ∃ before, outcome = .ok before ∧ change before = result := by
  cases outcome <;> simp [Except.map]

@[simp] theorem pure_eq_ok {ε α : Type} {value result : α} :
    (pure value : Except ε α) = .ok result ↔ value = result := by
  simp [pure, Except.pure]

/-- Each result of a computation over a list comes from one of its elements. -/
theorem mem_of_mapM_eq_ok {ε α β : Type} {compute : α → Except ε β} {list : List α}
    {results : List β} (computed : list.mapM compute = .ok results) {result : β}
    (member : result ∈ results) : ∃ element ∈ list, compute element = .ok result := by
  induction list generalizing results with
  | nil =>
      rw [List.mapM_nil] at computed
      rw [← pure_eq_ok.mp computed] at member
      exact absurd member (by simp)
  | cons element list induction =>
      rw [List.mapM_cons] at computed
      obtain ⟨first, here, computed⟩ := bind_eq_ok.mp computed
      obtain ⟨others, later, done⟩ := bind_eq_ok.mp computed
      rw [← pure_eq_ok.mp done] at member
      rcases List.mem_cons.mp member with same | among
      · exact ⟨element, by simp, by rw [same, here]⟩
      · obtain ⟨other, inside, given⟩ := induction later among
        exact ⟨other, List.mem_cons_of_mem _ inside, given⟩

@[simp] theorem reject_ne_ok {α : Type} {problem : Problem} {result : α} :
    (reject problem : Outcome α) ≠ .ok result := by
  simp [reject]

@[simp] theorem orReject_eq_ok {α : Type} {problem : Problem} {option : Option α} {result : α} :
    orReject problem option = .ok result ↔ option = some result := by
  cases option <;> simp [orReject]

end Outcome

end ClassroomCpu.Assembly
