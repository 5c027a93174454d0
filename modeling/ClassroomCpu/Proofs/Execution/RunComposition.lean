import ClassroomCpu.Proofs.Event.Queueing
import ClassroomCpu.Proofs.Execution.RunCost
import ClassroomCpu.Proofs.Execution.Safety
import ClassroomCpu.Proofs.Machine.Refresh
import ClassroomCpu.Session

/-!
# Runs one after the other

A run makes steps until the machine halts or the limit is reached.  Where it was
the limit that ended it, another run goes on as the first one would have with a
larger limit: it starts a machine that runs already, which only its listeners
notice.
-/

namespace ClassroomCpu

variable {arch : Architecture}

namespace Machine

variable {machine : Machine arch}

/-- A machine that runs already is started again: only listeners notice. -/
theorem setRunning_of_running (running : machine.running = true) :
    machine.setRunning true = machine.withHub (machine.hub.publish (.running true)) := by
  rw [setRunning, ← running]
  rfl

end Machine

namespace Exec

/-! ## The steps that a run makes -/

namespace Executes

variable {machine after : Machine arch} {executed : List (Machine arch)}

/-- As many steps, whether or not the machine runs, lead to the same machine. -/
theorem steps (executes : Executes machine executed after) :
    Session.steps executed.length machine = .ok () after := by
  induction executes with
  | done machine => rfl
  | step running ends rest induction =>
      rw [List.length_cons, Session.steps, bind_of_ok ends]
      exact induction

/-- The machine runs before each of the steps. -/
theorem runs_before (executes : Executes machine executed after) (made : Nat)
    (fewer : made < executed.length) :
    Ends (Session.steps made) machine fun _ between => between.running = true := by
  induction executes generalizing made with
  | done machine => exact absurd fewer (Nat.not_lt_zero made)
  | step running ends rest induction =>
      cases made with
      | zero => exact .of_pure running
      | succ made => exact .after ends (induction made (Nat.lt_of_succ_lt_succ fewer))

/-- A larger limit lets the machine go on where these steps have led. -/
theorem stepsFrom_add (executes : Executes machine executed after) (made limit : Nat) :
    stepsFrom made (executed.length + limit) machine =
      stepsFrom (made + executed.length) limit after := by
  induction executes generalizing made with
  | done machine => rw [List.length_nil, Nat.zero_add, Nat.add_zero]
  | @step machine between after later running ends rest induction =>
      calc
        stepsFrom made (later.length + 1 + limit) machine
            = stepsFrom (made + 1) (later.length + limit) between := by
          rw [Nat.add_right_comm, stepsFrom, bind_of_ok (get_apply machine), if_pos running,
            bind_of_ok ends]
        _ = stepsFrom (made + 1 + later.length) limit after := induction (made + 1)
        _ = stepsFrom (made + (later.length + 1)) limit after := by
          rw [Nat.add_assoc, Nat.add_comm 1]

end Executes

/-- Steps that were counted before only add to the result. -/
theorem stepsFrom_add_eq_map (earlier made limit : Nat) :
    (stepsFrom (earlier + made) limit : Exec arch Nat) =
      (fun further => earlier + further) <$> stepsFrom made limit := by
  induction limit generalizing made with
  | zero => rw [stepsFrom, stepsFrom, map_pure]
  | succ limit induction =>
      have later := induction (made + 1)
      rw [← Nat.add_assoc] at later
      rw [stepsFrom, stepsFrom, map_bind]
      congr 1
      funext machine
      split
      · rw [map_bind, later]
      · rw [map_pure]

/-! ## What listeners hear -/

theorem composed_steps (count : Nat) : Composed (Session.steps count : Exec arch Unit) := by
  induction count with
  | zero => exact .pure ()
  | succ count induction => exact composed_step.bind fun _ => induction

/-- What is put together from parts ends with the same machine whoever hears of its events. -/
theorem Composed.ends_withHub {α : Type} {computation : Exec arch α}
    (composed : Composed computation) {machine after : Machine arch} {result : α}
    (ends : computation machine = .ok result after) :
    ∃ events, after.hub = machine.hub.publishAll events ∧ ∀ hub,
      computation (machine.withHub hub) = .ok result (after.withHub (hub.publishAll events)) := by
  obtain ⟨events, told⟩ := composed.announced machine
  rw [ends] at told
  refine ⟨events, ?_, told⟩
  have here : computation machine = .ok result (after.withHub (machine.hub.publishAll events)) :=
    told machine.hub
  rw [ends] at here
  injection here with _ same
  exact congrArg Machine.hub same

/-! ## Two runs -/

/-- Two machines differ in nothing but that the listeners of one heard of a start between. -/
def TellsOfStart (hub : Hub) (whole later : Machine arch) : Prop :=
  whole.silent = later.silent ∧
    ∃ before behind, whole.hub = hub.publishAll (before ++ behind) ∧
      later.hub = hub.publishAll (before ++ .running true :: behind)

/-- A run of a machine that the limit of another has stopped ends like a single longer run. -/
theorem ends_run_again (member : arch ∈ Catalog.machines) (machine : Machine arch)
    {executed : List (Machine arch)} {between : Machine arch}
    (executes : Executes (machine.setRunning true) executed between)
    (running : between.running = true) (second : Nat) :
    Ends (run second) between fun further later =>
      Ends (run (executed.length + second)) machine fun made whole =>
        made = executed.length + further ∧ TellsOfStart machine.hub whole later := by
  obtain ⟨further, whole, ends, -⟩ := total_stepsFrom member 0 second between
  obtain ⟨before, heardBefore, -⟩ := (composed_steps executed.length).ends_withHub executes.steps
  obtain ⟨behind, heardBehind, whoever⟩ := (composed_stepsFrom 0 second).ends_withHub ends
  -- The other run starts a machine that runs already, and makes the same steps.
  have restarted := whoever (between.hub.publish (.running true))
  rw [← Machine.setRunning_of_running running] at restarted
  refine .after rfl (.of_eq restarted ?_)
  have together : stepsFrom 0 (executed.length + second) (machine.setRunning true) =
      .ok (executed.length + further) whole := by
    rw [executes.stepsFrom_add, Nat.add_comm 0, stepsFrom_add_eq_map, map_eq_pure_bind,
      bind_of_ok ends]
    rfl
  refine .after rfl (.of_eq together ⟨rfl, rfl, .running true :: before, behind, ?_, ?_⟩)
  · rw [heardBehind, heardBefore, Hub.publishAll_append]
    rfl
  · rw [heardBefore, Hub.publishAll_append]
    rfl

/--
A run makes no more steps than its limit, and fewer only if the machine halts;
the machine runs before each of them.  Where it runs behind them as well, another
run makes the steps that a single run with both limits makes further, and ends
with the same machine.
-/
theorem run_composes (arch : Architecture) (member : arch ∈ Catalog.machines)
    (machine : Machine arch) (first second : Nat) :
    Ends (run first) machine fun made between =>
      made ≤ first ∧ (made < first → between.running = false) ∧
        Session.steps made (machine.setRunning true) = .ok () between ∧
          (∀ fewer < made, Ends (Session.steps fewer) (machine.setRunning true) fun _ earlier =>
            earlier.running = true) ∧
          (between.running = true → made = first ∧
            Ends (run second) between fun further later =>
              Ends (run (first + second)) machine fun all whole =>
                all = first + further ∧ TellsOfStart machine.hub whole later) := by
  have started : setRunning true machine = .ok () (machine.setRunning true) := rfl
  refine .after started ?_
  apply (counted_stepsFrom member 0 first (machine.setRunning true)).mono
  rintro made between ⟨executed, executes, rfl, bounded, halted, -, -⟩
  rw [Nat.zero_add]
  refine ⟨bounded, halted, executes.steps, executes.runs_before, fun running => ?_⟩
  have reached : executed.length = first := by
    by_contra other
    have stopped := halted (Nat.lt_of_le_of_ne bounded other)
    rw [running] at stopped
    contradiction
  rw [← reached]
  exact ⟨rfl, ends_run_again member machine executes running second⟩

/-- Neander passes over a first cell of zeros, is stopped there, and halts when it is run again. -/
theorem run_composes_stopped :
    let machine := (Machine.new Catalog.neander).poke 1 0xF0
    Catalog.neander ∈ Catalog.machines ∧ (after (run 1) machine).running = true ∧
      Ends (run 1) machine fun made between =>
        made = 1 ∧ Ends (run 5) between fun further later =>
          Ends (run (1 + 5)) machine fun all whole =>
            all = 1 + further ∧ TellsOfStart machine.hub whole later := by
  intro machine
  have member : Catalog.neander ∈ Catalog.machines := by simp [Catalog.machines]
  have runs : (after (run 1) machine).running = true := by decide +kernel
  refine ⟨member, runs, ?_⟩
  obtain ⟨made, between, ends, -, -, -, -, further⟩ :=
    run_composes Catalog.neander member machine 1 5
  rw [after, ends] at runs
  exact .of_eq ends (further runs)

end Exec

end ClassroomCpu
