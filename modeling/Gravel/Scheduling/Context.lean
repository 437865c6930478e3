import Gravel.Library.Run
import Gravel.Scheduling.Dispatching
import Gravel.Scheduling.Launch

/-!
# Contexts across switches

Runs of context switches, from `allocate_tasks` and its `dispatch_nosave` on. The
running task changes its registers at will, tasks are queued, and the two
dispatches are called in any order. Every step is labelled with the task it
switches out and the registers that task had, so the labels of a run tell what
every task was last switched out with.

## Main definitions

* `SwitchEvent`, `SwitchStep` — the labelled steps
* `lastOut` — the registers a task was last switched out with

## Main results

* `SwitchStep.saved` — the contexts of the tasks that do not run are the
  registers they were last switched out with
* `context_survives` — so a task that becomes current finds them again
-/

namespace Gravel

open Library

inductive SwitchEvent
  /-- The running task computes. -/
  | work (regs : SchedContext)
  | add (tcb : TcbPtr) (prio : Prio)
  | save
  | sleep

def SwitchEvent.exec (s : Kernel) : SwitchEvent → Except Fault Kernel
  | .work regs => .ok { s with regs := regs }
  | .add tcb prio => .ok { s with runQueue := runqueueAdd s.runQueue tcb prio }
  | .save => dispatchSave s
  | .sleep => dispatchSleep s

/-- The task that the event switches out, if it reaches `ctx_switch_full`. -/
def SwitchEvent.leaves (s : Kernel) : SwitchEvent → Option TcbPtr
  | .save => s.curTcb.filter fun cur => (s.systemTcb cur).curPrio > highestPrio s.runQueue
  | .sleep => s.curTcb
  | _ => none

/-- A task that is switched out, with the registers it has then. -/
abbrev SwitchOut := TcbPtr × SchedContext

def SwitchStep (s : Kernel) (label : SwitchEvent × Option SwitchOut) (s' : Kernel) : Prop :=
  label.1.exec s = .ok s' ∧ label.2 = (label.1.leaves s).map fun t => (t, s.regs)

/-- The registers a task was last switched out with, or its context in `start` when it
never was. -/
def lastOut (start : Kernel) (w : List (SwitchEvent × Option SwitchOut)) (t : TcbPtr) :
    SchedContext :=
  ((w.filterMap Prod.snd).reverse.lookup t).getD (start.systemTcb t).context

variable {start s s' : Kernel} {w : List (SwitchEvent × Option SwitchOut)}
  {label : SwitchEvent × Option SwitchOut} {cur b t u : TcbPtr} {regs : SchedContext}

@[simp] theorem lastOut_nil : lastOut start [] t = (start.systemTcb t).context := rfl

theorem lastOut_snoc_none (stays : label.2 = none) :
    lastOut start (w ++ [label]) t = lastOut start w t := by
  simp [lastOut, stays]

theorem lastOut_snoc_some (out : label.2 = some (u, regs)) :
    lastOut start (w ++ [label]) t = if t = u then regs else lastOut start w t := by
  by_cases same : t = u
  · subst same
    simp [lastOut, out]
  · have different : (t == u) = false := by simp [same]
    simp [lastOut, out, List.lookup_cons, different, same]

/-! ### One step -/

/-- A dispatch goes on with the running task, or leaves it by `ctx_switch_full`. -/
theorem SwitchStep.cases (step : SwitchStep s label s') (current : s.curTcb = some cur) :
    (label.2 = none ∧ s'.curTcb = some cur ∧ s'.systemTcb = s.systemTcb) ∨
    ∃ b q, label.2 = some (cur, s.regs) ∧
      s' = ctxSwitchFull { s with runQueue := q, curTcb := some b } b cur := by
  obtain ⟨executed, out⟩ := step
  obtain ⟨event, out'⟩ := label
  dsimp only at executed out ⊢
  cases event with
  | work regs =>
    obtain rfl := Except.ok.inj executed
    exact Or.inl ⟨out, current, rfl⟩
  | add t p =>
    obtain rfl := Except.ok.inj executed
    exact Or.inl ⟨out, current, rfl⟩
  | save =>
    simp only [SwitchEvent.exec, dispatchSave, current] at executed
    by_cases worse : (s.systemTcb cur).curPrio > highestPrio s.runQueue
    · rw [if_pos worse] at executed
      split at executed
      · simp at executed
      · rename_i b q removed
        refine Or.inr ⟨b, q, ?_, (Except.ok.inj executed).symm⟩
        simp [out, SwitchEvent.leaves, current, worse]
    · rw [if_neg worse] at executed
      obtain rfl := Except.ok.inj executed
      refine Or.inl ⟨?_, current, rfl⟩
      simp [out, SwitchEvent.leaves, current, Nat.le_of_not_lt worse]
  | sleep =>
    simp only [SwitchEvent.exec, dispatchSleep, current] at executed
    split at executed
    · simp at executed
    · rename_i b q removed
      refine Or.inr ⟨b, q, ?_, (Except.ok.inj executed).symm⟩
      simp [out, SwitchEvent.leaves, current]

/-- Somebody runs, and the contexts of all others are as they were switched out. -/
def Saved (start : Kernel) (w : List (SwitchEvent × Option SwitchOut)) (s : Kernel) : Prop :=
  ∃ cur, s.curTcb = some cur ∧ ∀ t, t ≠ cur → (s.systemTcb t).context = lastOut start w t

theorem SwitchStep.saved (step : SwitchStep s label s') (saved : Saved start w s) :
    Saved start (w ++ [label]) s' := by
  obtain ⟨cur, current, contexts⟩ := saved
  rcases step.cases current with ⟨stays, current', same⟩ | ⟨b, q, out, rfl⟩
  · refine ⟨cur, current', fun t other => ?_⟩
    rw [same, lastOut_snoc_none stays]
    exact contexts t other
  · refine ⟨b, rfl, fun t _ => ?_⟩
    rw [ctxSwitchFull_context, lastOut_snoc_some out]
    split
    · rfl
    · rename_i other
      exact contexts t other

/-- After a switch the registers are those the new task was last switched out with. -/
theorem SwitchStep.regs_eq (step : SwitchStep s label s') (saved : Saved start w s)
    (out : label.2 = some (u, regs)) (current' : s'.curTcb = some t) :
    s'.regs = lastOut start (w ++ [label]) t := by
  obtain ⟨cur, current, contexts⟩ := saved
  rcases step.cases current with ⟨stays, -⟩ | ⟨b, q, out', rfl⟩
  · rw [stays] at out
    simp at out
  · obtain rfl := Option.some.inj current'
    rw [ctxSwitchFull_regs, lastOut_snoc_some out']
    split
    · rfl
    · rename_i other
      exact contexts b other

/-! ### Whole runs -/

variable {pf : Platform} {task : ℕ → Task} {n : ℕ} {k s₀ : Kernel}

/-- `dispatch_nosave` loads the context of the first task and saves none. -/
theorem schedInit_loads (started : schedInit s = .ok s₀) :
    s₀.systemTcb = s.systemTcb ∧
      ∃ cur, s₀.curTcb = some cur ∧ s₀.regs = (s.systemTcb cur).context := by
  simp only [schedInit, dispatchNosave] at started
  split at started
  · simp at started
  · rename_i b q removed
    obtain rfl := Except.ok.inj started
    exact ⟨rfl, b, rfl, rfl⟩

theorem saved_of_run (started : schedInit start = .ok s₀) (run : Run SwitchStep s₀ w s) :
    Saved start w s := by
  obtain ⟨same, cur, current, -⟩ := schedInit_loads started
  apply Run.invariant_trace (Saved start) run
  · intro w s label s' saved step
    exact step.saved saved
  · refine ⟨cur, current, fun t _ => ?_⟩
    rw [same, lastOut_nil]

/-- In every run that starts with `allocate_tasks` and its `dispatch_nosave`: the first task
has the registers `allocate_tasks` stored; a step that is no switch leaves the running
task and all contexts alone; and after a switch the registers are those the task that
becomes current was last switched out with, or those `allocate_tasks` stored, and only the
context of the task switched out has changed. -/
theorem context_survives (started : schedInit (allocateTasks pf task n k) = .ok s₀)
    (run : Run SwitchStep s₀ w s) (step : SwitchStep s label s') :
    (s₀.systemTcb = (allocateTasks pf task n k).systemTcb ∧
      ∃ cur, s₀.curTcb = some cur ∧
        s₀.regs = ((allocateTasks pf task n k).systemTcb cur).context) ∧
    (label.2 = none → s'.curTcb = s.curTcb ∧ s'.systemTcb = s.systemTcb) ∧
    ∀ u regs, label.2 = some (u, regs) → s.curTcb = some u ∧ regs = s.regs ∧
      (∀ t, s'.curTcb = some t →
        s'.regs = lastOut (allocateTasks pf task n k) (w ++ [label]) t) ∧
      ∀ t, t ≠ u → (s'.systemTcb t).context = (s.systemTcb t).context := by
  obtain ⟨cur, current, -⟩ := saved_of_run started run
  refine ⟨schedInit_loads started, ?_, ?_⟩
  · intro stays
    rcases step.cases current with ⟨-, current', same⟩ | ⟨b, q, out, -⟩
    · exact ⟨current'.trans current.symm, same⟩
    · rw [stays] at out
      simp at out
  · intro u regs out
    have entered := fun t => step.regs_eq (t := t) (saved_of_run started run) out
    rcases step.cases current with ⟨stays, -⟩ | ⟨b, q, out', rfl⟩
    · rw [stays] at out
      simp at out
    · rw [out, Option.some.injEq, Prod.mk.injEq] at out'
      obtain ⟨rfl, rfl⟩ := out'
      refine ⟨current, rfl, entered, fun t other => ?_⟩
      rw [ctxSwitchFull_context, if_neg other]

/-- Two tasks are allocated, the first one computes and goes to sleep. -/
theorem context_survives_twoTasks :
    ∃ start s s' b, start =
        allocateTasks exactPlatform (fun _ => ⟨0, 0, 0, 1, 100, 0⟩) 2 (devInit bssKernel) ∧
      SwitchStep s (.sleep, some (tcbOf 1, default)) s' ∧ s'.curTcb = some b ∧
      s'.regs = lastOut start
        [(.work default, none), (.sleep, some (tcbOf 1, default))] b := by
  let task : ℕ → Task := fun _ => ⟨0, 0, 0, 1, 100, 0⟩
  have two : 2 ≤ Config.osAvailTasks := by decide
  have exists_start : ∃ s₀, schedInit (allocateTasks exactPlatform task 2 (devInit bssKernel)) =
      .ok s₀ ∧ Start exactPlatform task 2 bssKernel s₀ := schedInit_start task two
  obtain ⟨s₀, started, first⟩ := exists_start
  have current : s₀.curTcb = some (tcbOf 1) := by
    rw [first.cur]
    decide
  have ready : IsLeast ((View.launch 2).ready : Set TcbPtr) (tcbOf 2) :=
    have below : ∀ t ∈ (View.launch 2).ready, tcbOf 2 ≤ t := by decide
    ⟨by decide, below⟩
  obtain ⟨q, slept, -⟩ := dispatchSleep_eq_ok (s := { s₀ with regs := default }) first.wf current
    (first.holds.best first.wf ready).2
  have computes : Run SwitchStep s₀ [(.work default, none)] { s₀ with regs := default } :=
    .snoc (.nil s₀) ⟨rfl, rfl⟩
  have sleeps : SwitchStep { s₀ with regs := default } (.sleep, some (tcbOf 1, default)) _ :=
    ⟨slept, by simp [SwitchEvent.leaves, current]⟩
  have survives := context_survives started computes sleeps
  exact ⟨_, _, _, tcbOf 2, rfl, sleeps, rfl, (survives.2.2 _ _ rfl).2.2.1 _ rfl⟩

end Gravel
