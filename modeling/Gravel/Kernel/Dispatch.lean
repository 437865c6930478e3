import Gravel.Kernel.RunQueue

/-!
# Dispatching

The functions of `ctx_switch.c` over the routines of `ctx_switch_asm.S`. A
switch stores the callee-saved registers in the context of the task that is left
and loads those of the task that is entered; `curTcb` is updated before it.

## Main definitions

* `ctxSwitchFull`, `ctxSwitchHalf` — the register transfers
* `dispatchSave`, `dispatchNosave`, `dispatchSleep`
* `Kernel.OnlySwitched` — what no dispatch writes

## Main results

* `dispatchSave_eq_self`, `dispatchSave_eq_switch` — the two outcomes of
  `dispatch_save`
* `dispatchSleep_eq_ok`, `dispatchNosave_eq_ok` — the other two always take the
  best queued task
-/

namespace Gravel

/-- `stmia` the current registers, then `ldmia` the next ones. The two contexts
may be the same one. -/
def ctxSwitchFull (s : Kernel) (next cur : TcbPtr) : Kernel :=
  let systemTcb :=
    Function.update s.systemTcb cur { s.systemTcb cur with context := s.regs }
  { s with systemTcb := systemTcb, regs := (systemTcb next).context }

def ctxSwitchHalf (s : Kernel) (next : TcbPtr) : Kernel :=
  { s with regs := (s.systemTcb next).context }

/-- Switch to the best queued task if it is better than the current one, which is
queued again. -/
def dispatchSave (s : Kernel) : Except Fault Kernel :=
  match s.curTcb with
  | none => .error .nullDeref
  | some cur =>
    -- An equal priority does not preempt.
    if (s.systemTcb cur).curPrio > highestPrio s.runQueue then
      let runQueue := runqueueAdd s.runQueue cur (s.systemTcb cur).curPrio
      match runqueueRemove runQueue (highestPrio runQueue) with
      | .error fault => .error fault
      | .ok (taskToSwitch, runQueue) =>
        let s := { s with runQueue := runQueue, curTcb := some taskToSwitch }
        .ok (ctxSwitchFull s taskToSwitch cur)
    else .ok s

/-- Switch to the best queued task without saving anything. -/
def dispatchNosave (s : Kernel) : Except Fault Kernel :=
  match runqueueRemove s.runQueue (highestPrio s.runQueue) with
  | .error fault => .error fault
  | .ok (taskToSwitch, runQueue) =>
    let s := { s with runQueue := runQueue, curTcb := some taskToSwitch }
    .ok (ctxSwitchHalf s taskToSwitch)

/-- Switch to the best queued task; the current one is saved but not queued. -/
def dispatchSleep (s : Kernel) : Except Fault Kernel :=
  match runqueueRemove s.runQueue (highestPrio s.runQueue) with
  | .error fault => .error fault
  | .ok (taskToSwitch, runQueue) =>
    -- The removal comes first, so an empty queue faults whoever runs.
    match s.curTcb with
    | none => .error .nullDeref
    | some tmp =>
      let s := { s with runQueue := runQueue, curTcb := some taskToSwitch }
      .ok (ctxSwitchFull s taskToSwitch tmp)

/-! ### What a register transfer leaves alone -/

section Simp

variable (s : Kernel) (next cur t : TcbPtr)

@[simp] theorem ctxSwitchFull_curTcb : (ctxSwitchFull s next cur).curTcb = s.curTcb := rfl
@[simp] theorem ctxSwitchFull_runQueue : (ctxSwitchFull s next cur).runQueue = s.runQueue := rfl
@[simp] theorem ctxSwitchFull_devices : (ctxSwitchFull s next cur).devices = s.devices := rfl
@[simp] theorem ctxSwitchFull_gtMutex : (ctxSwitchFull s next cur).gtMutex = s.gtMutex := rfl
@[simp] theorem ctxSwitchFull_sysTime : (ctxSwitchFull s next cur).sysTime = s.sysTime := rfl
@[simp] theorem ctxSwitchHalf_curTcb : (ctxSwitchHalf s next).curTcb = s.curTcb := rfl
@[simp] theorem ctxSwitchHalf_runQueue : (ctxSwitchHalf s next).runQueue = s.runQueue := rfl
@[simp] theorem ctxSwitchHalf_devices : (ctxSwitchHalf s next).devices = s.devices := rfl
@[simp] theorem ctxSwitchHalf_gtMutex : (ctxSwitchHalf s next).gtMutex = s.gtMutex := rfl
@[simp] theorem ctxSwitchHalf_systemTcb : (ctxSwitchHalf s next).systemTcb = s.systemTcb := rfl

/-- Apart from its context, every TCB is what it was. -/
theorem ctxSwitchFull_systemTcb :
    ∃ context, (ctxSwitchFull s next cur).systemTcb t =
      { s.systemTcb t with context := context } := by
  by_cases h : t = cur
  · subst h
    exact ⟨s.regs, by simp [ctxSwitchFull]⟩
  · exact ⟨(s.systemTcb t).context, by simp [ctxSwitchFull, Function.update_of_ne h]⟩

@[simp] theorem ctxSwitchFull_nativePrio :
    ((ctxSwitchFull s next cur).systemTcb t).nativePrio = (s.systemTcb t).nativePrio := by
  obtain ⟨context, h⟩ := ctxSwitchFull_systemTcb s next cur t
  rw [h]

@[simp] theorem ctxSwitchFull_curPrio :
    ((ctxSwitchFull s next cur).systemTcb t).curPrio = (s.systemTcb t).curPrio := by
  obtain ⟨context, h⟩ := ctxSwitchFull_systemTcb s next cur t
  rw [h]

@[simp] theorem ctxSwitchFull_holdsLock :
    ((ctxSwitchFull s next cur).systemTcb t).holdsLock = (s.systemTcb t).holdsLock := by
  obtain ⟨context, h⟩ := ctxSwitchFull_systemTcb s next cur t
  rw [h]

@[simp] theorem ctxSwitchFull_link : (ctxSwitchFull s next cur).link = s.link := by
  funext t
  obtain ⟨context, h⟩ := ctxSwitchFull_systemTcb s next cur t
  simp only [Kernel.link, h]

end Simp

/-! ### What no dispatch writes -/

/-- Apart from the run queue, the running task, the registers and contexts, the state is
what it was. -/
structure Kernel.OnlySwitched (s s' : Kernel) : Prop where
  devices : s'.devices = s.devices
  gtMutex : s'.gtMutex = s.gtMutex
  curMutexNum : s'.curMutexNum = s.curMutexNum
  sysTime : s'.sysTime = s.sysTime
  tcb : ∀ t, ∃ context, s'.systemTcb t = { s.systemTcb t with context := context }

section Frame

variable {s s' : Kernel}

theorem Kernel.OnlySwitched.refl (s : Kernel) : s.OnlySwitched s :=
  ⟨rfl, rfl, rfl, rfl, fun _ => ⟨_, rfl⟩⟩

theorem Kernel.OnlySwitched.link (only : s.OnlySwitched s') : s'.link = s.link := by
  funext t
  obtain ⟨context, h⟩ := only.tcb t
  simp only [Kernel.link, h]

theorem Kernel.OnlySwitched.curPrio (only : s.OnlySwitched s') (t : TcbPtr) :
    (s'.systemTcb t).curPrio = (s.systemTcb t).curPrio := by
  obtain ⟨context, h⟩ := only.tcb t
  rw [h]

theorem onlySwitched_ctxSwitchFull (s : Kernel) (q : RunQueue) (next cur : TcbPtr) :
    s.OnlySwitched (ctxSwitchFull { s with runQueue := q, curTcb := some next } next cur) :=
  ⟨rfl, rfl, rfl, rfl, fun t => ctxSwitchFull_systemTcb _ next cur t⟩

theorem dispatchSave_onlySwitched (saved : dispatchSave s = .ok s') : s.OnlySwitched s' := by
  simp only [dispatchSave] at saved
  split at saved
  · simp at saved
  · split at saved
    · split at saved
      · simp at saved
      · obtain rfl := Except.ok.inj saved
        exact onlySwitched_ctxSwitchFull ..
    · obtain rfl := Except.ok.inj saved
      exact .refl s

theorem dispatchSleep_onlySwitched (slept : dispatchSleep s = .ok s') : s.OnlySwitched s' := by
  simp only [dispatchSleep] at slept
  split at slept
  · simp at slept
  · split at slept
    · simp at slept
    · obtain rfl := Except.ok.inj slept
      exact onlySwitched_ctxSwitchFull ..

theorem dispatchNosave_onlySwitched (left : dispatchNosave s = .ok s') : s.OnlySwitched s' := by
  simp only [dispatchNosave] at left
  split at left
  · simp at left
  · obtain rfl := Except.ok.inj left
    exact ⟨rfl, rfl, rfl, rfl, fun t => ⟨_, rfl⟩⟩

end Frame

/-! ### The outcomes -/

variable {s : Kernel} {c b : TcbPtr}

/-- The best queued task, at its slot. -/
def RunQueue.Best (q : RunQueue) (b : TcbPtr) : Prop :=
  highestPrio q < Config.osMaxTasks ∧ q.slot (highestPrio q) = some b

theorem dispatchSave_eq_self (current : s.curTcb = some c)
    (better : (s.systemTcb c).curPrio ≤ highestPrio s.runQueue) : dispatchSave s = .ok s := by
  simp only [dispatchSave, current]
  rw [if_neg (Nat.not_lt.mpr better)]

/-- Queueing the current task does not change which task is best when a better one
is queued already. -/
theorem highestPrio_runqueueAdd {q : RunQueue} {p : ℕ} (wf : q.Wf) (best : q.Best b)
    (inside : p < Config.osMaxTasks) (worse : highestPrio q < p) :
    highestPrio (runqueueAdd q c p) = highestPrio q := by
  have before := isLeast_highestPrio wf best.1 best.2
  have wf' : (runqueueAdd q c p).Wf := wf.runqueueAdd inside
  have kept : (runqueueAdd q c p).slot (highestPrio q) = some b := by
    rw [slot_runqueueAdd, if_neg (Nat.ne_of_lt worse), best.2]
  have after := isLeast_highestPrio wf' best.1 kept
  apply Nat.le_antisymm (after.2 ⟨best.1, b, kept⟩)
  obtain ⟨bound, t, slot⟩ := after.1
  rw [slot_runqueueAdd] at slot
  by_cases same : highestPrio (runqueueAdd q c p) = p
  · omega
  · rw [if_neg same] at slot
    exact before.2 ⟨bound, t, slot⟩

/-- A better queued task preempts the current one, which takes its own slot. -/
theorem dispatchSave_eq_switch (wf : s.runQueue.Wf) (current : s.curTcb = some c)
    (inside : (s.systemTcb c).curPrio < Config.osMaxTasks) (best : s.runQueue.Best b)
    (worse : highestPrio s.runQueue < (s.systemTcb c).curPrio) :
    ∃ q, dispatchSave s = .ok (ctxSwitchFull { s with runQueue := q, curTcb := some b } b c) ∧
      q.Wf ∧
      q.added = s.runQueue.added ++
        [⟨c, (s.systemTcb c).curPrio, s.runQueue.slot (s.systemTcb c).curPrio⟩] ∧
      ∀ p, q.slot p =
        if p = highestPrio s.runQueue then none
        else if p = (s.systemTcb c).curPrio then some c else s.runQueue.slot p := by
  have least := highestPrio_runqueueAdd (c := c) wf best inside worse
  have slot : (runqueueAdd s.runQueue c (s.systemTcb c).curPrio).slot
      (highestPrio s.runQueue) = some b := by
    rw [slot_runqueueAdd, if_neg (Nat.ne_of_lt worse), best.2]
  obtain ⟨q, removed, wfq, added, slots⟩ :=
    runqueueRemove_eq_ok (wf.runqueueAdd (t := c) inside) slot
  refine ⟨q, ?_, wfq, added, ?_⟩
  · simp only [dispatchSave, current]
    rw [if_pos worse, least, removed]
  · intro p
    rw [slots, slot_runqueueAdd]

theorem dispatchSleep_eq_ok (wf : s.runQueue.Wf) (current : s.curTcb = some c)
    (best : s.runQueue.Best b) :
    ∃ q, dispatchSleep s = .ok (ctxSwitchFull { s with runQueue := q, curTcb := some b } b c) ∧
      q.Wf ∧ q.added = s.runQueue.added ∧
      ∀ p, q.slot p = if p = highestPrio s.runQueue then none else s.runQueue.slot p := by
  obtain ⟨q, removed, wfq, added, slots⟩ := runqueueRemove_eq_ok wf best.2
  exact ⟨q, by simp only [dispatchSleep, removed, current], wfq, added, slots⟩

theorem dispatchNosave_eq_ok (wf : s.runQueue.Wf) (best : s.runQueue.Best b) :
    ∃ q, dispatchNosave s = .ok (ctxSwitchHalf { s with runQueue := q, curTcb := some b } b) ∧
      q.Wf ∧ q.added = s.runQueue.added ∧
      ∀ p, q.slot p = if p = highestPrio s.runQueue then none else s.runQueue.slot p := by
  obtain ⟨q, removed, wfq, added, slots⟩ := runqueueRemove_eq_ok wf best.2
  exact ⟨q, by simp only [dispatchNosave, removed], wfq, added, slots⟩

end Gravel
