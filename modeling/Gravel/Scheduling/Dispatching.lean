import Gravel.Kernel.Dispatch
import Gravel.Kernel.Machine
import Gravel.Scheduling.PriorityMap

/-!
# Dispatching the least priority

A dispatch takes the task of the least key out of a priority map and gives it the
processor. `dispatch_sleep` takes it from the queue, `dispatch_save` from the
queue with the running task added. The second one decides by a look at
`highest_prio`, which is 0 for an empty queue, so an empty queue makes it add the
running task and take it out again.

## Main definitions

* `Kernel.Takes` — the task of the least key of a map now runs

## Main results

* `takes_dispatchSave`, `takes_dispatchSleep` — each dispatch over its map
* `dispatch_takes_least` — both, with what an empty queue does
-/

namespace Gravel

open Library

/-- The task of the least key of the map has the processor, with its own registers, and
the rest of the map is queued. -/
def Kernel.Takes (s : Kernel) (cur : TcbPtr) (Q : PrioMap) (s' : Kernel) : Prop :=
  ∃ m b, IsLeast (keys Q) m ∧ Q m = some b ∧ s'.curTcb = some b ∧
    s'.runQueue.Implements (Function.update Q m none) ∧
    s'.regs = if b = cur then s.regs else (s.systemTcb b).context

variable {s s' : Kernel} {Q : PrioMap} {cur b : TcbPtr} {c m : Prio}

/-! ### One switch -/

/-- A task that is switched to itself finds its registers as they were. -/
theorem ctxSwitchFull_regs :
    (ctxSwitchFull s b cur).regs = if b = cur then s.regs else (s.systemTcb b).context := by
  by_cases same : b = cur
  · subst same
    simp [ctxSwitchFull]
  · simp [ctxSwitchFull, same]

theorem ctxSwitchFull_context (t : TcbPtr) :
    ((ctxSwitchFull s b cur).systemTcb t).context =
      if t = cur then s.regs else (s.systemTcb t).context := by
  by_cases same : t = cur
  · subst same
    simp [ctxSwitchFull]
  · simp [ctxSwitchFull, same]

/-- The removal at `highest_prio`, and the switch to the task it returns. -/
theorem takes_ctxSwitchFull {q : RunQueue} (queue : q.Implements Q)
    (nonempty : (keys Q).Nonempty) (cur : TcbPtr) :
    ∃ b q', runqueueRemove q (highestPrio q) = .ok (b, q') ∧
      s.Takes cur Q (ctxSwitchFull { s with runQueue := q', curTcb := some b } b cur) := by
  obtain ⟨m, highest, least⟩ := queue.isLeast_highestPrio nonempty
  obtain ⟨b, found⟩ := least.1
  obtain ⟨q', removed, rest⟩ := queue.runqueueRemove found
  exact ⟨b, q', highest ▸ removed, m, b, least, found, rfl, rest, ctxSwitchFull_regs⟩

/-! ### The two dispatches -/

theorem takes_dispatchSleep (queue : s.runQueue.Implements Q) (current : s.curTcb = some cur)
    (nonempty : (keys Q).Nonempty) :
    ∃ s', dispatchSleep s = .ok s' ∧ s.Takes cur Q s' ∧
      ∀ t, (s'.systemTcb t).context = if t = cur then s.regs else (s.systemTcb t).context := by
  obtain ⟨b, q', removed, takes⟩ := takes_ctxSwitchFull (s := s) queue nonempty cur
  refine ⟨_, ?_, takes, fun t => ctxSwitchFull_context t⟩
  simp only [dispatchSleep, removed, current]

/-- Without a switch the running task is the least one already. -/
theorem takes_self (queue : s.runQueue.Implements Q) (current : s.curTcb = some cur)
    (free : Q c = none) (better : (c : ℕ) ≤ highestPrio s.runQueue) :
    s.Takes cur (Function.update Q c (some cur)) s := by
  refine ⟨c, cur, ⟨?_, ?_⟩, Function.update_self .., current, ?_, (if_pos rfl).symm⟩
  · exact mem_keys_of_eq_some (Function.update_self ..)
  · -- A key is above `highest_prio`, which the running task is not.
    rw [keys_update_some]
    rintro k (rfl | member)
    · exact le_rfl
    · obtain ⟨m, highest, least⟩ := queue.isLeast_highestPrio ⟨k, member⟩
      rw [highest] at better
      exact le_trans better (least.2 member)
  · rw [Function.update_idem, ← free, Function.update_eq_self]
    exact queue

theorem takes_dispatchSave (queue : s.runQueue.Implements Q) (current : s.curTcb = some cur)
    (prio : (s.systemTcb cur).curPrio = c) (free : Q c = none) :
    ∃ s', dispatchSave s = .ok s' ∧ s.Takes cur (Function.update Q c (some cur)) s' := by
  by_cases worse : highestPrio s.runQueue < c
  · have added : (runqueueAdd s.runQueue cur c).Implements (Function.update Q c (some cur)) :=
      queue.runqueueAdd
    have nonempty : (keys (Function.update Q c (some cur))).Nonempty :=
      ⟨c, mem_keys_of_eq_some (Function.update_self ..)⟩
    obtain ⟨b, q', removed, takes⟩ := takes_ctxSwitchFull (s := s) added nonempty cur
    refine ⟨_, ?_, takes⟩
    simp only [dispatchSave, current, prio]
    rw [if_pos worse, removed]
  · have better : (c : ℕ) ≤ highestPrio s.runQueue := Nat.le_of_not_lt worse
    refine ⟨s, dispatchSave_eq_self current ?_, takes_self queue current free better⟩
    rw [prio]
    exact better

/-- With nothing queued the running task goes on, and the queue is empty again. -/
theorem Kernel.Takes.of_empty (takes : s.Takes cur (Function.update Q c (some cur)) s')
    (empty : keys Q = ∅) :
    s'.curTcb = some cur ∧ s'.regs = s.regs ∧ s'.runQueue.Implements PrioMap.empty := by
  obtain ⟨m, b, least, found, current, rest, regs⟩ := takes
  have single : m = c := by
    have member := least.1
    rw [keys_update_some, empty] at member
    simpa using member
  subst single
  rw [Function.update_self, Option.some.injEq] at found
  subst found
  have nothing : Function.update (Function.update Q m (some cur)) m none = PrioMap.empty := by
    funext k
    have absent : Q k = none := by
      rw [← notMem_keys, empty]
      exact Set.notMem_empty k
    by_cases same : k = m
    · subst same
      simp [PrioMap.empty]
    · simp [PrioMap.empty, same, absent]
  rw [nothing] at rest
  exact ⟨current, by simpa using regs, rest⟩

/-- Whatever is queued, and whatever free priority the running task has: `dispatch_save`
gives the processor to the least priority of the queue and the running task and queues the
others, without a failed assertion; `dispatch_sleep` takes the least priority of a queue
that is not empty and saves the registers of the task it leaves, and of no other. -/
theorem dispatch_takes_least (queue : s.runQueue.Implements Q) (current : s.curTcb = some cur)
    (prio : (s.systemTcb cur).curPrio = c) (free : c ∉ keys Q) :
    (∃ s', dispatchSave s = .ok s' ∧ s.Takes cur (Function.update Q c (some cur)) s' ∧
      (keys Q = ∅ →
        s'.curTcb = some cur ∧ s'.regs = s.regs ∧ s'.runQueue.Implements PrioMap.empty)) ∧
    ((keys Q).Nonempty → ∃ s', dispatchSleep s = .ok s' ∧ s.Takes cur Q s' ∧
      ∀ t, (s'.systemTcb t).context = if t = cur then s.regs else (s.systemTcb t).context) := by
  obtain ⟨s', saved, takes⟩ := takes_dispatchSave queue current prio (notMem_keys.mp free)
  exact ⟨⟨s', saved, takes, takes.of_empty⟩, takes_dispatchSleep queue current⟩

/-- Task 5 runs at the priority of its index, and task 2 is queued. -/
def twoReady : Kernel :=
  { bssKernel with
    systemTcb := fun t => { bssKernel.systemTcb t with curPrio := t.val }
    curTcb := some 5
    runQueue := runqueueAdd (runqueueInit bssKernel.runQueue) 2 (2 : Prio) }

theorem twoReady_implements :
    twoReady.runQueue.Implements (Function.update PrioMap.empty 2 (some 2)) :=
  (implements_runqueueInit bssKernel.runQueue).runqueueAdd

theorem dispatch_takes_least_twoReady :
    (∃ s', dispatchSave twoReady = .ok s' ∧
      twoReady.Takes 5 (Function.update (Function.update PrioMap.empty 2 (some 2)) 5 (some 5)) s' ∧
      (keys (Function.update PrioMap.empty 2 (some 2)) = ∅ →
        s'.curTcb = some 5 ∧ s'.regs = twoReady.regs ∧
          s'.runQueue.Implements PrioMap.empty)) ∧
    ((keys (Function.update PrioMap.empty 2 (some 2))).Nonempty →
      ∃ s', dispatchSleep twoReady = .ok s' ∧
        twoReady.Takes 5 (Function.update PrioMap.empty 2 (some 2)) s' ∧
        ∀ t, (s'.systemTcb t).context =
          if t = 5 then twoReady.regs else (twoReady.systemTcb t).context) :=
  dispatch_takes_least (c := 5) twoReady_implements rfl rfl (notMem_keys.mpr rfl)

end Gravel
