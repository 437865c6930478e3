import Gravel.Kernel.Device
import Gravel.Scheduling.Dispatching
import Mathlib.Data.Finset.Union

/-!
# Waking the waiters of due devices

`dev_update` from any state in which every task has one place: it runs, is queued
at its priority, or waits for one device. The `for` loop is followed with the set
of devices it has been through; what it has done by then is said relative to the
state it started in.

## Main definitions

* `PrioMap.Lists` — the map has the tasks of a set, each at its priority
* `Kernel.Parks` — one place for every task
* `Kernel.woken` — the waiters of the due devices among a set
* `Kernel.Drained` — the loop has been through a set of devices

## Main results

* `Kernel.Drained.updateDevice` — one round of the loop
* `devUpdate_wakes_due` — the whole function
-/

namespace Gravel

open Library

variable {k s : Kernel} {Q : PrioMap} {prio : TcbPtr → ℕ} {cur t b : TcbPtr} {p m : Prio}
  {queued : Finset TcbPtr} {waits : DevPtr → List TcbPtr} {millis : UInt32} {d : DevPtr}
  {D : Finset DevPtr}

/-! ### A queue of tasks at their priorities -/

/-- The keys of the map are the priorities of the tasks of the set. -/
def PrioMap.Lists (Q : PrioMap) (prio : TcbPtr → ℕ) (queued : Finset TcbPtr) : Prop :=
  ∀ (p : Prio) (t : TcbPtr), Q p = some t ↔ prio t = p ∧ t ∈ queued

theorem PrioMap.Lists.insert (lists : Q.Lists prio queued) (own : prio t = p)
    (apart : ∀ u ∈ queued, prio u ≠ prio t) :
    PrioMap.Lists (Function.update Q p (some t)) prio (insert t queued) := by
  intro p' u
  rw [Function.update_apply, Finset.mem_insert]
  split
  · rename_i same
    subst same
    rw [Option.some.injEq]
    constructor
    · rintro rfl
      exact ⟨own, Or.inl rfl⟩
    · rintro ⟨at_p, rfl | member⟩
      · rfl
      · exact absurd (at_p.trans own.symm) (apart u member)
  · rename_i other
    rw [lists p' u]
    refine and_congr_right fun at_p => (or_iff_right ?_).symm
    rintro rfl
    exact other (Fin.ext (at_p.symm.trans own))

theorem PrioMap.Lists.erase (lists : Q.Lists prio queued) (found : Q m = some b) :
    PrioMap.Lists (Function.update Q m none) prio (queued.erase b) := by
  obtain ⟨own, -⟩ := (lists m b).mp found
  intro p u
  rw [Function.update_apply, Finset.mem_erase]
  split
  · rename_i same
    subst same
    constructor
    · simp
    · rintro ⟨at_p, different, member⟩
      rw [(lists p u).mpr ⟨at_p, member⟩, Option.some.injEq] at found
      exact absurd found different
  · rename_i other
    rw [lists p u]
    refine and_congr_right fun at_p => (and_iff_right ?_).symm
    rintro rfl
    exact other (Fin.ext (at_p.symm.trans own))

theorem PrioMap.Lists.congr {prio' : TcbPtr → ℕ} (lists : Q.Lists prio queued)
    (same : ∀ t, prio' t = prio t) : Q.Lists prio' queued := by
  rwa [funext same]

/-- The run queue holds the tasks of the set, each at its `cur_prio`. -/
def Kernel.Queues (k : Kernel) (queued : Finset TcbPtr) : Prop :=
  ∃ Q, k.runQueue.Implements Q ∧ Q.Lists (fun t => (k.systemTcb t).curPrio) queued

/-! ### One place for every task -/

/-- One task runs, the tasks of a set are queued, and every device has its list of waiters. -/
structure Kernel.Parks (k : Kernel) (cur : TcbPtr) (queued : Finset TcbPtr)
    (waits : DevPtr → List TcbPtr) : Prop where
  current : k.curTcb = some cur
  queues : k.Queues queued
  chains : ∀ d, Chain k.link (k.devices d).sleepQueue (waits d)

/-- The tasks that have a place. -/
def Placed (cur : TcbPtr) (queued : Finset TcbPtr) (waits : DevPtr → List TcbPtr)
    (t : TcbPtr) : Prop :=
  t = cur ∨ t ∈ queued ∨ ∃ d, t ∈ waits d

/-- No task has two places, and no two tasks have one priority. -/
structure Kernel.Apart (k : Kernel) (cur : TcbPtr) (queued : Finset TcbPtr)
    (waits : DevPtr → List TcbPtr) : Prop where
  running : cur ∉ queued ∧ ∀ d, cur ∉ waits d
  waiting : ∀ d, ∀ t ∈ waits d, t ∉ queued
  disjoint : ∀ d e t, t ∈ waits d → t ∈ waits e → d = e
  bound : ∀ t, Placed cur queued waits t → (k.systemTcb t).curPrio < Config.osMaxTasks
  distinct : ∀ t u, Placed cur queued waits t → Placed cur queued waits u →
    (k.systemTcb t).curPrio = (k.systemTcb u).curPrio → t = u

/-- The waiters of the due devices among a set. -/
def Kernel.woken (k : Kernel) (millis : UInt32) (waits : DevPtr → List TcbPtr)
    (D : Finset DevPtr) : Finset TcbPtr :=
  (D.filter fun d => (k.devices d).nextMatch ≤ millis).biUnion fun d => (waits d).toFinset

theorem Kernel.mem_woken : t ∈ k.woken millis waits D ↔
    ∃ d ∈ D, (k.devices d).nextMatch ≤ millis ∧ t ∈ waits d := by
  simp [Kernel.woken, and_assoc]

theorem placed_of_waiting (waiting : t ∈ waits d) : Placed cur queued waits t :=
  Or.inr (Or.inr ⟨d, waiting⟩)

theorem placed_of_mem (member : t ∈ queued ∪ k.woken millis waits D) :
    Placed cur queued waits t := by
  rcases Finset.mem_union.mp member with member | member
  · exact Or.inr (Or.inl member)
  · obtain ⟨d, -, -, waiting⟩ := Kernel.mem_woken.mp member
    exact placed_of_waiting waiting

theorem Kernel.woken_insert_of_le (waits : DevPtr → List TcbPtr) (D : Finset DevPtr)
    (due : (k.devices d).nextMatch ≤ millis) :
    k.woken millis waits (insert d D) = k.woken millis waits D ∪ (waits d).toFinset := by
  simp [Kernel.woken, Finset.filter_insert, due, Finset.union_comm]

theorem Kernel.woken_insert_of_not_le (waits : DevPtr → List TcbPtr) (D : Finset DevPtr)
    (early : ¬ (k.devices d).nextMatch ≤ millis) :
    k.woken millis waits (insert d D) = k.woken millis waits D := by
  simp [Kernel.woken, Finset.filter_insert, early]

/-! ### The loop over waiters -/

theorem Kernel.Queues.wakeWaiter (queues : s.Queues queued)
    (inside : (s.systemTcb t).curPrio < Config.osMaxTasks)
    (apart : ∀ u ∈ queued, (s.systemTcb u).curPrio ≠ (s.systemTcb t).curPrio) :
    (wakeWaiter s t).Queues (insert t queued) := by
  obtain ⟨Q, implements, lists⟩ := queues
  let p : Prio := ⟨(s.systemTcb t).curPrio, inside⟩
  refine ⟨Function.update Q p (some t), implements.runqueueAdd (t := t) (p := p), ?_⟩
  apply PrioMap.Lists.congr (lists.insert (p := p) rfl apart)
  intro u
  exact wakeWaiter_curPrio s t u

/-- The loop along a chain queues its tasks and clears their links. -/
theorem wakeWaiters_eq_ok {l : List TcbPtr} {head : Option TcbPtr} (fuel : ℕ) (flag : Bool)
    (chain : Chain s.link head l) (queues : s.Queues queued)
    (inside : ∀ t ∈ l, (s.systemTcb t).curPrio < Config.osMaxTasks)
    (waiting : ∀ t ∈ l, t ∉ queued)
    (distinct : Set.InjOn (fun t => (s.systemTcb t).curPrio) {t | t ∈ queued ∨ t ∈ l})
    (enough : l.length ≤ fuel) :
    ∃ s', wakeWaiters fuel head (flag, s) = .ok (flag || !l.isEmpty, s') ∧
      s'.Queues (queued ∪ l.toFinset) ∧ s'.curTcb = s.curTcb ∧ s'.devices = s.devices ∧
      (∀ t, (s'.systemTcb t).curPrio = (s.systemTcb t).curPrio) ∧
      ∀ t, s'.link t = if t ∈ l then none else s.link t := by
  induction l generalizing s head queued flag fuel with
  | nil =>
    obtain rfl : head = none := chain
    exact ⟨s, by cases fuel <;> simp [wakeWaiters], by simpa using queues, rfl, rfl,
      fun _ => rfl, fun _ => by simp⟩
  | cons a l ih =>
    obtain rfl := chain.1
    obtain ⟨fuel, rfl⟩ := Nat.exists_eq_succ_of_ne_zero (Nat.ne_zero_of_lt enough)
    have first : a ∉ l := (List.nodup_cons.mp chain.nodup).1
    have unqueued : a ∉ queued := waiting a List.mem_cons_self
    have added : (wakeWaiter s a).Queues (insert a queued) := by
      apply queues.wakeWaiter (inside a List.mem_cons_self)
      intro u member same
      have := distinct (Or.inl member) (Or.inr List.mem_cons_self) same
      exact unqueued (this ▸ member)
    -- The link of `a` is read before it is cleared.
    have popped : Chain (wakeWaiter s a).link (s.link a) l := by
      rw [wakeWaiter_link]
      exact chain.pop
    have places : {t | t ∈ insert a queued ∨ t ∈ l} = {t | t ∈ queued ∨ t ∈ a :: l} := by
      ext t
      simp only [Set.mem_ofPred_eq, Finset.mem_insert, List.mem_cons]
      tauto
    obtain ⟨s', woken, queues', current, devices, prios, links⟩ :=
      ih fuel true popped added
        (by simpa using fun t member => inside t (List.mem_cons_of_mem a member))
        (by
          intro t member
          rw [Finset.mem_insert, not_or]
          exact ⟨fun same => first (same ▸ member), waiting t (List.mem_cons_of_mem a member)⟩)
        (by simpa only [places, wakeWaiter_curPrio] using distinct)
        (by simpa using enough)
    refine ⟨s', ?_, ?_, current, devices, ?_, ?_⟩
    · simpa [wakeWaiters] using woken
    · simpa [Finset.insert_union, Finset.union_insert] using queues'
    · intro t
      rw [prios, wakeWaiter_curPrio]
    · intro t
      rw [links, wakeWaiter_link, Function.update_apply]
      by_cases same : t = a <;> simp [same]

/-! ### The loop over devices -/

theorem updateDevice_of_le {state : Bool × Kernel} {flag : Bool} {s' : Kernel}
    (due : (state.2.devices d).nextMatch ≤ millis)
    (woken : wakeWaiters (Config.osMaxTasks + 1) (state.2.devices d).sleepQueue state =
      .ok (flag, s')) :
    updateDevice millis d state = .ok (flag, s'.setDev d
      { sleepQueue := none, nextMatch := (s'.devices d).nextMatch + devFreq d }) := by
  simp only [updateDevice]
  rw [if_pos due, woken]

theorem updateDevice_of_not_le {state : Bool × Kernel}
    (early : ¬ (state.2.devices d).nextMatch ≤ millis) :
    updateDevice millis d state = .ok state := by
  simp only [updateDevice]
  rw [if_neg early]

/-- The loop, started in `k`, has been through the devices of `D`. -/
structure Kernel.Drained (k : Kernel) (queued : Finset TcbPtr) (waits : DevPtr → List TcbPtr)
    (millis : UInt32) (D : Finset DevPtr) (state : Bool × Kernel) : Prop where
  flag : state.1 = decide (k.woken millis waits D).Nonempty
  current : state.2.curTcb = k.curTcb
  queues : state.2.Queues (queued ∪ k.woken millis waits D)
  prio : ∀ t, (state.2.systemTcb t).curPrio = (k.systemTcb t).curPrio
  devices : ∀ d, state.2.devices d =
    if d ∈ D ∧ (k.devices d).nextMatch ≤ millis then
      { sleepQueue := none, nextMatch := (k.devices d).nextMatch + devFreq d }
    else k.devices d
  link : ∀ t, state.2.link t = if t ∈ k.woken millis waits D then none else k.link t

theorem Kernel.Parks.drained_empty (parks : k.Parks cur queued waits) (millis : UInt32) :
    k.Drained queued waits millis ∅ (false, k) where
  flag := by simp [Kernel.woken]
  current := rfl
  queues := by simpa [Kernel.woken] using parks.queues
  prio t := rfl
  devices d := by simp
  link t := by simp [Kernel.woken]

section Round

variable {state : Bool × Kernel} (parks : k.Parks cur queued waits)
  (apart : k.Apart cur queued waits)

include apart in
/-- A waiter of a device the loop has not been through is not woken yet. -/
theorem Kernel.Apart.notMem_woken (fresh : d ∉ D) (waiting : t ∈ waits d) :
    t ∉ k.woken millis waits D := by
  rw [Kernel.mem_woken]
  rintro ⟨e, member, -, waiting'⟩
  exact fresh (apart.disjoint d e t waiting waiting' ▸ member)

include parks apart in
/-- The chain of a device the loop has not been through is untouched. -/
theorem Kernel.Drained.chain (drained : k.Drained queued waits millis D state)
    (fresh : d ∉ D) : Chain state.2.link (state.2.devices d).sleepQueue (waits d) := by
  rw [drained.devices d, if_neg fun both => fresh both.1]
  apply (parks.chains d).congr
  intro t waiting
  rw [drained.link, if_neg (apart.notMem_woken fresh waiting)]

include parks apart in
/-- The inner loop at a due device. -/
theorem Kernel.Drained.wakeWaiters (drained : k.Drained queued waits millis D state)
    (fresh : d ∉ D) :
    ∃ s', wakeWaiters (Config.osMaxTasks + 1) (state.2.devices d).sleepQueue state =
        .ok (state.1 || !(waits d).isEmpty, s') ∧
      s'.Queues (queued ∪ k.woken millis waits D ∪ (waits d).toFinset) ∧
      s'.curTcb = k.curTcb ∧ s'.devices = state.2.devices ∧
      (∀ t, (s'.systemTcb t).curPrio = (k.systemTcb t).curPrio) ∧
      ∀ t, s'.link t = if t ∈ waits d then none else state.2.link t := by
  have chain := drained.chain parks apart fresh
  obtain ⟨s', woken, queues, current, devices, prio, link⟩ :=
    wakeWaiters_eq_ok (Config.osMaxTasks + 1) state.1 chain drained.queues
      (by
        intro t waiting
        rw [drained.prio]
        exact apart.bound t (placed_of_waiting waiting))
      (by
        intro t waiting
        rw [Finset.mem_union, not_or]
        exact ⟨apart.waiting d t waiting, apart.notMem_woken fresh waiting⟩)
      (by
        intro t ht u hu same
        simp only [drained.prio] at same
        exact apart.distinct t u (ht.elim placed_of_mem placed_of_waiting)
          (hu.elim placed_of_mem placed_of_waiting) same)
      (by
        -- A chain visits no task twice.
        have bound := chain.nodup.length_le_card
        rw [Fintype.card_fin] at bound
        exact Nat.le_succ_of_le bound)
  exact ⟨s', woken, queues, current.trans drained.current, devices,
    fun t => (prio t).trans (drained.prio t), link⟩

include parks apart in
/-- One round of the loop. -/
theorem Kernel.Drained.updateDevice (drained : k.Drained queued waits millis D state)
    (fresh : d ∉ D) : ∃ state', updateDevice millis d state = .ok state' ∧
      k.Drained queued waits millis (insert d D) state' := by
  have device : state.2.devices d = k.devices d := by
    rw [drained.devices d, if_neg fun both => fresh both.1]
  by_cases due : (k.devices d).nextMatch ≤ millis
  · obtain ⟨s', woken, queues, current, devices, prio, link⟩ :=
      drained.wakeWaiters parks apart fresh
    refine ⟨_, updateDevice_of_le (device ▸ due) woken, ?_⟩
    have more := Kernel.woken_insert_of_le waits D due
    refine ⟨?_, current, ?_, prio, fun e => ?_, fun t => ?_⟩
    · rw [more, drained.flag]
      cases waits d <;> simp
    · rw [more, ← Finset.union_assoc]
      exact queues
    · by_cases here : e = d
      · subst here
        simp [devices, device, due]
      · simp [here, devices, drained.devices e]
    · rw [more, Kernel.setDev_link, link, drained.link]
      by_cases waiting : t ∈ waits d <;> simp [waiting]
  · refine ⟨state, updateDevice_of_not_le (device ▸ due), ?_⟩
    have same := Kernel.woken_insert_of_not_le waits D due
    refine ⟨same ▸ drained.flag, drained.current, same ▸ drained.queues, drained.prio,
      fun e => ?_, same ▸ drained.link⟩
    rw [drained.devices e]
    by_cases here : e = d
    · subst here
      simp [fresh, due]
    · simp [here]

include parks apart in
/-- The loop goes through any devices it has not been through. -/
theorem Kernel.Drained.updateDevices (ds : List DevPtr)
    (drained : k.Drained queued waits millis D state) (fresh : ∀ d ∈ ds, d ∉ D)
    (once : ds.Nodup) : ∃ state', updateDevices millis ds state = .ok state' ∧
      k.Drained queued waits millis (D ∪ ds.toFinset) state' := by
  induction ds generalizing D state with
  | nil => exact ⟨state, rfl, by simpa using drained⟩
  | cons d rest ih =>
    obtain ⟨new, once⟩ := List.nodup_cons.mp once
    obtain ⟨state₁, updated, drained₁⟩ :=
      drained.updateDevice parks apart (fresh d List.mem_cons_self)
    obtain ⟨state', done, drained'⟩ := ih drained₁
      (by
        intro e member
        rw [Finset.mem_insert, not_or]
        exact ⟨fun same => new (same ▸ member), fresh e (List.mem_cons_of_mem d member)⟩)
      once
    refine ⟨state', ?_, ?_⟩
    · simp only [Gravel.updateDevices, updated, done]
    · simpa [Finset.insert_union, Finset.union_insert] using drained'

end Round

/-! ### The whole function -/

/-- What `dev_update` does to a state with one place for every task: the waiters of the due
devices are moved to the run queue and the processor, and nothing else changes place. -/
structure Kernel.Updated (k : Kernel) (millis : UInt32) (cur : TcbPtr) (queued : Finset TcbPtr)
    (waits : DevPtr → List TcbPtr) (cur' : TcbPtr) (queued' : Finset TcbPtr) (k' : Kernel) :
    Prop where
  parks : k'.Parks cur' queued' fun d =>
    if (k.devices d).nextMatch ≤ millis then [] else waits d
  devices : ∀ d, k'.devices d =
    if (k.devices d).nextMatch ≤ millis then
      { sleepQueue := none, nextMatch := (k.devices d).nextMatch + devFreq d }
    else k.devices d
  link : ∀ t, k'.link t =
    if t ∈ k.woken millis waits Finset.univ then none else k.link t
  prio : ∀ t, (k'.systemTcb t).curPrio = (k.systemTcb t).curPrio
  once : cur' ∉ queued'
  conserved : insert cur' queued' = insert cur (queued ∪ k.woken millis waits Finset.univ)
  least : (k.woken millis waits Finset.univ).Nonempty →
    ∀ t ∈ insert cur' queued', (k.systemTcb cur').curPrio ≤ (k.systemTcb t).curPrio
  stays : k.woken millis waits Finset.univ = ∅ → cur' = cur

/-- The chains after the loop, whatever is dispatched then. -/
theorem Kernel.Drained.chains {flag : Bool} (parks : k.Parks cur queued waits)
    (apart : k.Apart cur queued waits)
    (drained : k.Drained queued waits millis Finset.univ (flag, s)) (d : DevPtr) :
    Chain s.link (s.devices d).sleepQueue
      (if (k.devices d).nextMatch ≤ millis then [] else waits d) := by
  rw [drained.devices d]
  by_cases due : (k.devices d).nextMatch ≤ millis
  · simp [due]
  · simp only [due, and_false, if_false]
    apply (parks.chains d).congr
    intro t waiting
    rw [drained.link, if_neg]
    rw [Kernel.mem_woken]
    rintro ⟨e, -, due', waiting'⟩
    exact due (apart.disjoint d e t waiting waiting' ▸ due')

/-- `dispatch_save` among a queue of tasks at their priorities. -/
theorem Kernel.Queues.dispatchSave (queues : s.Queues queued) (current : s.curTcb = some cur)
    (inside : ∀ t ∈ insert cur queued, (s.systemTcb t).curPrio < Config.osMaxTasks)
    (apart : ∀ u ∈ queued, (s.systemTcb u).curPrio ≠ (s.systemTcb cur).curPrio) :
    ∃ b ∈ insert cur queued, ∃ s', dispatchSave s = .ok s' ∧ s'.curTcb = some b ∧
      s'.Queues ((insert cur queued).erase b) ∧
      ∀ t ∈ insert cur queued, (s.systemTcb b).curPrio ≤ (s.systemTcb t).curPrio := by
  obtain ⟨Q, implements, lists⟩ := queues
  let c : Prio := ⟨(s.systemTcb cur).curPrio, inside cur (Finset.mem_insert_self cur queued)⟩
  have free : Q c = none := by
    rw [Option.eq_none_iff_forall_ne_some]
    intro u found
    obtain ⟨same, member⟩ := (lists c u).mp found
    exact apart u member same
  obtain ⟨s', saved, m, b, least, found, current', rest, -⟩ :=
    takes_dispatchSave (c := c) implements current rfl free
  have lists' := lists.insert (p := c) rfl apart
  obtain ⟨own, member⟩ := (lists' m b).mp found
  have prios := (dispatchSave_onlySwitched saved).curPrio
  refine ⟨b, member, s', saved, current', ⟨_, rest, ?_⟩, ?_⟩
  · exact (lists'.erase found).congr prios
  · intro t placed
    have key := mem_keys_of_eq_some ((lists' ⟨_, inside t placed⟩ t).mpr ⟨rfl, placed⟩)
    exact own.trans_le (least.2 key)

/-- From any state with one place for every task, and for any `millis`, `dev_update` ends
and moves exactly the waiters of the due devices. -/
theorem devUpdate_wakes_due (parks : k.Parks cur queued waits)
    (apart : k.Apart cur queued waits) (millis : UInt32) :
    ∃ cur' queued' k', devUpdate k millis = .ok k' ∧
      k.Updated millis cur queued waits cur' queued' k' := by
  obtain ⟨⟨flag, s⟩, done, drained⟩ :=
    (parks.drained_empty millis).updateDevices parks apart (List.finRange Config.numDevices)
      (fun d _ => Finset.notMem_empty d) (List.nodup_finRange _)
  have all : ∅ ∪ (List.finRange Config.numDevices).toFinset = Finset.univ := by
    ext d
    simp
  rw [all] at drained
  have unqueued : cur ∉ queued ∪ k.woken millis waits Finset.univ := by
    rw [Finset.mem_union, not_or, Kernel.mem_woken]
    exact ⟨apart.running.1, fun ⟨d, _, _, waiting⟩ => apart.running.2 d waiting⟩
  have prios : ∀ t, (s.systemTcb t).curPrio = (k.systemTcb t).curPrio := drained.prio
  have current : s.curTcb = some cur := drained.current.trans parks.current
  by_cases some_woken : (k.woken millis waits Finset.univ).Nonempty
  · have loud : flag = true := drained.flag.trans (decide_eq_true some_woken)
    obtain ⟨b, member, s', saved, current', queues', least⟩ :=
      drained.queues.dispatchSave current
        (by
          intro t placed
          rw [prios]
          rcases Finset.mem_insert.mp placed with rfl | member
          · exact apart.bound t (Or.inl rfl)
          · exact apart.bound t (placed_of_mem member))
        (by
          intro u member same
          rw [prios, prios] at same
          have := apart.distinct u cur (placed_of_mem member) (Or.inl rfl) same
          exact unqueued (this ▸ member))
    have only := dispatchSave_onlySwitched saved
    refine ⟨b, (insert cur (queued ∪ k.woken millis waits Finset.univ)).erase b, s', ?_,
      ⟨current', queues', ?_⟩, ?_, ?_, ?_, Finset.notMem_erase b _, Finset.insert_erase member, ?_,
      ?_⟩
    · simp [devUpdate, done, loud, saved]
    · rw [only.devices, only.link]
      exact drained.chains parks apart
    · rw [only.devices]
      simpa using drained.devices
    · rw [only.link]
      exact drained.link
    · exact fun t => (only.curPrio t).trans (prios t)
    · intro _ t placed
      rw [Finset.insert_erase member] at placed
      rw [← prios, ← prios]
      exact least t placed
    · intro nothing
      simp [nothing] at some_woken
  · have nothing := Finset.not_nonempty_iff_eq_empty.mp some_woken
    have quiet : flag = false := drained.flag.trans (decide_eq_false some_woken)
    refine ⟨cur, queued, s, ?_, ⟨current, ?_, drained.chains parks apart⟩, ?_, drained.link,
      prios, apart.running.1, ?_, ?_, fun _ => rfl⟩
    · simp [devUpdate, done, quiet]
    · simpa [nothing] using drained.queues
    · simpa using drained.devices
    · rw [nothing, Finset.union_empty]
    · exact fun nonempty => absurd nonempty some_woken

/-- Task 3 waits for device 0, which is due at 100. -/
def oneWaiting : Kernel :=
  { twoReady with
    devices := fun d => { sleepQueue := if d = 0 then some 3 else none, nextMatch := 100 } }

theorem devUpdate_wakes_due_oneWaiting :
    ∃ cur' queued' k', devUpdate oneWaiting 100 = .ok k' ∧
      oneWaiting.Updated 100 5 {2} (fun d => if d = 0 then [3] else []) cur' queued' k' := by
  have none_listed : PrioMap.Lists PrioMap.empty (fun t => (oneWaiting.systemTcb t).curPrio) ∅ :=
    fun p t => by simp [PrioMap.empty]
  have parks : oneWaiting.Parks 5 {2} fun d => if d = 0 then [3] else [] :=
    { current := rfl
      queues := ⟨_, twoReady_implements, none_listed.insert rfl (by simp)⟩
      chains := by decide }
  have apart : oneWaiting.Apart 5 {2} fun d => if d = 0 then [3] else [] :=
    { running := by decide
      waiting := by decide
      disjoint := by decide
      bound := fun t _ => t.isLt
      distinct := fun t u _ _ same => Fin.ext same }
  exact devUpdate_wakes_due parks apart 100

end Gravel
