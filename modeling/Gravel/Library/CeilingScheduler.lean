import Mathlib.Data.Finset.Max
import Mathlib.Data.Finset.Union
import Mathlib.Order.Bounds.Basic

/-!
# A priority scheduler with event waits and one lock ceiling

What a uniprocessor kernel with the highest locker protocol is for, without its
data structures. Tasks are the elements of a linear order, smaller ones more
urgent. One task is running; others are ready, or wait for an event of a device.
The running task may hold locks, and then nothing preempts it.

A wait takes two steps: the running task enters the waiting list of a device, and
later it gives up the processor. Between the two it is in the *window*: events may
wake it, and more urgent tasks may preempt it, although it has not slept yet.

## Main definitions

* `Scheduler` — the running task, the ready set, the waiting lists, the window, the locks
* `Scheduler.tick`, `wait`, `sleep`, `lock`, `unlock` — the steps
* `Scheduler.Inv` — where a task can be, relative to where it stands
* `Scheduler.Placed` — every task is running, ready or waiting
* `Scheduler.Ordered` — no ready task is more urgent than a running one in user code

## Main results

* `Inv.tick`, `Inv.wait`, `Inv.sleep`, `Inv.lock`, `Inv.unlock` — the steps keep `Inv`
* `Inv.placed_sleep_iff` — giving up the processor loses the running task unless it
  is ready or waiting
* `ordered_unlock_iff` — dropping the last lock keeps the order unless a ready task is
  more urgent
-/

set_option linter.unusedSectionVars false

namespace Gravel.Library

/-- The state of the scheduler. -/
structure Scheduler (τ δ μ : Type*) where
  /-- The running task. -/
  cur : τ
  ready : Finset τ
  waits : δ → List τ
  /-- Tasks that have entered a waiting list and have not given up the processor since. -/
  window : Finset τ
  /-- Locks held by the running task. -/
  locks : Finset μ

namespace Scheduler

variable {τ δ μ : Type*} [LinearOrder τ] [DecidableEq δ] [DecidableEq μ]
variable (v : Scheduler τ δ μ)

/-- The most urgent ready task, or the running one if none is ready. -/
def best : τ := if h : v.ready.Nonempty then v.ready.min' h else v.cur

/-- The tasks that wait for an event of one of the devices. -/
def woken (due : Finset δ) : Finset τ := due.biUnion fun d => (v.waits d).toFinset

/-- The events of the devices occur: their waiters become ready. -/
def drain (due : Finset δ) : Scheduler τ δ μ :=
  { v with
    ready := v.ready ∪ v.woken due
    waits := fun d => if d ∈ due then [] else v.waits d }

/-- A more urgent ready task takes the processor, unless a lock is held. -/
def preempt : Scheduler τ δ μ :=
  -- A task with a lock runs at the ceiling, which no ready task beats.
  if v.locks = ∅ ∧ v.best < v.cur then
    { v with cur := v.best, ready := insert v.cur (v.ready.erase v.best) }
  else v

/-- A timer interrupt at which the listed devices have an event. -/
def tick (due : Finset δ) : Scheduler τ δ μ :=
  if (v.woken due).Nonempty then (v.drain due).preempt else v.drain due

/-- First half of a wait: enter the waiting list of the device. -/
def wait (d : δ) : Scheduler τ δ μ :=
  { v with
    waits := Function.update v.waits d (v.cur :: v.waits d)
    window := insert v.cur v.window }

/-- Second half of a wait: give up the processor. -/
def sleep : Scheduler τ δ μ :=
  { v with cur := v.best, ready := v.ready.erase v.best, window := v.window.erase v.cur }

def lock (m : μ) : Scheduler τ δ μ := { v with locks := insert m v.locks }

def unlock (m : μ) : Scheduler τ δ μ := { v with locks := v.locks.erase m }

/-- Where the tasks of `live` can be, except for which task is the most urgent one. -/
structure Core (live : Finset τ) (idle : τ) : Prop where
  cur_live : v.cur ∈ live
  ready_live : v.ready ⊆ live
  waits_live : ∀ d, ∀ t ∈ v.waits d, t ∈ live
  /-- A task waits for one device at most. -/
  disjoint : ∀ d d' t, t ∈ v.waits d → t ∈ v.waits d' → d = d'
  /-- A waiting task outside the window is asleep. -/
  asleep : ∀ d, ∀ t ∈ v.waits d, t ∉ v.window → t ≠ v.cur ∧ t ∉ v.ready
  /-- A running task outside the window is not ready as well. -/
  running : v.cur ∉ v.window → v.cur ∉ v.ready
  /-- A task in the window has not slept: it is running, or was preempted. -/
  inside : ∀ t ∈ v.window, t = v.cur ∨ t ∈ v.ready
  /-- A running task that is ready as well was woken in the window. -/
  awake : v.cur ∈ v.window → v.cur ∈ v.ready → ∀ d, v.cur ∉ v.waits d
  idle_window : idle ∉ v.window
  idle_present : idle = v.cur ∨ idle ∈ v.ready
  window_locks : v.cur ∈ v.window → v.locks = ∅

/-- The invariant of all runs. -/
structure Inv (live : Finset τ) (idle : τ) : Prop extends Core v live idle where
  /-- A running task that was woken in the window is still the most urgent one. -/
  least : v.cur ∈ v.window → v.cur ∈ v.ready → ∀ u ∈ v.ready, v.cur ≤ u

/-- Every task is running, ready, or in a waiting list. -/
def Placed (live : Finset τ) : Prop :=
  ∀ t ∈ live, t = v.cur ∨ t ∈ v.ready ∨ ∃ d, t ∈ v.waits d

/-- A running task in user code that holds no lock is at least as urgent as every
ready task. -/
def Ordered : Prop :=
  v.cur ∉ v.window → v.locks = ∅ → ∀ u ∈ v.ready, v.cur ≤ u

variable {v} {live : Finset τ} {idle t : τ} {due : Finset δ}

@[simp] theorem mem_woken {t : τ} : t ∈ v.woken due ↔ ∃ d ∈ due, t ∈ v.waits d := by
  simp [woken]

theorem isLeast_best (nonempty : v.ready.Nonempty) : IsLeast (v.ready : Set τ) v.best := by
  simp only [best, dif_pos nonempty]
  exact v.ready.isLeast_min' nonempty

theorem best_mem (nonempty : v.ready.Nonempty) : v.best ∈ v.ready :=
  (isLeast_best nonempty).1

theorem best_le {u : τ} (ready : u ∈ v.ready) : v.best ≤ u :=
  (isLeast_best ⟨u, ready⟩).2 ready

/-- A best task other than the running one is ready. -/
theorem best_mem_of_ne (different : v.best ≠ v.cur) : v.best ∈ v.ready := by
  apply best_mem
  by_contra empty
  simp [best, empty] at different

/-- Draining twice is draining once. -/
theorem drain_drain (due' : Finset δ) : (v.drain due).drain due' = v.drain (due ∪ due') := by
  have ready : v.ready ∪ v.woken due ∪ (v.drain due).woken due' =
      v.ready ∪ v.woken (due ∪ due') := by
    ext t
    simp only [drain, Finset.mem_union, mem_woken]
    constructor
    · rintro ((h | ⟨d, hd, ht⟩) | ⟨d, hd, ht⟩)
      · exact Or.inl h
      · exact Or.inr ⟨d, Or.inl hd, ht⟩
      · split at ht
        · simp at ht
        · exact Or.inr ⟨d, Or.inr hd, ht⟩
    · rintro (h | ⟨d, hd, ht⟩)
      · exact Or.inl (Or.inl h)
      · by_cases first : d ∈ due
        · exact Or.inl (Or.inr ⟨d, first, ht⟩)
        · exact Or.inr ⟨d, hd.resolve_left first, by simpa [first] using ht⟩
  have waits : ((v.drain due).drain due').waits = (v.drain (due ∪ due')).waits := by
    funext d
    simp only [drain, Finset.mem_union]
    by_cases first : d ∈ due <;> by_cases second : d ∈ due' <;> simp [first, second]
  unfold drain at ready waits ⊢
  simp only [mk.injEq, true_and, and_true]
  exact ⟨ready, waits⟩

/-- A task is woken by two rounds when either wakes it. -/
theorem woken_union_nonempty (due' : Finset δ) :
    (v.woken (due ∪ due')).Nonempty ↔
      (v.woken due).Nonempty ∨ ((v.drain due).woken due').Nonempty := by
  simp only [Finset.Nonempty, mem_woken, Finset.mem_union, drain]
  constructor
  · rintro ⟨t, d, hd, ht⟩
    by_cases first : d ∈ due
    · exact Or.inl ⟨t, d, first, ht⟩
    · exact Or.inr ⟨t, d, hd.resolve_left first, by simpa [first] using ht⟩
  · rintro (⟨t, d, hd, ht⟩ | ⟨t, d, hd, ht⟩)
    · exact ⟨t, d, Or.inl hd, ht⟩
    · split at ht
      · simp at ht
      · exact ⟨t, d, Or.inr hd, ht⟩

@[simp] theorem woken_empty : v.woken (∅ : Finset δ) = ∅ := by simp [woken]

@[simp] theorem drain_empty : v.drain (∅ : Finset δ) = v := by simp [drain]

@[simp] theorem tick_window : (v.tick due).window = v.window := by
  unfold tick preempt drain
  split
  · split <;> rfl
  · rfl

@[simp] theorem tick_locks : (v.tick due).locks = v.locks := by
  unfold tick preempt drain
  split
  · split <;> rfl
  · rfl

@[simp] theorem tick_waits (d : δ) :
    (v.tick due).waits d = if d ∈ due then [] else v.waits d := by
  unfold tick preempt drain
  split
  · split <;> rfl
  · rfl

/-! ### The tasks that do not wait -/

/-- The running task and the ready ones. -/
def active : Finset τ := insert v.cur v.ready

theorem mem_active {t : τ} : t ∈ v.active ↔ t = v.cur ∨ t ∈ v.ready := Finset.mem_insert

/-- A preemption is an exchange. -/
theorem active_preempt : v.preempt.active = v.active := by
  by_cases switch : v.locks = ∅ ∧ v.best < v.cur
  · have ready := best_mem_of_ne (ne_of_lt switch.2)
    rw [preempt, if_pos switch, active, active, Finset.insert_comm, Finset.insert_erase ready]
  · rw [preempt, if_neg switch]

theorem active_tick : (v.tick due).active = v.active ∪ v.woken due := by
  have drained : (v.drain due).active = v.active ∪ v.woken due := by
    rw [active, active, drain, Finset.insert_union]
  by_cases some_woken : (v.woken due).Nonempty
  · rw [tick, if_pos some_woken, active_preempt, drained]
  · rw [tick, if_neg some_woken, drained]

/-- A running task that gives up the processor, and is not ready, is not active any more. -/
theorem active_sleep (nonempty : v.ready.Nonempty) (unready : v.cur ∉ v.ready) :
    v.sleep.active = v.active.erase v.cur := by
  rw [active, active, sleep, Finset.insert_erase (best_mem nonempty),
    Finset.erase_insert unready]

/-! ### The steps keep the invariant -/

theorem Core.drain (core : v.Core live idle) : (v.drain due).Core live idle where
  cur_live := core.cur_live
  ready_live := by
    apply Finset.union_subset core.ready_live
    intro t member
    obtain ⟨d, -, ht⟩ := mem_woken.mp member
    exact core.waits_live d t ht
  waits_live := by
    intro d t ht
    simp only [Scheduler.drain] at ht
    split at ht
    · simp at ht
    · exact core.waits_live d t ht
  disjoint := by
    intro d d' t ht ht'
    simp only [Scheduler.drain] at ht ht'
    split at ht
    · simp at ht
    · split at ht'
      · simp at ht'
      · exact core.disjoint d d' t ht ht'
  asleep := by
    intro d t ht outside
    simp only [Scheduler.drain] at ht
    split at ht
    · simp at ht
    · rename_i notDue
      obtain ⟨different, unready⟩ := core.asleep d t ht outside
      refine ⟨different, fun ready => ?_⟩
      rcases Finset.mem_union.mp ready with old | new
      · exact unready old
      · obtain ⟨d', hd', ht'⟩ := mem_woken.mp new
        exact notDue (core.disjoint d d' t ht ht' ▸ hd')
  running := by
    intro outside ready
    rcases Finset.mem_union.mp ready with old | new
    · exact core.running outside old
    · obtain ⟨d, -, ht⟩ := mem_woken.mp new
      exact (core.asleep d v.cur ht outside).1 rfl
  inside := by
    intro t ht
    exact (core.inside t ht).imp_right (Finset.mem_union_left _)
  awake := by
    intro window ready d ht
    simp only [Scheduler.drain] at ht
    split at ht
    · simp at ht
    · rename_i notDue
      rcases Finset.mem_union.mp ready with old | new
      · exact core.awake window old d ht
      · obtain ⟨d', hd', ht'⟩ := mem_woken.mp new
        exact notDue (core.disjoint d d' v.cur ht ht' ▸ hd')
  idle_window := core.idle_window
  idle_present := core.idle_present.imp_right (Finset.mem_union_left _)
  window_locks := core.window_locks

/-- A preemption restores the order a draining may have broken. -/
theorem Core.preempt (core : v.Core live idle) : v.preempt.Inv live idle := by
  unfold Scheduler.preempt
  split
  · rename_i switch
    obtain ⟨unlocked, better⟩ := switch
    have ready := best_mem_of_ne (ne_of_lt better)
    have requeued : v.best ∉ insert v.cur (v.ready.erase v.best) := by
      simp [ne_of_lt better]
    exact
      { cur_live := core.ready_live ready
        ready_live := by
          apply Finset.insert_subset core.cur_live
          exact (Finset.erase_subset _ _).trans core.ready_live
        waits_live := core.waits_live
        disjoint := core.disjoint
        asleep := by
          intro d t ht outside
          obtain ⟨different, unready⟩ := core.asleep d t ht outside
          refine ⟨fun same => unready (same ▸ ready), ?_⟩
          simp [different, unready]
        running := fun _ => requeued
        inside := by
          intro t ht
          by_cases same : t = v.best
          · exact Or.inl same
          · exact Or.inr (by simpa [same] using core.inside t ht)
        awake := fun _ twice => absurd twice requeued
        idle_window := core.idle_window
        idle_present := by
          by_cases same : idle = v.best
          · exact Or.inl same
          · exact Or.inr (by simpa [same] using core.idle_present)
        window_locks := fun _ => unlocked
        least := fun _ twice => absurd twice requeued }
  · -- No switch. A running task in the window holds no lock, so it is urgent enough.
    rename_i stay
    refine { core with least := fun window ready u hu => ?_ }
    have notBetter : ¬ v.best < v.cur := fun better => stay ⟨core.window_locks window, better⟩
    exact (le_of_not_gt notBetter).trans (best_le hu)

theorem ready_eq_of_not_nonempty (none_woken : ¬ (v.woken due).Nonempty) :
    v.ready ∪ v.woken due = v.ready := by
  rw [Finset.not_nonempty_iff_eq_empty.mp none_woken, Finset.union_empty]

theorem Inv.tick (inv : v.Inv live idle) : (v.tick due).Inv live idle := by
  unfold Scheduler.tick
  split
  · -- A woken task may be more urgent, so the preemption has to restore the order.
    exact inv.toCore.drain.preempt
  · rename_i none_woken
    refine { inv.toCore.drain with least := fun window ready u hu => ?_ }
    simp only [Scheduler.drain, ready_eq_of_not_nonempty none_woken] at ready hu
    exact inv.least window ready u hu

theorem Inv.wait (inv : v.Inv live idle) (outside : v.cur ∉ v.window) (active : v.cur ≠ idle)
    (unlocked : v.locks = ∅) (d : δ) : (v.wait d).Inv live idle := by
  have absent (d' : δ) : v.cur ∉ v.waits d' := fun ht => (inv.asleep d' v.cur ht outside).1 rfl
  have split (d' : δ) (t : τ) (ht : t ∈ (v.wait d).waits d') :
      t = v.cur ∧ d' = d ∨ t ∈ v.waits d' := by
    by_cases same : d' = d
    · subst same
      simpa [Scheduler.wait] using ht
    · exact Or.inr (by simpa [Scheduler.wait, same] using ht)
  exact
    { cur_live := inv.cur_live
      ready_live := inv.ready_live
      waits_live := by
        intro d' t ht
        rcases split d' t ht with ⟨rfl, -⟩ | old
        · exact inv.cur_live
        · exact inv.waits_live d' t old
      disjoint := by
        intro d₁ d₂ t h₁ h₂
        rcases split d₁ t h₁ with ⟨rfl, same₁⟩ | old₁
        · rcases split d₂ _ h₂ with ⟨-, same₂⟩ | old₂
          · rw [same₁, same₂]
          · exact absurd old₂ (absent d₂)
        · rcases split d₂ t h₂ with ⟨rfl, -⟩ | old₂
          · exact absurd old₁ (absent d₁)
          · exact inv.disjoint d₁ d₂ t old₁ old₂
      asleep := by
        intro d' t ht outside'
        have different : t ≠ v.cur := by
          rintro rfl
          exact outside' (Finset.mem_insert_self _ _)
        have old := (split d' t ht).resolve_left (fun h => different h.1)
        exact inv.asleep d' t old (fun h => outside' (Finset.mem_insert_of_mem h))
      running := fun outside' => absurd (Finset.mem_insert_self _ _) outside'
      inside := by
        intro t ht
        rcases Finset.mem_insert.mp ht with rfl | old
        · exact Or.inl rfl
        · exact inv.inside t old
      awake := fun _ ready => absurd ready (inv.running outside)
      idle_window := by
        intro h
        rcases Finset.mem_insert.mp h with same | old
        · exact active same.symm
        · exact inv.idle_window old
      idle_present := inv.idle_present
      window_locks := fun _ => unlocked
      least := fun _ ready => absurd ready (inv.running outside) }

/-- A task in the window is not the idle task, which is therefore ready. -/
theorem Core.idle_ready (core : v.Core live idle) (window : v.cur ∈ v.window) :
    idle ∈ v.ready := by
  apply core.idle_present.resolve_left
  rintro rfl
  exact core.idle_window window

theorem Inv.sleep (inv : v.Inv live idle) (window : v.cur ∈ v.window) :
    v.sleep.Inv live idle := by
  have ready := best_mem ⟨idle, inv.idle_ready window⟩
  have dequeued : v.best ∉ v.ready.erase v.best := Finset.notMem_erase _ _
  -- A running task that is ready is the best one: it switches to itself.
  have self : v.cur ∈ v.ready → v.best = v.cur := fun twice =>
    le_antisymm (best_le twice) (inv.least window twice _ ready)
  exact
    { cur_live := inv.ready_live ready
      ready_live := (Finset.erase_subset _ _).trans inv.ready_live
      waits_live := inv.waits_live
      disjoint := inv.disjoint
      asleep := by
        intro d t ht outside
        by_cases same : t = v.cur
        · subst same
          have unready : v.cur ∉ v.ready := fun twice => inv.awake window twice d ht
          refine ⟨?_, fun h => unready (Finset.mem_of_mem_erase h)⟩
          rintro swapped
          exact unready (by rw [swapped]; exact ready)
        · have outside' : t ∉ v.window := fun h => outside (Finset.mem_erase.mpr ⟨same, h⟩)
          obtain ⟨-, unready⟩ := inv.asleep d t ht outside'
          exact ⟨fun swapped => unready (swapped ▸ ready),
            fun h => unready (Finset.mem_of_mem_erase h)⟩
      running := fun _ => dequeued
      inside := by
        intro t ht
        obtain ⟨different, old⟩ := Finset.mem_erase.mp ht
        have queued := (inv.inside t old).resolve_left different
        by_cases same : t = v.best
        · exact Or.inl same
        · exact Or.inr (Finset.mem_erase.mpr ⟨same, queued⟩)
      awake := fun _ twice => absurd twice dequeued
      idle_window := fun h => inv.idle_window (Finset.mem_of_mem_erase h)
      idle_present := by
        by_cases same : idle = v.best
        · exact Or.inl same
        · exact Or.inr (Finset.mem_erase.mpr ⟨same, inv.idle_ready window⟩)
      window_locks := fun _ => inv.window_locks window
      least := fun _ twice => absurd twice dequeued }

theorem Inv.lock (inv : v.Inv live idle) (outside : v.cur ∉ v.window) (m : μ) :
    (v.lock m).Inv live idle :=
  { inv with window_locks := fun window => absurd window outside }

theorem Inv.unlock (inv : v.Inv live idle) (outside : v.cur ∉ v.window) (m : μ) :
    (v.unlock m).Inv live idle :=
  { inv with window_locks := fun window => absurd window outside }

/-! ### Where the tasks are -/

theorem Placed.drain (placed : v.Placed live) : (v.drain due).Placed live := by
  intro t ht
  rcases placed t ht with h | h | ⟨d, h⟩
  · exact Or.inl h
  · exact Or.inr (Or.inl (Finset.mem_union_left _ h))
  · by_cases hd : d ∈ due
    · exact Or.inr (Or.inl (Finset.mem_union_right _ (mem_woken.mpr ⟨d, hd, h⟩)))
    · exact Or.inr (Or.inr ⟨d, by simpa [Scheduler.drain, hd] using h⟩)

theorem Placed.preempt (placed : v.Placed live) : v.preempt.Placed live := by
  unfold Scheduler.preempt
  split
  · intro t ht
    by_cases same : t = v.best
    · exact Or.inl same
    · rcases placed t ht with rfl | h | h
      · exact Or.inr (Or.inl (Finset.mem_insert_self _ _))
      · exact Or.inr (Or.inl (Finset.mem_insert_of_mem (Finset.mem_erase.mpr ⟨same, h⟩)))
      · exact Or.inr (Or.inr h)
  · exact placed

theorem Placed.tick (placed : v.Placed live) : (v.tick due).Placed live := by
  unfold Scheduler.tick
  split
  · exact placed.drain.preempt
  · exact placed.drain

theorem Placed.wait (placed : v.Placed live) (d : δ) : (v.wait d).Placed live := by
  intro t ht
  rcases placed t ht with h | h | ⟨d', h⟩
  · exact Or.inl h
  · exact Or.inr (Or.inl h)
  · refine Or.inr (Or.inr ⟨d', ?_⟩)
    by_cases same : d' = d
    · subst same
      simp [Scheduler.wait, h]
    · simpa [Scheduler.wait, same] using h

/-- Giving up the processor keeps every task placed exactly when the running task is
still ready or waiting. -/
theorem Inv.placed_sleep_iff (inv : v.Inv live idle) (window : v.cur ∈ v.window)
    (placed : v.Placed live) :
    v.sleep.Placed live ↔ v.cur ∈ v.ready ∨ ∃ d, v.cur ∈ v.waits d := by
  constructor
  · intro after
    rcases after v.cur inv.cur_live with h | h | h
    · have nonempty : v.ready.Nonempty := ⟨idle, inv.idle_ready window⟩
      exact Or.inl (h ▸ best_mem nonempty)
    · exact Or.inl (Finset.mem_of_mem_erase h)
    · exact Or.inr h
  · intro kept t ht
    by_cases same : t = v.best
    · exact Or.inl same
    · have stays : t ∈ v.ready ∨ ∃ d, t ∈ v.waits d := by
        rcases placed t ht with rfl | h | h
        · exact kept
        · exact Or.inl h
        · exact Or.inr h
      exact Or.inr (stays.imp_left fun h => Finset.mem_erase.mpr ⟨same, h⟩)

/-! ### Which task runs -/

theorem ordered_preempt : v.preempt.Ordered := by
  unfold Scheduler.preempt
  split
  · rename_i switch
    intro _ _ u hu
    rcases Finset.mem_insert.mp hu with rfl | old
    · exact switch.2.le
    · exact best_le (Finset.mem_of_mem_erase old)
  · rename_i stay
    intro _ unlocked u hu
    exact (le_of_not_gt fun better => stay ⟨unlocked, better⟩).trans (best_le hu)

theorem Ordered.tick (ordered : v.Ordered) : (v.tick due).Ordered := by
  unfold Scheduler.tick
  split
  · exact ordered_preempt
  · rename_i none_woken
    intro outside unlocked u hu
    simp only [Scheduler.drain, ready_eq_of_not_nonempty none_woken] at hu
    exact ordered outside unlocked u hu

theorem ordered_wait (d : δ) : (v.wait d).Ordered :=
  fun outside => absurd (Finset.mem_insert_self _ _) outside

theorem ordered_sleep : v.sleep.Ordered :=
  fun _ _ _ hu => best_le (Finset.mem_of_mem_erase hu)

theorem ordered_lock (m : μ) : (v.lock m).Ordered := by
  intro _ unlocked
  exact absurd unlocked (Finset.insert_ne_empty _ _)

/-- Releasing a lock keeps the order exactly when another lock is still held or no
ready task is more urgent. -/
theorem ordered_unlock_iff (outside : v.cur ∉ v.window) (m : μ) :
    (v.unlock m).Ordered ↔ (v.locks.erase m = ∅ → ∀ u ∈ v.ready, v.cur ≤ u) :=
  ⟨fun ordered => ordered outside, fun kept _ => kept⟩

end Scheduler

end Gravel.Library
