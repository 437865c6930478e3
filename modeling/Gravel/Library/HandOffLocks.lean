import Mathlib.Data.Fintype.Card
import Mathlib.Data.List.Nodup
import Mathlib.Logic.Function.Basic

/-!
# Locks that are handed to the oldest waiter

Tasks take and release locks. A task that asks for a lock somebody owns waits in the queue
of the lock. A release gives the lock to the first task of the queue at once; that task
owns it before its own call has returned, and returns when it runs again. Nothing is
assumed about the order in which tasks run.

## Main definitions

* `Locks` — owner and queue of every lock, and where every task stands
* `Locks.Allowed`, `Locks.act` — the moves
* `Locks.Ok` — the invariant
* `Locks.Holds` — a task owns a lock, and its call has returned

## Main results

* `Locks.Ok.act` — every move keeps the invariant
* `Locks.Ok.holds_take`, `Locks.Ok.holds_release`, `Locks.Ok.holds_resume` — who holds which
  lock after a move
* `Locks.Ok.heldCount_act` — how many locks a task holds after a move
* `Locks.Ok.ordered_act` — the queues stay in the order of the calls
-/

namespace Gravel.Library

variable {T L : Type*} [DecidableEq T] [DecidableEq L]

/-- Where a task stands. -/
inductive Stage (L : Type*)
  | user
  /-- In the queue of a lock. -/
  | waiting (m : L)
  /-- Given the lock, and still inside the call that asked for it. -/
  | woken (m : L)
  deriving DecidableEq

structure Locks (T L : Type*) where
  owner : L → Option T
  queue : L → List T
  stage : T → Stage L

inductive LockMove (T L : Type*)
  | take (t : T) (m : L)
  | wait (t : T) (m : L)
  | release (t : T) (m : L)
  | resume (t : T) (m : L)

namespace LockMove

/-- The task that moves. -/
def actor : LockMove T L → T
  | take t _ | wait t _ | release t _ | resume t _ => t

end LockMove

namespace Locks

variable {s : Locks T L} {t u : T} {m k : L} {e : LockMove T L}

/-- When a move can be made. -/
def Allowed (s : Locks T L) : LockMove T L → Prop
  | .take t m => s.stage t = .user ∧ s.owner m = none
  | .wait t m => s.stage t = .user ∧ s.owner m ≠ none ∧ s.owner m ≠ some t
  | .release t m => s.stage t = .user ∧ s.owner m = some t
  | .resume t m => s.stage t = .woken m

/-- The task becomes the owner. -/
def own (s : Locks T L) (t : T) (m : L) : Locks T L :=
  { s with owner := Function.update s.owner m (some t) }

def act (s : Locks T L) : LockMove T L → Locks T L
  | .take t m => s.own t m
  | .wait t m =>
    { s with
      queue := Function.update s.queue m (s.queue m ++ [t])
      stage := Function.update s.stage t (.waiting m) }
  | .release _ m =>
    match s.queue m with
    | [] => { s with owner := Function.update s.owner m none }
    | a :: r =>
      { owner := Function.update s.owner m (some a)
        queue := Function.update s.queue m r
        stage := Function.update s.stage a (.woken m) }
  | .resume t m => { s.own t m with stage := Function.update s.stage t .user }

/-- A free lock has no waiters, the queues list the waiting tasks, each once, and a woken task
owns the lock it is woken for. -/
structure Ok (s : Locks T L) : Prop where
  idle : ∀ m, s.owner m = none → s.queue m = []
  mem_queue : ∀ t m, t ∈ s.queue m ↔ s.stage t = .waiting m
  nodup : ∀ m, (s.queue m).Nodup
  woken : ∀ t m, s.stage t = .woken m → s.owner m = some t

/-- The task owns the lock, and its call has returned. -/
def Holds (s : Locks T L) (t : T) (m : L) : Prop := s.owner m = some t ∧ s.stage t ≠ .woken m

instance : Decidable (s.Holds t m) := inferInstanceAs (Decidable (_ ∧ _))

/-! ### The moves on one lock and one task -/

/-- A release without waiters. -/
theorem act_release_of_nil (empty : s.queue m = []) :
    s.act (.release t m) = { s with owner := Function.update s.owner m none } := by
  simp only [act, empty]

/-- A release to the oldest waiter. -/
theorem act_release_of_cons {a : T} {r : List T} (waiters : s.queue m = a :: r) :
    s.act (.release t m) =
      { owner := Function.update s.owner m (some a)
        queue := Function.update s.queue m r
        stage := Function.update s.stage a (.woken m) } := by
  simp only [act, waiters]

theorem owner_release :
    (s.act (.release t m)).owner = Function.update s.owner m (s.queue m).head? := by
  cases waiters : s.queue m with
  | nil => simp [act_release_of_nil waiters]
  | cons a r => simp [act_release_of_cons waiters]

theorem queue_release :
    (s.act (.release t m)).queue = Function.update s.queue m (s.queue m).tail := by
  cases waiters : s.queue m with
  | nil =>
    rw [act_release_of_nil waiters, List.tail_nil, eq_comm, Function.update_eq_self_iff]
    exact waiters.symm
  | cons a r => simp [act_release_of_cons waiters]

theorem stage_release (u : T) : (s.act (.release t m)).stage u =
    if (s.queue m).head? = some u then .woken m else s.stage u := by
  cases waiters : s.queue m with
  | nil => simp [act_release_of_nil waiters]
  | cons a r =>
    by_cases same : u = a
    · simp [act_release_of_cons waiters, same]
    · simp [act_release_of_cons waiters, same, Ne.symm same]

namespace Ok

omit [DecidableEq T] [DecidableEq L] in
/-- A task waits in one queue at most. -/
theorem disjoint (ok : s.Ok) (different : m ≠ k) (queued : t ∈ s.queue m) : t ∉ s.queue k := by
  intro also
  rw [ok.mem_queue] at queued also
  exact different (Stage.waiting.inj (queued.symm.trans also))

theorem act_take (ok : s.Ok) (allowed : s.Allowed (.take t m)) : (s.act (.take t m)).Ok where
  idle k free := by
    by_cases same : k = m
    · subst same
      simp [Locks.act, own] at free
    · exact ok.idle k (by simpa [Locks.act, own, same] using free)
  mem_queue := ok.mem_queue
  nodup := ok.nodup
  woken u k woken := by
    have owned := ok.woken u k woken
    by_cases same : k = m
    · subst same
      simp [allowed.2] at owned
    · simpa [Locks.act, own, same] using owned

theorem act_wait (ok : s.Ok) (allowed : s.Allowed (.wait t m)) : (s.act (.wait t m)).Ok where
  idle k free := by
    by_cases same : k = m
    · subst same
      exact absurd free allowed.2.1
    · simpa [Locks.act, same] using ok.idle k free
  mem_queue u k := by
    have queued := ok.mem_queue u k
    by_cases sameTask : u = t
    · subst sameTask
      rw [allowed.1] at queued
      by_cases same : k = m
      · subst same
        simp [Locks.act]
      · simpa [Locks.act, same, Ne.symm same] using queued
    · by_cases same : k = m
      · subst same
        simpa [Locks.act, sameTask] using queued
      · simpa [Locks.act, same, sameTask] using queued
  nodup k := by
    by_cases same : k = m
    · subst same
      have fresh : t ∉ s.queue k := by
        rw [ok.mem_queue, allowed.1]
        simp
      simpa [Locks.act, List.nodup_append] using
        ⟨ok.nodup k, fun u member same => fresh (same ▸ member)⟩
    · simpa [Locks.act, same] using ok.nodup k
  woken u k woken := by
    by_cases sameTask : u = t
    · subst sameTask
      simp [Locks.act] at woken
    · exact ok.woken u k (by simpa [Locks.act, sameTask] using woken)

theorem act_release (ok : s.Ok) (allowed : s.Allowed (.release t m)) :
    (s.act (.release t m)).Ok := by
  cases waiters : s.queue m with
  | nil =>
    rw [act_release_of_nil waiters]
    refine ⟨fun k free => ?_, ok.mem_queue, ok.nodup, fun u k woken => ?_⟩
    · by_cases same : k = m
      · exact same ▸ waiters
      · exact ok.idle k (by simpa [same] using free)
    · have owned := ok.woken u k woken
      -- The lock released was owned by a task in user code, so nobody was woken for it.
      have different : k ≠ m := by
        rintro rfl
        obtain rfl := Option.some.inj (owned.symm.trans allowed.2)
        simp [allowed.1] at woken
      simpa [different] using owned
  | cons a r =>
    rw [act_release_of_cons waiters]
    have first : s.stage a = .waiting m := (ok.mem_queue a m).mp (by simp [waiters])
    have once : a ∉ r ∧ r.Nodup := List.nodup_cons.mp (waiters ▸ ok.nodup m)
    refine ⟨fun k free => ?_, fun u k => ?_, fun k => ?_, fun u k woken => ?_⟩
    · by_cases same : k = m
      · subst same
        simp at free
      · simpa [same] using ok.idle k (by simpa [same] using free)
    · have queued := ok.mem_queue u k
      by_cases sameTask : u = a
      · subst sameTask
        rw [first] at queued
        by_cases same : k = m
        · subst same
          simpa using once.1
        · simpa [same, Ne.symm same] using queued
      · by_cases same : k = m
        · subst same
          simpa [sameTask, waiters] using queued
        · simpa [same, sameTask] using queued
    · by_cases same : k = m
      · subst same
        simpa using once.2
      · simpa [same] using ok.nodup k
    · by_cases sameTask : u = a
      · subst sameTask
        obtain rfl : m = k := by simpa using woken
        simp
      · have owned := ok.woken u k (by simpa [sameTask] using woken)
        have different : k ≠ m := by
          rintro rfl
          obtain rfl := Option.some.inj (owned.symm.trans allowed.2)
          simp [sameTask, allowed.1] at woken
        simpa [different] using owned

theorem act_resume (ok : s.Ok) (allowed : s.Allowed (.resume t m)) :
    (s.act (.resume t m)).Ok := by
  -- The lock was handed over by the release: taking it again changes no owner.
  have owned : s.owner m = some t := ok.woken t m allowed
  have same : s.act (.resume t m) = { s with stage := Function.update s.stage t .user } := by
    simp [Locks.act, own, ← owned]
  rw [same]
  refine ⟨ok.idle, fun u k => ?_, ok.nodup, fun u k woken => ?_⟩
  · have queued := ok.mem_queue u k
    by_cases sameTask : u = t
    · subst sameTask
      have stage : s.stage u = .woken m := allowed
      simpa [stage] using queued
    · simpa [sameTask] using queued
  · by_cases sameTask : u = t
    · subst sameTask
      simp at woken
    · exact ok.woken u k (by simpa [sameTask] using woken)

/-- Every move keeps the invariant. -/
theorem act (ok : s.Ok) (allowed : s.Allowed e) : (s.act e).Ok := by
  cases e with
  | take t m => exact ok.act_take allowed
  | wait t m => exact ok.act_wait allowed
  | release t m => exact ok.act_release allowed
  | resume t m => exact ok.act_resume allowed

/-! ### Who holds what after a move -/

/-- A task that takes a free lock, or resumes with the lock it was given, did not hold it and
does now. -/
theorem holds_take (allowed : s.Allowed (.take t m)) :
    ¬ s.Holds t m ∧ ∀ u k, (s.act (.take t m)).Holds u k ↔ (u = t ∧ k = m) ∨ s.Holds u k := by
  refine ⟨fun holds => by simp [Holds, allowed.2] at holds, fun u k => ?_⟩
  by_cases same : k = m
  · subst same
    have running : u = t → s.stage u ≠ .woken k := by
      rintro rfl
      simp [allowed.1]
    simp only [Holds, Locks.act, own, Function.update_self, Option.some.injEq, allowed.2]
    grind
  · simp [Holds, Locks.act, own, same]

theorem holds_resume (ok : s.Ok) (allowed : s.Allowed (.resume t m)) :
    ¬ s.Holds t m ∧ ∀ u k, (s.act (.resume t m)).Holds u k ↔ (u = t ∧ k = m) ∨ s.Holds u k := by
  have stage : s.stage t = .woken m := allowed
  have owned : s.owner m = some t := ok.woken t m stage
  refine ⟨fun holds => holds.2 stage, fun u k => ?_⟩
  by_cases sameTask : u = t
  · subst sameTask
    by_cases same : k = m
    · subst same
      simp [Holds, Locks.act, own]
    · simp [Holds, Locks.act, own, stage, same, Ne.symm same]
  · by_cases same : k = m
    · subst same
      simp [Holds, Locks.act, own, owned, sameTask, Ne.symm sameTask]
    · simp [Holds, Locks.act, own, same, sameTask]

theorem holds_wait (allowed : s.Allowed (.wait t m)) (u : T) (k : L) :
    (s.act (.wait t m)).Holds u k ↔ s.Holds u k := by
  by_cases sameTask : u = t
  · subst sameTask
    simp [Holds, Locks.act, allowed.1]
  · simp [Holds, Locks.act, sameTask]

theorem holds_release (ok : s.Ok) (allowed : s.Allowed (.release t m)) :
    s.Holds t m ∧
      ∀ u k, (s.act (.release t m)).Holds u k ↔ ¬ (u = t ∧ k = m) ∧ s.Holds u k := by
  refine ⟨⟨allowed.2, by simp [allowed.1]⟩, fun u k => ?_⟩
  have only (owned : s.owner m = some u) : u = t :=
    Option.some.inj (owned.symm.trans allowed.2)
  cases waiters : s.queue m with
  | nil =>
    rw [act_release_of_nil waiters]
    by_cases same : k = m
    · subst same
      simp only [Holds, Function.update_self]
      grind
    · simp [Holds, same]
  | cons a r =>
    rw [act_release_of_cons waiters]
    have first : s.stage a = .waiting m := (ok.mem_queue a m).mp (by simp [waiters])
    by_cases same : k = m
    · subst same
      simp only [Holds, Function.update_self, Option.some.injEq]
      grind
    · by_cases sameTask : u = a
      · subst sameTask
        simp [Holds, same, Ne.symm same, first]
      · simp [Holds, same, sameTask]

end Ok

/-- What a move adds to the number of locks its task holds. -/
def gain : LockMove T L → ℤ
  | .take _ _ | .resume _ _ => 1
  | .wait _ _ => 0
  | .release _ _ => -1

/-- How many locks a task holds. -/
def heldCount [Fintype L] (s : Locks T L) (t : T) : ℕ :=
  (Finset.univ.filter fun m => s.Holds t m).card

section Count

variable [Fintype L] {s' : Locks T L}

theorem heldCount_of_gain (fresh : ¬ s.Holds t m)
    (after : ∀ u k, s'.Holds u k ↔ (u = t ∧ k = m) ∨ s.Holds u k) (u : T) :
    (s'.heldCount u : ℤ) = s.heldCount u + if u = t then 1 else 0 := by
  simp only [heldCount, after]
  split
  · rename_i same
    subst same
    have insert : (Finset.univ.filter fun k => (u = u ∧ k = m) ∨ s.Holds u k) =
        insert m (Finset.univ.filter fun k => s.Holds u k) := by
      ext k
      simp
    rw [insert, Finset.card_insert_of_notMem (by simpa using fresh)]
    simp
  · rename_i other
    simp [other]

/-- A task's count changes by the gain of its own moves. -/
theorem Ok.heldCount_act (ok : s.Ok) (allowed : s.Allowed e) (u : T) :
    ((s.act e).heldCount u : ℤ) = s.heldCount u + if u = e.actor then gain e else 0 := by
  cases e with
  | take t m => exact heldCount_of_gain (holds_take allowed).1 (holds_take allowed).2 u
  | resume t m =>
    exact heldCount_of_gain (ok.holds_resume allowed).1 (ok.holds_resume allowed).2 u
  | wait t m =>
    simp [heldCount, holds_wait allowed, gain]
  | release t m =>
    obtain ⟨held, after⟩ := ok.holds_release allowed
    have back : (s.heldCount u : ℤ) =
        (s.act (.release t m)).heldCount u + if u = t then 1 else 0 :=
      heldCount_of_gain (m := m) (by simp [after]) (fun u k => by rw [after]; grind) u
    rw [back]
    change _ = _ + if u = t then -1 else 0
    by_cases same : u = t
    · rw [if_pos same, if_pos same]
      omega
    · rw [if_neg same, if_neg same]
      omega

end Count

/-! ### First come, first served -/

/-- Every queue is in the order of the times. -/
def Ordered (time : T → ℕ) (s : Locks T L) : Prop :=
  ∀ m, (s.queue m).Pairwise fun t u => time t < time u

omit [DecidableEq T] [DecidableEq L] in
/-- The times of a task that does not wait are irrelevant. -/
theorem Ok.ordered_congr {time time' : T → ℕ} (ok : s.Ok) (ordered : s.Ordered time)
    (away : ∀ m, s.stage t ≠ .waiting m) (others : ∀ u, u ≠ t → time' u = time u) :
    s.Ordered time' := by
  have outside (u : T) (m : L) (queued : u ∈ s.queue m) : u ≠ t := by
    rintro rfl
    exact away m ((ok.mem_queue u m).mp queued)
  refine fun m => (ordered m).imp_of_mem fun {u v} hu hv less => ?_
  rw [others u (outside u m hu), others v (outside v m hv)]
  exact less

omit [DecidableEq T] [DecidableEq L] in
/-- A task that can move does not wait. -/
theorem Allowed.not_waiting (allowed : s.Allowed e) (k : L) : s.stage e.actor ≠ .waiting k := by
  intro waiting
  cases e <;> simp only [Allowed, LockMove.actor] at allowed waiting <;>
    simp [waiting] at allowed

/-- The queues stay in the order of the calls, when only the moving task may have made a
call, and a task that starts to wait has just made one. -/
theorem Ok.ordered_act {time time' : T → ℕ} (ok : s.Ok) (allowed : s.Allowed e)
    (ordered : s.Ordered time) (others : ∀ u, u ≠ e.actor → time' u = time u)
    (latest : ∀ t m, e = .wait t m → ∀ u, u ≠ t → time' u < time' t) :
    (s.act e).Ordered time' := by
  -- The moving task is in no queue, so its new time disturbs no order.
  have kept : s.Ordered time' := ok.ordered_congr ordered allowed.not_waiting others
  cases e with
  | take t m => exact kept
  | resume t m => exact kept
  | wait t m =>
    intro k
    by_cases same : k = m
    · subst same
      simp only [Locks.act, Function.update_self, List.pairwise_append, List.pairwise_singleton,
        List.mem_singleton, true_and]
      refine ⟨kept k, fun u queued v last => ?_⟩
      subst last
      refine latest v k rfl u ?_
      rintro rfl
      exact allowed.not_waiting k ((ok.mem_queue u k).mp queued)
    · simpa [Locks.act, same] using kept k
  | release t m =>
    intro k
    cases waiters : s.queue m with
    | nil => exact act_release_of_nil (t := t) waiters ▸ kept k
    | cons a r =>
      rw [act_release_of_cons waiters]
      by_cases same : k = m
      · subst same
        have rest := kept k
        rw [waiters] at rest
        simpa using (List.pairwise_cons.mp rest).2
      · simpa [same] using kept k

end Locks

end Gravel.Library
