import Gravel.Locking.Layer

/-!
# Mutual exclusion and hand-off

In every state the mutex layer can reach, whatever the order in which tasks run, a mutex
has one owner at most, its sleep queue lists the blocked tasks in the order of their calls,
and the owner's `mutex_unlock` passes it to the first of them.

## Main definitions

* `lastLock` — when a task last called `mutex_lock`
* `PassesOn` — what a `mutex_unlock` by the owner does
* `HandsOff` — what holds in every reachable state

## Main results

* `handsOff_of_run`
-/

namespace Gravel

open Library

/-- The task that calls `mutex_lock`, if the step is such a call. -/
def LockEvent.locker : LockEvent → Option TcbPtr
  | lock t _ => some t
  | _ => none

/-- When a task last called `mutex_lock`, in steps of the run. -/
def lastLock (w : List LockLabel) (t : TcbPtr) : ℕ :=
  lastIndex (fun label => label.1.locker = some t) w

/-- The mutex goes to the first task of its sleep queue, which becomes runnable, and the
others stay where they are. -/
structure PassesOn (m : MutexPtr) (s s' : LockLayer) : Prop where
  owner : ∀ l, Chain s.kernel.link (s.kernel.gtMutex m).pSleepQueue l →
    (s'.kernel.gtMutex m).pHoldingTcb = l.head? ∧
      Chain s'.kernel.link (s'.kernel.gtMutex m).pSleepQueue l.tail
  woken : ∀ u, (s.kernel.gtMutex m).pSleepQueue = some u → s'.stage u = .woken m
  waiting : ∀ u, (s.kernel.gtMutex m).pSleepQueue ≠ some u → s'.stage u = s.stage u
  others : ∀ n l, n ≠ m → Chain s.kernel.link (s.kernel.gtMutex n).pSleepQueue l →
    (s'.kernel.gtMutex n).pHoldingTcb = (s.kernel.gtMutex n).pHoldingTcb ∧
      Chain s'.kernel.link (s'.kernel.gtMutex n).pSleepQueue l

/-- Mutual exclusion and first-come first-served hand-off, in the state a run has reached. -/
structure HandsOff (w : List LockLabel) (s : LockLayer) : Prop where
  exclusive : ∀ (m : MutexPtr) t u,
    HeldBy (returns w) (some t) m.val → HeldBy (returns w) (some u) m.val → t = u
  /-- The owner is the task that has taken the mutex and not released it, or the one the
  mutex was handed to and that has not run since. -/
  held_iff : ∀ (m : MutexPtr) t, HeldBy (returns w) (some t) m.val ↔
    (s.kernel.gtMutex m).pHoldingTcb = some t ∧ s.stage t ≠ .woken m
  unlocked_iff : ∀ m,
    (s.kernel.gtMutex m).bLock = false ↔ (s.kernel.gtMutex m).pHoldingTcb = none
  idle : ∀ m, (s.kernel.gtMutex m).pHoldingTcb = none →
    (s.kernel.gtMutex m).pSleepQueue = none
  waiters : ∀ m, ∃ l, Chain s.kernel.link (s.kernel.gtMutex m).pSleepQueue l ∧ l.Nodup ∧
    (∀ t, t ∈ l ↔ s.stage t = .waiting m) ∧ l.Pairwise fun t u => lastLock w t < lastLock w u
  disjoint : ∀ m n t, m ≠ n → Linked s.kernel.link (s.kernel.gtMutex m).pSleepQueue t →
    ¬ Linked s.kernel.link (s.kernel.gtMutex n).pSleepQueue t
  count : ∀ t, (s.kernel.systemTcb t).holdsLock = (Finset.univ.filter fun m =>
    (s.kernel.gtMutex m).pHoldingTcb = some t ∧ s.stage t ≠ .woken m).card
  passesOn : ∀ m t, s.stage t = .user → (s.kernel.gtMutex m).pHoldingTcb = some t →
    ∃ s', s.exec (.unlock t m.val) = .ok (s', some ⟨some t, .unlock m.val, 0⟩) ∧ PassesOn m s s'
  /-- No call faults, and no walk along a sleep queue runs on. -/
  total : ∀ e, s.Enabled e → ∃ s' r, s.exec e = .ok (s', r)

/-! ### The invariant -/

/-- The kernel stores locks whose queues are in the order of the calls, and the tasks hold
what the history says. -/
structure LockInv (w : List LockLabel) (v : Locks TcbPtr MutexPtr) (s : LockLayer) : Prop where
  ok : v.Ok
  models : s.Models v
  ordered : v.Ordered (lastLock w)
  held : ∀ t (m : MutexPtr), HeldBy (returns w) (some t) m.val ↔ v.Holds t m

variable {w : List LockLabel} {v : Locks TcbPtr MutexPtr} {s s' : LockLayer}
  {label : LockLabel} {t : TcbPtr} {m : MutexPtr}

theorem lockInv_start (start : s.Start) :
    LockInv [] { owner := fun _ => none, queue := fun _ => [], stage := s.stage } s where
  ok :=
    { idle := fun _ _ => rfl
      mem_queue := fun t m => by simp [start.stage]
      nodup := fun _ => List.nodup_nil
      woken := fun t m woken => by simp [start.stage] at woken }
  models :=
    { stage := rfl
      owner := fun m => (start.mutexes m).1
      locked := fun m => (start.mutexes m).2.1
      created := fun _ owned => by simp at owned
      waiters := fun m => (start.mutexes m).2.2
      count := fun t => by simp [start.tasks, Locks.heldCount, Locks.Holds] }
  ordered := fun _ => List.Pairwise.nil
  held t m := iff_of_false not_since_nil (by simp [Locks.Holds])

/-- A step changes the last call of its own task only. -/
theorem lastLock_snoc_of_ne {u : TcbPtr} (other : u ≠ label.1.actor) :
    lastLock (w ++ [label]) u = lastLock w u := by
  rw [lastLock, lastIndex_snoc, if_neg]
  · rfl
  · intro locks
    cases same : label.1 <;> simp [same, LockEvent.locker, LockEvent.actor] at locks other
    exact other locks.symm

/-- A call of `mutex_lock` is later than the last calls of all other tasks. -/
theorem lastLock_lt {u : TcbPtr} (locks : label.1.locker = some t) (other : u ≠ t) :
    lastLock (w ++ [label]) u < lastLock (w ++ [label]) t := by
  have actor : label.1.actor = t := by
    cases same : label.1 <;> simp [same, LockEvent.locker, LockEvent.actor] at locks ⊢
    exact locks
  have now : lastLock (w ++ [label]) t = w.length + 1 := by
    rw [lastLock, lastIndex_snoc, if_pos locks]
  rw [lastLock_snoc_of_ne (actor ▸ other), now]
  exact Nat.lt_succ_of_le lastIndex_le

/-- A task that makes a step is in no sleep queue. -/
theorem LockLayer.Enabled.not_waiting {e : LockEvent} (enabled : s.Enabled e) (m : MutexPtr) :
    s.stage e.actor ≠ .waiting m := by
  cases e with
  | resume t =>
    obtain ⟨n, woken⟩ := enabled
    simp [LockEvent.actor, woken]
  | create t | lock t mutex | unlock t mutex =>
    have running : s.stage t = .user := enabled
    simp [LockEvent.actor, running]

/-- A refused call changes nothing about who holds what. -/
theorem heldBy_refused {history : List Return} {x : Return} (refused : LockLayer.Refused x) :
    HeldBy (history ++ [x]) (some t) m.val ↔ HeldBy history (some t) m.val := by
  have neither (call : MutexCall) (about : call ≠ .create) : x ≠ ⟨some t, call, 0⟩ := by
    rintro rfl
    rcases refused with create | negative
    · exact about create
    · simp at negative
  rw [heldBy_snoc]
  simp [neither]

/-- A move changes the history as it changes who holds what. -/
theorem heldBy_move {move : LockMove TcbPtr MutexPtr} {history : List Return} (ok : v.Ok)
    (allowed : v.Allowed move)
    (held : ∀ t (m : MutexPtr), HeldBy history (some t) m.val ↔ v.Holds t m) :
    HeldBy (history ++ (LockLayer.completes move).toList) (some t) m.val ↔
      (v.act move).Holds t m := by
  cases move with
  | take u n =>
    rw [(Locks.Ok.holds_take allowed).2, ← held]
    simp [LockLayer.completes, heldBy_snoc, Fin.ext_iff, eq_comm]
  | wait u n =>
    rw [Locks.Ok.holds_wait allowed, ← held]
    simp [LockLayer.completes]
  | release u n =>
    rw [(ok.holds_release allowed).2, ← held]
    simp [LockLayer.completes, heldBy_snoc, Fin.ext_iff, eq_comm]
  | resume u n =>
    rw [(ok.holds_resume allowed).2, ← held]
    simp [LockLayer.completes, heldBy_snoc, Fin.ext_iff, eq_comm]

/-- One step keeps the invariant, for the locks it leaves. -/
theorem LockInv.step (inv : LockInv w v s) (step : s.Step label s') :
    ∃ v', LockInv (w ++ [label]) v' s' := by
  obtain ⟨enabled, executed⟩ := step
  obtain ⟨t', r, executed', outcome⟩ := inv.models.exec inv.ok enabled
  obtain ⟨rfl, rfl⟩ := Prod.mk.inj (Except.ok.inj (executed'.symm.trans executed))
  have others (u : TcbPtr) (other : u ≠ label.1.actor) :
      lastLock (w ++ [label]) u = lastLock w u := lastLock_snoc_of_ne other
  -- A refused call keeps the locks, a move acts on them.
  rcases outcome with
    ⟨models, -, x, returned, refused⟩ | ⟨move, allowed, actor, completed, models, called⟩
  · refine ⟨v, inv.ok, models, ?_, fun t m => ?_⟩
    · refine inv.ok.ordered_congr inv.ordered (fun m => ?_) others
      rw [← inv.models.stage]
      exact enabled.not_waiting m
    · rw [returns_snoc, returned, Option.toList_some, heldBy_refused refused, inv.held]
  · refine ⟨v.act move, inv.ok.act allowed, models, ?_, fun t m => ?_⟩
    · refine inv.ok.ordered_act allowed inv.ordered (actor ▸ others) fun t m waits u other => ?_
      obtain ⟨mutex, locks⟩ := called t m waits
      exact lastLock_lt (by rw [locks]; rfl) other
    · rw [returns_snoc, completed, heldBy_move inv.ok allowed inv.held]

theorem lockInv_of_run (start : s.Start) (run : Run LockLayer.Step s w s') :
    ∃ v, LockInv w v s' := by
  refine run.invariant_trace (fun w s => ∃ v, LockInv w v s) ?_ ⟨_, lockInv_start start⟩
  rintro w s e s' ⟨v, inv⟩ step
  exact inv.step step

/-! ### What the invariant says -/

/-- The owner's `mutex_unlock` passes the mutex on. -/
theorem LockInv.passesOn (inv : LockInv w v s) (running : s.stage t = .user)
    (owned : (s.kernel.gtMutex m).pHoldingTcb = some t) :
    ∃ s', s.exec (.unlock t m.val) = .ok (s', some ⟨some t, .unlock m.val, 0⟩) ∧
      PassesOn m s s' := by
  have owner : v.owner m = some t := (inv.models.owner m).symm.trans owned
  have valid : validMutex s.kernel m.val = some m :=
    validMutex_eq_some_iff.mpr ⟨rfl, inv.models.created m (by simp [owner])⟩
  obtain ⟨s', called, -, models⟩ := inv.models.release inv.ok running valid owner
  refine ⟨s', called, ?_⟩
  have first := (inv.models.waiters m).eq_head?
  refine ⟨fun l chain => ?_, fun u head => ?_, fun u other => ?_, fun n l different chain => ?_⟩
  · obtain rfl := chain.unique (inv.models.waiters m)
    have chain' := models.waiters m
    rw [Locks.queue_release, Function.update_self] at chain'
    rw [models.owner, Locks.owner_release, Function.update_self]
    exact ⟨rfl, chain'⟩
  · rw [models.stage, Locks.stage_release, if_pos (first.symm.trans head)]
  · rw [models.stage, Locks.stage_release, if_neg fun head => other (first.trans head),
      inv.models.stage]
  · obtain rfl := chain.unique (inv.models.waiters n)
    have chain' := models.waiters n
    rw [Locks.queue_release, Function.update_of_ne different] at chain'
    rw [models.owner, Locks.owner_release, Function.update_of_ne different, inv.models.owner]
    exact ⟨rfl, chain'⟩

theorem LockInv.handsOff (inv : LockInv w v s) : HandsOff w s where
  -- Two tasks with the mutex in their history would both be its owner.
  exclusive m t u first second := by
    rw [inv.held] at first second
    exact Option.some.inj (first.1.symm.trans second.1)
  held_iff m t := by rw [inv.held, Locks.Holds, inv.models.owner, inv.models.stage]
  unlocked_iff m := by rw [inv.models.locked, inv.models.owner, Option.isSome_eq_false_iff,
    Option.isNone_iff_eq_none]
  idle m free := by
    have chain := inv.models.waiters m
    rw [inv.models.owner] at free
    rwa [inv.ok.idle m free] at chain
  waiters m := ⟨v.queue m, inv.models.waiters m, inv.ok.nodup m,
    fun t => by rw [inv.ok.mem_queue, inv.models.stage], inv.ordered m⟩
  disjoint m n t different := by
    rw [(inv.models.waiters m).linked_iff, (inv.models.waiters n).linked_iff]
    exact inv.ok.disjoint different
  count t := by
    rw [inv.models.count, Locks.heldCount]
    simp only [Locks.Holds, inv.models.owner, inv.models.stage]
    congr!
  passesOn m t := inv.passesOn
  total e enabled := by
    obtain ⟨s', r, executed, -⟩ := inv.models.exec inv.ok enabled
    exact ⟨s', r, executed⟩

/-- Whatever the order in which tasks run, the mutexes exclude each other and are handed
off in the order of the calls. -/
theorem handsOff_of_run (start : s.Start) (run : Run LockLayer.Step s w s') : HandsOff w s' :=
  (lockInv_of_run start run).choose_spec.handsOff

/-! ### A run with a hand-off -/

instance (e : LockEvent) : Decidable (s.Enabled e) := by
  cases e <;> unfold LockLayer.Enabled <;> infer_instance

/-- Take the listed steps, as long as each is enabled and does not fault. -/
def LockLayer.execAll : List LockEvent → LockLayer → Option LockLayer
  | [], s => some s
  | e :: es, s =>
    if s.Enabled e then
      match s.exec e with
      | .ok (s, _) => execAll es s
      | .error _ => none
    else none

theorem LockLayer.run_of_execAll {es : List LockEvent} (executed : s.execAll es = some s') :
    ∃ w, Run LockLayer.Step s w s' := by
  induction es generalizing s with
  | nil =>
    obtain rfl := Option.some.inj executed
    exact ⟨[], .nil s⟩
  | cons e es ih =>
    simp only [execAll] at executed
    split at executed
    · rename_i enabled
      split at executed
      · rename_i t r took
        obtain ⟨w, rest⟩ := ih executed
        exact ⟨(e, r) :: w, .cons ⟨enabled, took⟩ rest⟩
      · simp at executed
    · simp at executed

/-- The mutexes after `mutex_init`. -/
def LockLayer.boot : LockLayer := { kernel := Gravel.boot.kernel, stage := fun _ => .user }

theorem LockLayer.start_boot : LockLayer.boot.Start where
  mutexes _ := ⟨rfl, rfl, rfl⟩
  tasks _ := rfl
  stage _ := rfl

/-- Task 1 takes a mutex and releases it while the tasks 2 and 3 wait for it. -/
theorem handsOff_of_run_boot :
    ∃ w s, (s.kernel.gtMutex 0).pHoldingTcb = some 2 ∧ s.stage 3 = .waiting 0 ∧ HandsOff w s := by
  have executed : (LockLayer.boot.execAll [.create 1, .lock 1 0, .lock 2 0, .lock 3 0,
      .unlock 1 0]).any (fun s => (s.kernel.gtMutex 0).pHoldingTcb = some 2 ∧
        s.stage 3 = .waiting 0) = true := by decide +kernel
  obtain ⟨s, followed, reached⟩ := (Option.any_eq_true _ _).mp executed
  obtain ⟨w, run⟩ := LockLayer.run_of_execAll followed
  obtain ⟨owner, waits⟩ := of_decide_eq_true reached
  exact ⟨w, s, owner, waits, handsOff_of_run LockLayer.start_boot run⟩

end Gravel
