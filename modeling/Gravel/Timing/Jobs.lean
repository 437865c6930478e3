import Gravel.Library.FixedPriority
import Gravel.Scheduling.Inversion
import Gravel.Scheduling.Placement
import Gravel.Timing.Periodic

/-!
# Periodic jobs on the kernel

A periodic task computes, calls `event_wait` for its device, and computes again when the event
has come. The machine is given time: in a millisecond the current task does a millisecond of
its job, and at the end of its job it makes the call, both halves of it; every fifth
millisecond there is a timer interrupt. The kernel's own code takes no time, and the tasks use
no mutex.

## Main definitions

* `Jobs` — the device of every task, and the length of its jobs
* `Timed` — a machine, with what is left of the jobs
* `Timed.run` — the state after a number of milliseconds
* `Timed.Active`, `Timed.pending` — the work the scheduler knows of
* `Timely` — a timed machine that represents a scheduler state

## Main results

* `Timely.work` — in a millisecond the most urgent task with pending work is served
* `Timely.tick` — a timer interrupt releases the jobs of the devices it matches
-/

namespace Gravel

open Library

/-- The device every task waits for, and the length of each of its jobs in milliseconds. -/
structure Jobs where
  dev : TcbPtr → DevPtr
  length : TcbPtr → ℕ → ℕ

/-- A machine, what is left of the job of every task, and how many jobs it has finished. The
job of a task that waits is its next one. -/
structure Timed where
  machine : Machine
  left : TcbPtr → ℕ
  done : TcbPtr → ℕ

namespace Timed

variable (pf : Platform) (jobs : Jobs)

/-- At its launch every task has its first job. -/
def start (m : Machine) : Timed where
  machine := m
  left t := jobs.length t 0
  done _ := 0

/-- `event_wait` at the end of a job, and its `dispatch_sleep()`. -/
def finish (s : Timed) (t : TcbPtr) : Except Fault Timed :=
  match s.machine.exec pf (.eventWait (.ofNat (jobs.dev t).val)) with
  | .error fault => .error fault
  | .ok (m, _) =>
    match m.exec pf .resume with
    | .error fault => .error fault
    | .ok (m, _) => .ok
      { machine := m
        left := Function.update s.left t (jobs.length t (s.done t + 1))
        done := Function.update s.done t (s.done t + 1) }

/-- A millisecond of the current task. -/
def work (s : Timed) : Except Fault Timed :=
  match s.machine.kernel.curTcb with
  | none => .ok s
  | some t =>
    -- The idle task spins.
    if t = idleTcb then .ok s
    else if s.left t ≤ 1 then s.finish pf jobs t
    else .ok { s with left := Function.update s.left t (s.left t - 1) }

def tick (s : Timed) : Except Fault Timed :=
  match s.machine.exec pf .tick with
  | .error fault => .error fault
  | .ok (m, _) => .ok { s with machine := m }

/-- One more millisecond, which is the `x`-th. -/
def step (x : ℕ) (s : Timed) : Except Fault Timed :=
  match s.work pf jobs with
  | .error fault => .error fault
  | .ok s => if x % Config.timeResolution.toNat = 0 then s.tick pf else .ok s

/-- The state after a number of milliseconds. -/
def run (s : Timed) : ℕ → Except Fault Timed
  | 0 => .ok s
  | x + 1 =>
    match run s x with
    | .error fault => .error fault
    | .ok s => s.step pf jobs (x + 1)

/-- The task is current or queued. -/
def Active (s : Timed) (t : TcbPtr) : Prop :=
  s.machine.kernel.curTcb = some t ∨ s.machine.kernel.runQueue.slot t.val = some t

instance (s : Timed) (t : TcbPtr) : Decidable (s.Active t) :=
  inferInstanceAs (Decidable (_ ∨ _))

/-- What is left of the job of a task that is not waiting. -/
def pending (s : Timed) (t : TcbPtr) : ℕ := if s.Active t then s.left t else 0

end Timed

/-- The TCBs of a set of `n` tasks. -/
def userTcbs (n : ℕ) : Finset TcbPtr := (liveTcbs n).erase idleTcb

@[simp] theorem mem_userTcbs {n : ℕ} {t : TcbPtr} :
    t ∈ userTcbs n ↔ t ≠ idleTcb ∧ 1 ≤ t.val ∧ t.val ≤ n := by
  simp only [userTcbs, Finset.mem_erase, mem_liveTcbs]
  exact and_congr_right fun other => or_iff_left other

/-- Every job of the tasks has some length. -/
def Jobs.Positive (jobs : Jobs) (n : ℕ) : Prop := ∀ t ∈ userTcbs n, ∀ k, 0 < jobs.length t k

/-- A timed machine represents a scheduler state in which every task runs, is ready, or waits
for its own device, and every job has something left. -/
structure Timely (jobs : Jobs) (n : ℕ) (stale : Set MutexPtr) (v : View) (s : Timed) : Prop where
  represents : Represents (liveTcbs n) stale v s.machine
  inv : v.Inv (liveTcbs n) idleTcb
  placed : v.Placed (liveTcbs n)
  window : v.window = ∅
  locks : v.locks = ∅
  ordered : v.Ordered
  own : ∀ d, ∀ t ∈ v.waits d, d = jobs.dev t
  left : ∀ t ∈ userTcbs n, 0 < s.left t ∧ s.left t ≤ jobs.length t (s.done t)

variable {pf : Platform} {jobs : Jobs} {n : ℕ} {stale : Set MutexPtr} {v v' : View}
  {k : Kernel} {s s' : Timed} {m : Machine} {t u : TcbPtr} {live : Finset TcbPtr}

/-! ### Where the tasks are -/

/-- A launch is a scheduler state in which no task waits. -/
theorem Launched.timely (launched : Launched pf k n m) (positive : jobs.Positive n) :
    Timely jobs n k.stale (View.launch n) (.start jobs m) where
  represents := launched.represents
  inv := View.inv_launch
  placed := View.placed_launch
  window := rfl
  locks := rfl
  ordered := View.ordered_launch
  own := nofun
  left t member := ⟨positive t member 0, le_rfl⟩

theorem Timely.active_iff (timely : Timely jobs n stale v s) : s.Active t ↔ t ∈ v.active := by
  have slot := timely.represents.slots t.val t.isLt t
  rw [Timed.Active, timely.represents.cur, slot, Option.some.injEq, eq_comm,
    Scheduler.mem_active]
  simp

/-- A task that does not run and is not ready waits for its own device. -/
theorem Timely.waiting_iff (timely : Timely jobs n stale v s) (member : t ∈ liveTcbs n) :
    t ∈ v.waits (jobs.dev t) ↔ ¬ s.Active t := by
  rw [timely.active_iff, Scheduler.mem_active]
  constructor
  · intro waiting active
    obtain ⟨different, unready⟩ := timely.inv.asleep _ t waiting (by simp [timely.window])
    exact active.elim different unready
  · intro inactive
    obtain ⟨d, waiting⟩ := (or_assoc.mpr (timely.placed t member)).resolve_left inactive
    exact timely.own d t waiting ▸ waiting

/-- No active task is more urgent than the current one. -/
theorem Timely.cur_le (timely : Timely jobs n stale v s) (active : s.Active t) : v.cur ≤ t := by
  rcases Scheduler.mem_active.mp (timely.active_iff.mp active) with rfl | ready
  · exact le_rfl
  · exact timely.ordered (by simp [timely.window]) timely.locks t ready

theorem Timely.cur_mem (timely : Timely jobs n stale v s) (busy : v.cur ≠ idleTcb) :
    v.cur ∈ userTcbs n :=
  Finset.mem_erase.mpr ⟨busy, timely.inv.cur_live⟩

theorem Timely.cur_active (timely : Timely jobs n stale v s) : s.Active v.cur :=
  timely.active_iff.mpr (Scheduler.mem_active.mpr (Or.inl rfl))

/-! ### The end of a job -/

/-- Both halves of a wait of the current task. -/
theorem Represents.eventWait (rep : Represents live stale v m) (inv : v.Inv live idleTcb)
    (outside : v.cur ∉ v.window) (busy : v.cur ≠ idleTcb) (unlocked : v.locks = ∅)
    (pf : Platform) (d : DevPtr) :
    ∃ m', m.TaskStep pf (.eventWait (.ofNat d.val), none) m' ∧
      Represents live stale (v.wait d) m' := by
  obtain ⟨k', entered, -, models⟩ := rep.toModels.devWaitEnter inv outside d
  have small : d.val < 2 ^ 32 := d.isLt.trans (by decide)
  have number : (UInt32.ofNat d.val).toNat = d.val := UInt32.toNat_ofNat_of_lt' small
  have holds := rep.holds v.cur inv.cur_live
  rw [View.holdsLock, if_pos rfl, unlocked, Finset.card_empty, Nat.cast_zero] at holds
  have called : Gravel.eventWait m.kernel (.ofNat d.val) = .ok (none, k') := by
    simp [Gravel.eventWait, rep.cur, holds, number, d.isLt, entered]
  have user : m.curControl = .user := by
    rw [rep.curControl inv.cur_live, if_neg outside]
  have working : m.kernel.curTcb ≠ some idleTcb := by
    rw [rep.cur]
    exact fun same => busy (Option.some.inj same)
  refine ⟨m.leave k' .devWait, ⟨⟨⟨user, working⟩, by simp only [Machine.exec, called]⟩, rfl⟩, ?_⟩
  apply rep.leave models
  intro t member
  by_cases own : t = v.cur
  · subst own
    simp [Scheduler.wait]
  · simpa [Scheduler.wait, own] using rep.control t member

/-- The current task finishes its job and goes to sleep. -/
theorem Timely.finish (timely : Timely jobs n stale v s) (busy : v.cur ≠ idleTcb)
    (positive : jobs.Positive n) (pf : Platform) :
    ∃ s', s.finish pf jobs v.cur = .ok s' ∧
      Timely jobs n stale (v.wait (jobs.dev v.cur)).sleep s' ∧
      (∃ w, Run (Machine.TaskStep pf) s.machine w s'.machine ∧ ∀ l ∈ w, l.1 ≠ .tick) ∧
      s'.left = Function.update s.left v.cur (jobs.length v.cur (s.done v.cur + 1)) ∧
      s'.done = Function.update s.done v.cur (s.done v.cur + 1) := by
  have outside : v.cur ∉ v.window := by simp [timely.window]
  obtain ⟨m₁, waited, rep₁⟩ := timely.represents.eventWait timely.inv outside busy timely.locks
    pf (jobs.dev v.cur)
  have inv₁ := timely.inv.wait outside busy timely.locks (jobs.dev v.cur)
  have window₁ : (v.wait (jobs.dev v.cur)).cur ∈ (v.wait (jobs.dev v.cur)).window :=
    Finset.mem_insert_self _ _
  have inside : m₁.curControl ≠ .user := by
    rw [rep₁.curControl inv₁.cur_live, if_pos window₁]
    simp
  obtain ⟨v₂, m₂, r, resumed, move, rep₂⟩ :=
    rep₁.exec (e := .resume) pf inv₁ inside trivial rfl
  cases move with
  | stay impossible => exact absurd rfl impossible
  | sleep =>
    have first := waited.1.2
    refine ⟨_, by simp only [Timed.finish, first, resumed]; rfl, ?_, ?_, rfl, rfl⟩
    · have waits : ∃ d, v.cur ∈ (v.wait (jobs.dev v.cur)).waits d :=
        ⟨jobs.dev v.cur, by simp [Scheduler.wait]⟩
      exact
        { represents := rep₂
          inv := inv₁.sleep window₁
          placed := (inv₁.placed_sleep_iff window₁ (timely.placed.wait _)).mpr (Or.inr waits)
          window := by
            simp [Scheduler.wait, Scheduler.sleep, timely.window]
          locks := timely.locks
          ordered := Scheduler.ordered_sleep
          own := by
            intro d t waiting
            by_cases same : d = jobs.dev v.cur
            · subst same
              have entered : t = v.cur ∨ t ∈ v.waits (jobs.dev v.cur) := by
                simpa [Scheduler.sleep, Scheduler.wait] using waiting
              rcases entered with rfl | old
              · rfl
              · exact timely.own _ t old
            · apply timely.own d t
              simpa [Scheduler.sleep, Scheduler.wait, same] using waiting
          left := by
            intro t member
            by_cases own : t = v.cur
            · subst own
              simpa using positive v.cur member _
            · simpa [own] using timely.left t member }
    · have second : m₁.TaskStep pf (.resume, r) m₂ := ⟨⟨inside, resumed⟩, rfl⟩
      exact ⟨_, .snoc (.snoc (.nil _) waited) second, by simp⟩

/-! ### A millisecond -/

theorem Timely.pending_of_active (active : s.Active t) : s.pending t = s.left t := if_pos active

theorem Timely.pending_of_not_active (inactive : ¬ s.Active t) : s.pending t = 0 :=
  if_neg inactive

/-- The number of jobs that have been released: those finished, and the present one. -/
def Timed.released (s : Timed) (t : TcbPtr) : ℕ := s.done t + if s.Active t then 1 else 0

/-- In a millisecond the most urgent task with pending work is served, and no job is
released. -/
theorem Timely.work (timely : Timely jobs n stale v s) (positive : jobs.Positive n)
    (pf : Platform) :
    ∃ s' v', s.work pf jobs = .ok s' ∧ Timely jobs n stale v' s' ∧
      Serves (userTcbs n) s.pending s'.pending ∧
      (∃ w, Run (Machine.TaskStep pf) s.machine w s'.machine ∧ ∀ l ∈ w, l.1 ≠ .tick) ∧
      s'.released = s.released := by
  have current := timely.represents.cur
  by_cases busy : v.cur = idleTcb
  · -- Nothing is pending: whatever is active is the idle task.
    have none (j : TcbPtr) (member : j ∈ userTcbs n) : s.pending j = 0 := by
      apply Timely.pending_of_not_active
      intro active
      have least := timely.cur_le active
      rw [busy] at least
      exact (mem_userTcbs.mp member).1 (le_antisymm (Fin.le_last j) least)
    exact ⟨s, v, by simp [Timed.work, current, busy], timely, .idle none none,
      ⟨[], .nil _, by simp⟩, rfl⟩
  · have member := timely.cur_mem busy
    obtain ⟨some_left, -⟩ := timely.left v.cur member
    have urgent (j : TcbPtr) (_ : j ∈ userTcbs n) (more : j < v.cur) : s.pending j = 0 :=
      Timely.pending_of_not_active fun active => absurd (timely.cur_le active) (not_le.mpr more)
    have own := Timely.pending_of_active timely.cur_active
    by_cases last : s.left v.cur ≤ 1
    · -- The job ends: the task is not active any more, the others are where they were.
      obtain ⟨s', finished, timely', run, left, done⟩ := timely.finish busy positive pf
      have outside : v.cur ∉ v.window := by simp [timely.window]
      have nonempty : v.ready.Nonempty :=
        ⟨idleTcb, timely.inv.idle_present.resolve_left (Ne.symm busy)⟩
      have active' (j : TcbPtr) : s'.Active j ↔ j ≠ v.cur ∧ s.Active j := by
        rw [timely'.active_iff, timely.active_iff]
        rw [Scheduler.active_sleep (v := v.wait (jobs.dev v.cur)) nonempty
          (timely.inv.running outside)]
        exact Finset.mem_erase
      refine ⟨s', _, ?_, timely', .task v.cur member ?_ urgent ?_, run, ?_⟩
      · simp only [Timed.work, current, if_neg busy, if_pos last, finished]
      · rw [own, Timely.pending_of_not_active fun active => ((active' _).mp active).1 rfl]
        omega
      · intro j _ different
        simp only [Timed.pending, active', left, Function.update_of_ne different, different,
          ne_eq, not_false_eq_true, true_and]
      · funext j
        by_cases same : j = v.cur
        · subst same
          simp [Timed.released, active', done, timely.cur_active]
        · simp [Timed.released, active', done, same]
    · let s' : Timed := { s with left := Function.update s.left v.cur (s.left v.cur - 1) }
      have active' : s'.Active v.cur := timely.cur_active
      refine ⟨s', v, ?_, ?_, .task v.cur member ?_ urgent ?_, ⟨[], .nil _, by simp⟩, rfl⟩
      · simp only [Timed.work, current, if_neg busy, if_neg last, s']
      · refine { timely with left := fun t inside => ?_ }
        have bounds := timely.left t inside
        by_cases same : t = v.cur
        · subst same
          simp only [s', Function.update_self]
          omega
        · simpa [s', same] using bounds
      · rw [own, Timely.pending_of_active active']
        simp only [s', Function.update_self]
        omega
      · intro j _ different
        have kept : s'.left j = s.left j := Function.update_of_ne different _ _
        simp only [Timed.pending, kept]
        rfl

/-! ### A timer interrupt -/

/-- The devices that the scheduler finds due, as far as somebody waits for them, are those
the interrupt matches. -/
theorem Models.mem_due_iff {k k' : Kernel} {due : Finset DevPtr} {d : DevPtr}
    (models : Models live stale v k) (models' : Models live stale (v.tick due) k')
    (handled : Gravel.cIrqHandler k = .ok k') (waiting : t ∈ v.waits d) :
    d ∈ due ↔ k'.devices d =
      { sleepQueue := none, nextMatch := (k.devices d).nextMatch + devFreq d } := by
  have before := models.chains d
  have after := models'.chains d
  have waited : v.waits d ≠ [] := List.ne_nil_of_mem waiting
  rw [Scheduler.tick_waits] at after
  constructor
  · intro inside
    rw [if_pos inside, chain_nil, (cIrqHandler_clock handled).2 d, Dev.update] at after
    rw [(cIrqHandler_clock handled).2 d, Dev.update]
    split at after
    · rename_i early
      rw [if_pos early]
    · rw [after] at before
      exact absurd (before.unique (chain_nil.mpr rfl)) waited
  · intro matched
    by_contra outside
    rw [if_neg outside, matched] at after
    exact absurd (after.unique (chain_nil.mpr rfl)) waited

/-- A timer interrupt releases the jobs of the devices it matches. -/
theorem Timely.tick (timely : Timely jobs n stale v s) (pf : Platform) :
    ∃ s' v', s.tick pf = .ok s' ∧ Timely jobs n stale v' s' ∧
      s.machine.TaskStep pf (.tick, none) s'.machine ∧ s'.left = s.left ∧ s'.done = s.done ∧
      ∀ t ∈ userTcbs n, s'.Active t ↔
        s.Active t ∨ Matched (jobs.dev t) s.machine s'.machine := by
  obtain ⟨due, k', handled, models⟩ :=
    timely.represents.toModels.cIrqHandler timely.inv.toCore
  let s' : Timed := { s with machine := { s.machine with kernel := k' } }
  have executed : s.machine.exec pf .tick = .ok (s'.machine, none) := by
    simp only [Machine.exec, handled, s']
  have timely' : Timely jobs n stale (v.tick due) s' :=
    { represents := timely.represents.stay models Scheduler.tick_window
      inv := timely.inv.tick
      placed := timely.placed.tick
      window := by rw [Scheduler.tick_window, timely.window]
      locks := by rw [Scheduler.tick_locks, timely.locks]
      ordered := timely.ordered.tick
      own := by
        intro d t waiting
        rw [Scheduler.tick_waits] at waiting
        split at waiting
        · simp at waiting
        · exact timely.own d t waiting
      left := timely.left }
  refine ⟨s', v.tick due, by simp only [Timed.tick, executed, s'], timely',
    ⟨⟨trivial, executed⟩, rfl⟩, rfl, rfl, ?_⟩
  intro t member
  rw [timely'.active_iff, timely.active_iff, Scheduler.active_tick, Finset.mem_union]
  by_cases active : t ∈ v.active
  · simp [active]
  · have waiting := (timely.waiting_iff (Finset.mem_of_mem_erase member)).mpr
      fun found => active (timely.active_iff.mp found)
    rw [or_iff_right active, or_iff_right active, Scheduler.mem_woken, Matched,
      ← timely.represents.toModels.mem_due_iff models handled waiting]
    constructor
    · rintro ⟨d, inside, there⟩
      exact timely.own d t there ▸ inside
    · exact fun inside => ⟨_, inside, waiting⟩

end Gravel
