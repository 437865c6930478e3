import Gravel.Timing.Release

/-!
# Deadlines

The jobs of periodic tasks on the kernel are a fixed-priority schedule: the kernel serves
the most urgent task with pending work, and its devices release jobs at multiples of their
periods. So a task whose demand criterion holds finishes each of its jobs before the next
event of its device, and is waiting when the event comes. What the less urgent tasks do has
no influence on it.

## Main definitions

* `KeepsPeriods` — the clock and the match values of the devices wrap together
* `Millisecond` — a millisecond of the kernel
* `Timeline` — the states after every millisecond, up to a horizon
* `Timeline.left`, `Timeline.arrive` — the schedule

## Main results

* `matched_iff_dvd` — the events of a device come at the multiples of its period
* `exists_timeline` — a launched set runs
* `Timeline.urgentFirst` — the kernel is a fixed-priority scheduler
* `deadlines_met` — a task whose demand criterion holds meets all its deadlines
-/

namespace Gravel

open Library

/-- The period of the device a task waits for. -/
def Jobs.period (jobs : Jobs) (t : TcbPtr) : ℕ := (devFreq (jobs.dev t)).toNat

/-- Up to the horizon no device loses its period where the counters wrap. -/
def KeepsPeriods (start : UInt32) (N : ℕ) : Prop :=
  ∀ d n, 0 < n → 5 * n ≤ N → WrapTogether (2 ^ 32) 5 (devFreq d).toNat start.toNat n

variable {pf : Platform} {jobs : Jobs} {n N x : ℕ} {k : Kernel} {s₀ m m' : Machine} {d : DevPtr}
  {s : Timed} {t : TcbPtr} {v : View} {stale : Set MutexPtr}

theorem Jobs.period_pos (jobs : Jobs) (t : TcbPtr) : 0 < jobs.period t := by
  have := devFreq_eq (jobs.dev t)
  unfold Jobs.period
  omega

/-- The events of the devices come at timer interrupts. -/
theorem Jobs.five_dvd_period (jobs : Jobs) (t : TcbPtr) : 5 ∣ jobs.period t := by
  have := (devFreq_eq (jobs.dev t)).1
  unfold Jobs.period
  omega

/-- Before the counters wrap the first time the devices keep their periods. -/
theorem keepsPeriods_of_le {start : UInt32} (early : start.toNat + N + 500 < 2 ^ 32) :
    KeepsPeriods start N := by
  intro d n some_ticks within
  have longest : (devFreq d).toNat ≤ 500 := by
    revert d
    decide
  have next := Nat.mul_div_le (5 * n + (devFreq d).toNat - 1) (devFreq d).toNat
  rw [WrapTogether, Nat.div_eq_of_lt (by omega), Nat.div_eq_of_lt (by omega)]

/-! ### When the devices match -/

/-- After `x` ticks the next one matches a device exactly at a multiple of its period. -/
theorem matched_iff_dvd (launched : Launched pf k n s₀) {w : List (Label × Bool)}
    (run : Run (fun s l s' => s.MatchStep pf d l s') s₀ w m) (count : (ticks w).length = x)
    {r : Option Return} (step : m.TaskStep pf (.tick, r) m')
    (together : ∀ n, 0 < n → n ≤ x + 1 →
      WrapTogether (2 ^ 32) 5 (devFreq d).toNat k.sysTime.toNat n) :
    Matched d m m' ↔ (devFreq d).toNat ∣ 5 * (x + 1) := by
  obtain ⟨period, positive, -⟩ := devFreq_eq d
  have longer : ticks (w ++ [((.tick, r), decide (Matched d m m'))]) =
      ticks w ++ [decide (Matched d m m')] := by
    rw [ticks_snoc]
    rfl
  have punctual : Punctual 5 (devFreq d).toNat (ticks w ++ [decide (Matched d m m')]) := by
    rw [← longer, punctual_iff_of_periodic (launched.periodic_of_run (.snoc run ⟨step, rfl⟩)),
      longer]
    simpa [count] using together
  obtain ⟨before, now⟩ := punctual_snoc.mp punctual
  have upTo := before (ticks w).length le_rfl
  rw [List.take_length] at upTo
  -- The count goes up exactly where the quotient does.
  rw [List.count_append, upTo, count] at now
  generalize (devFreq d).toNat / 5 = g at period positive
  rw [period] at now ⊢
  rw [Nat.mul_div_mul_left _ _ (by decide), Nat.mul_div_mul_left _ _ (by decide),
    Nat.succ_div] at now
  rw [Nat.mul_dvd_mul_iff_left (by decide)]
  by_cases matched : Matched d m m' <;> by_cases whole : g ∣ x + 1 <;>
    simp [matched, whole] at now ⊢

/-! ### The states of a run -/

/-- The state after `x` milliseconds, reached by steps of the machine. -/
structure AtTime (pf : Platform) (jobs : Jobs) (n : ℕ) (stale : Set MutexPtr) (s₀ : Machine)
    (x : ℕ) (s : Timed) : Prop where
  timely : ∃ v, Timely jobs n stale v s
  run : ∀ d, ∃ w, Run (fun s l s' => s.MatchStep pf d l s') s₀ w s.machine ∧
    (ticks w).length = x / 5

/-- A millisecond of the kernel: `mid` is the state before the timer interrupt, if there is
one. -/
structure Millisecond (jobs : Jobs) (n x : ℕ) (s mid s' : Timed) : Prop where
  serves : Serves (userTcbs n) s.pending mid.pending
  released : mid.released = s.released
  left : s'.left = mid.left
  done : s'.done = mid.done
  bounds : ∀ t ∈ userTcbs n, 0 < mid.left t ∧ mid.left t ≤ jobs.length t (mid.done t)
  active : ∀ t ∈ userTcbs n, s'.Active t ↔ mid.Active t ∨ jobs.period t ∣ x + 1

theorem AtTime.step (launched : Launched pf k n s₀) (positive : jobs.Positive n)
    (keeps : KeepsPeriods k.sysTime N) (at_x : AtTime pf jobs n stale s₀ x s) (before : x < N) :
    ∃ mid s', s.step pf jobs (x + 1) = .ok s' ∧ AtTime pf jobs n stale s₀ (x + 1) s' ∧
      Millisecond jobs n x s mid s' := by
  obtain ⟨v, timely⟩ := at_x.timely
  obtain ⟨mid, v₁, worked, timely₁, serves, ⟨w₁, run₁, quiet⟩, released⟩ :=
    timely.work positive pf
  have runs (d : DevPtr) : ∃ w, Run (fun s l s' => s.MatchStep pf d l s') s₀ w mid.machine ∧
      (ticks w).length = x / 5 := by
    obtain ⟨w, run, count⟩ := at_x.run d
    obtain ⟨w', run', none⟩ := exists_matchRun run₁ quiet d
    refine ⟨w ++ w', run.append run', ?_⟩
    rw [ticks, List.filterMap_append, List.length_append, ← ticks, ← ticks, none, count]
    rfl
  by_cases fifth : (x + 1) % 5 = 0
  · obtain ⟨s', v₂, ticked, timely₂, step, left, done, active⟩ := timely₁.tick pf
    refine ⟨mid, s', ?_, ⟨⟨v₂, timely₂⟩, fun d => ?_⟩,
      ⟨serves, released, left, done, timely₁.left, fun t member => ?_⟩⟩
    · simp only [Timed.step, worked]
      rw [show (x + 1) % Config.timeResolution.toNat = 0 from fifth, if_pos rfl, ticked]
    · obtain ⟨w, run, count⟩ := runs d
      refine ⟨w ++ [((.tick, none), decide (Matched d mid.machine s'.machine))],
        .snoc run ⟨step, rfl⟩, ?_⟩
      rw [ticks_snoc]
      simp only [Event.isTick, if_true, List.length_append, List.length_singleton, count]
      omega
    · obtain ⟨w, run, count⟩ := runs (jobs.dev t)
      have together : ∀ n, 0 < n → n ≤ x / 5 + 1 →
          WrapTogether (2 ^ 32) 5 (devFreq (jobs.dev t)).toNat k.sysTime.toNat n :=
        fun n some_ticks within => keeps (jobs.dev t) n some_ticks (by omega)
      rw [active t member, matched_iff_dvd launched run count step together, Jobs.period,
        show 5 * (x / 5 + 1) = x + 1 by omega]
  · refine ⟨mid, mid, ?_, ⟨⟨v₁, timely₁⟩, fun d => ?_⟩,
      ⟨serves, released, rfl, rfl, timely₁.left, fun t member => ?_⟩⟩
    · simp only [Timed.step, worked]
      exact if_neg fifth
    · obtain ⟨w, run, count⟩ := runs d
      exact ⟨w, run, by omega⟩
    · have never : ¬ jobs.period t ∣ x + 1 := fun whole =>
        fifth (Nat.mod_eq_zero_of_dvd ((jobs.five_dvd_period t).trans whole))
      simp [never]

/-! ### A run -/

/-- The states after every millisecond, and before the timer interrupts, up to a horizon. -/
structure Timeline (jobs : Jobs) (n N : ℕ) (s mid : ℕ → Timed) : Prop where
  start : ∀ t ∈ userTcbs n,
    (s 0).Active t ∧ (s 0).done t = 0 ∧ (s 0).left t = jobs.length t 0
  millisecond : ∀ x < N, Millisecond jobs n x (s x) (mid x) (s (x + 1))

/-- A launched set runs, one millisecond after the other. -/
theorem exists_timeline (launched : Launched pf k n m) (positive : jobs.Positive n)
    (keeps : KeepsPeriods k.sysTime N) :
    ∃ s mid, Timeline jobs n N s mid ∧
      ∀ x ≤ N, (Timed.start jobs m).run pf jobs x = .ok (s x) := by
  have timely := launched.timely positive
  have reached (x : ℕ) (inside : x ≤ N) : ∃ s, (Timed.start jobs m).run pf jobs x = .ok s ∧
      AtTime pf jobs n k.stale m x s := by
    induction x with
    | zero => exact ⟨_, rfl, ⟨⟨_, timely⟩, fun _ => ⟨[], .nil _, rfl⟩⟩⟩
    | succ x ih =>
      obtain ⟨s, ran, at_x⟩ := ih (by omega)
      obtain ⟨-, s', stepped, at_next, -⟩ := at_x.step launched positive keeps inside
      exact ⟨s', by simp only [Timed.run, ran, stepped], at_next⟩
  have some_state : Nonempty Timed := ⟨.start jobs m⟩
  choose! s ran at_time using reached
  have next (x : ℕ) (before : x < N) : ∃ mid, Millisecond jobs n x (s x) mid (s (x + 1)) := by
    obtain ⟨mid, s', stepped, -, millisecond⟩ :=
      (at_time x before.le).step launched positive keeps before
    have after := ran (x + 1) before
    simp only [Timed.run, ran x before.le, stepped] at after
    exact ⟨mid, Except.ok.inj after ▸ millisecond⟩
  choose! mid milliseconds using next
  have first : s 0 = .start jobs m := (Except.ok.inj (ran 0 (Nat.zero_le N))).symm
  refine ⟨s, mid, ⟨fun t member => ?_, milliseconds⟩, ran⟩
  rw [first]
  refine ⟨timely.active_iff.mpr (Scheduler.mem_active.mpr ?_), rfl, rfl⟩
  have live := Finset.mem_of_mem_erase member
  exact (View.placed_launch t live).imp_right fun elsewhere =>
    elsewhere.resolve_right fun ⟨d, waiting⟩ => List.not_mem_nil waiting

/-! ### The schedule -/

namespace Timeline

variable {s mid : ℕ → Timed} {C : TcbPtr → ℕ} {u : TcbPtr}

/-- What is left of the jobs when an instant comes, before the jobs it releases. -/
def left (mid : ℕ → Timed) : ℕ → TcbPtr → ℕ
  | 0, _ => 0
  | x + 1, t => (mid x).pending t

/-- The work released at an instant, up to the horizon. -/
def arrive (N : ℕ) (s mid : ℕ → Timed) (x : ℕ) (t : TcbPtr) : ℕ :=
  if x ≤ N then (s x).pending t - left mid x t else 0

/-- A timer interrupt only adds work. -/
theorem left_add_arrive (timeline : Timeline jobs n N s mid) (member : t ∈ userTcbs n)
    (inside : x ≤ N) : left mid x t + arrive N s mid x t = (s x).pending t := by
  rw [arrive, if_pos inside]
  apply Nat.add_sub_cancel'
  cases x with
  | zero => exact Nat.zero_le _
  | succ x =>
    have millisecond := timeline.millisecond x inside
    by_cases active : (mid x).Active t
    · have active' := (millisecond.active t member).mpr (Or.inl active)
      rw [left, Timely.pending_of_active active, Timely.pending_of_active active',
        millisecond.left]
    · rw [left, Timely.pending_of_not_active active]
      exact Nat.zero_le _

/-- The kernel is a fixed-priority scheduler. -/
theorem urgentFirst (timeline : Timeline jobs n N s mid) :
    UrgentFirst (userTcbs n) (arrive N s mid) (left mid) N where
  start _ _ := rfl
  serves x before := (timeline.millisecond x before).serves.of_agree
    fun _ member => timeline.left_add_arrive member before.le

/-- Jobs are released at the multiples of the period, one at a time. -/
theorem dvd_of_arrive (timeline : Timeline jobs n N s mid) (member : t ∈ userTcbs n)
    (arrived : arrive N s mid x t ≠ 0) :
    jobs.period t ∣ x ∧ ∃ i, arrive N s mid x t ≤ jobs.length t i := by
  have inside : x ≤ N := by
    by_contra late
    exact arrived (if_neg late)
  have total := timeline.left_add_arrive member inside
  have within : arrive N s mid x t ≤ (s x).left t := by
    have : (s x).pending t ≤ (s x).left t := by
      unfold Timed.pending
      split <;> omega
    omega
  cases x with
  | zero =>
    obtain ⟨-, -, full⟩ := timeline.start t member
    exact ⟨dvd_zero _, 0, full ▸ within⟩
  | succ x =>
    have millisecond := timeline.millisecond x inside
    rw [millisecond.left] at within
    refine ⟨?_, (mid x).done t, within.trans (millisecond.bounds t member).2⟩
    by_contra between
    have same : (s (x + 1)).pending t = (mid x).pending t := by
      simp only [Timed.pending, millisecond.active t member, between, or_false, millisecond.left]
    rw [same, left] at total
    exact arrived (Nat.left_eq_add.mp total.symm)

/-- Tasks whose jobs are within their cost arrive sporadically. -/
theorem sporadic (timeline : Timeline jobs n N s mid) (member : t ∈ userTcbs n)
    (costs : ∀ i, jobs.length t i ≤ C t) :
    Sporadic (fun x => arrive N s mid x t) (jobs.period t) (C t) where
  apart x y less at_x at_y := by
    obtain ⟨i, rfl⟩ := (timeline.dvd_of_arrive member at_x).1
    obtain ⟨j, rfl⟩ := (timeline.dvd_of_arrive member at_y).1
    rw [← Nat.mul_succ]
    exact Nat.mul_le_mul_left _ (Nat.lt_of_mul_lt_mul_left less)
  cost x := by
    by_cases arrived : arrive N s mid x t = 0
    · rw [arrived]
      exact Nat.zero_le _
    · obtain ⟨-, i, within⟩ := timeline.dvd_of_arrive member arrived
      exact within.trans (costs i)

/-- Nothing is left of the jobs of a task when the next event of its device comes. -/
theorem left_eq_zero (timeline : Timeline jobs n N s mid) (member : t ∈ userTcbs n)
    (costs : ∀ u ∈ userTcbs n, u ≤ t → ∀ i, jobs.length u i ≤ C u) {y j : ℕ} (positive : 0 < y)
    (early : y ≤ jobs.period t)
    (fits : demand ((userTcbs n).filter (· ≤ t)) jobs.period C y ≤ y)
    (inside : jobs.period t * (j + 1) ≤ N) : left mid (jobs.period t * (j + 1)) t = 0 := by
  rw [Nat.mul_succ] at inside ⊢
  refine timeline.urgentFirst.done_by (fun u _ _ => jobs.period_pos u)
    (fun u other more => timeline.sporadic other (costs u other more)) positive early fits member
    inside fun x lower upper => ?_
  by_contra arrived
  obtain ⟨i, rfl⟩ := (timeline.dvd_of_arrive member arrived).1
  rw [← Nat.mul_succ] at upper
  have := Nat.lt_of_mul_lt_mul_left lower
  have := Nat.lt_of_mul_lt_mul_left upper
  omega

/-- Every event of its device releases a job of the task. -/
theorem released (timeline : Timeline jobs n N s mid) (member : t ∈ userTcbs n)
    (finished : ∀ j, jobs.period t * (j + 1) ≤ N → left mid (jobs.period t * (j + 1)) t = 0)
    (inside : x ≤ N) : (s x).released t = x / jobs.period t + 1 := by
  induction x with
  | zero =>
    obtain ⟨active, none, -⟩ := timeline.start t member
    simp [Timed.released, active, none]
  | succ x ih =>
    have millisecond := timeline.millisecond x inside
    have before := ih (by omega)
    rw [← congrFun millisecond.released t, Timed.released] at before
    rw [Timed.released, millisecond.done, Nat.succ_div]
    by_cases event : jobs.period t ∣ x + 1
    · -- The task is waiting when its event comes.
      have waiting : ¬ (mid x).Active t := by
        intro active
        obtain ⟨j, at_event⟩ := event
        cases j with
        | zero => simp at at_event
        | succ j =>
          have none : (mid x).pending t = 0 := by
            have := finished j (at_event ▸ inside)
            rwa [← at_event] at this
          rw [Timely.pending_of_active active] at none
          exact (millisecond.bounds t member).1.ne' none
      rw [if_neg waiting] at before
      rw [if_pos ((millisecond.active t member).mpr (Or.inr event)), if_pos event]
      omega
    · simp only [millisecond.active t member, event, or_false, if_false]
      omega

/-- Every job is finished when the next one is released. -/
theorem meets_deadlines (timeline : Timeline jobs n N s mid) (member : t ∈ userTcbs n)
    (costs : ∀ u ∈ userTcbs n, u ≤ t → ∀ i, jobs.length u i ≤ C u)
    (fits : ∃ y, 0 < y ∧ y ≤ jobs.period t ∧
      demand ((userTcbs n).filter (· ≤ t)) jobs.period C y ≤ y) (inside : x ≤ N) :
    (s x).released t = x / jobs.period t + 1 ∧ x / jobs.period t ≤ (s x).done t := by
  obtain ⟨y, some_time, early, fits⟩ := fits
  have released := timeline.released member
    (fun j within => timeline.left_eq_zero member costs some_time early fits within) inside
  refine ⟨released, ?_⟩
  rw [Timed.released] at released
  split at released <;> omega

end Timeline

/-- As long as the devices keep their periods, a task whose demand criterion holds meets all its
deadlines: it has finished the job of every event of its device when the next event comes, and
loses none. What the jobs of the less urgent tasks are does not matter. -/
theorem deadlines_met {C : TcbPtr → ℕ} (launched : Launched pf k n m)
    (positive : jobs.Positive n) (keeps : KeepsPeriods k.sysTime N) (member : t ∈ userTcbs n)
    (costs : ∀ u ∈ userTcbs n, u ≤ t → ∀ i, jobs.length u i ≤ C u)
    (fits : ∃ y, 0 < y ∧ y ≤ jobs.period t ∧
      demand ((userTcbs n).filter (· ≤ t)) jobs.period C y ≤ y) (inside : x ≤ N) :
    ∃ s, (Timed.start jobs m).run pf jobs x = .ok s ∧
      s.released t = x / jobs.period t + 1 ∧ x / jobs.period t ≤ s.done t := by
  obtain ⟨s, mid, timeline, ran⟩ := exists_timeline launched positive keeps
  exact ⟨s x, ran x inside, timeline.meets_deadlines member costs fits inside⟩

/-- Jobs of a millisecond, the first task for the device of 100 ms and the others for that of
200 ms. -/
def alternateJobs : Jobs where
  dev t := if t = 1 then 0 else 1
  length _ _ := 1

theorem deadlines_met_twoTasks :
    ∃ m, Launched exactPlatform boot.kernel 2 m ∧
      ∃ s, (Timed.start alternateJobs m).run exactPlatform alternateJobs 1000 = .ok s ∧
        s.released 2 = 1000 / alternateJobs.period 2 + 1 ∧
          1000 / alternateJobs.period 2 ≤ s.done 2 := by
  obtain ⟨m, launched⟩ := exists_launched boot.kernel
  exact ⟨m, launched, deadlines_met (C := fun _ => 1) launched (fun _ _ _ => Nat.one_pos)
    (keepsPeriods_of_le (by decide)) (by decide) (fun _ _ _ _ => le_rfl)
    ⟨2, by decide, by decide, by decide⟩ le_rfl⟩

end Gravel
