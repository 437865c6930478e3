import Gravel.Timing.Periodic

/-!
# Drift of the system clock

`C_IRQ_handler` sets the next match from the counter it reads, not from the match
that was due. Every interrupt is therefore late by all latencies before it:
`sys_time` counts 5 ms an interrupt, while 5 ms and a latency have passed.

## Main definitions

* `TimedStep` — steps of the machine, with the latency of every timer interrupt
* `latencies` — the latencies of a run
* `Clocked` — the two clocks after a run

## Main results

* `clocked_of_run` — the counter has run ahead by the sum of the latencies
* `Clocked.drift_iff`, `drift_iff_of_run` — the clocks stay within 10 ms exactly while that sum does
-/

namespace Gravel

open Library

/-- Counts in the period of the timer interrupt. -/
abbrev periodCounts : ℕ := 18432

/-- A step of the machine; a timer interrupt is handled with the given latency. -/
def TimedStep (pf : Platform) (s : Machine × OsTimer) (label : Label × UInt32)
    (s' : Machine × OsTimer) : Prop :=
  s.1.Step pf label.1 s'.1 ∧
    s'.2 = if label.1.1.isTick then s.2.interrupt label.2 else s.2

/-- The latencies of the timer interrupts of a run. -/
def latencies (w : List (Label × UInt32)) : List UInt32 :=
  w.filterMap fun label => if label.1.1.isTick then some label.2 else none

variable {pf : Platform} {start latency : UInt32} {t : OsTimer} {w : List (Label × UInt32)}
  {l : Label × UInt32} {s s' : Machine × OsTimer} {k k' : Kernel}

theorem latencies_snoc :
    latencies (w ++ [l]) = if l.1.1.isTick then latencies w ++ [l.2] else latencies w := by
  unfold latencies
  rw [List.filterMap_append]
  split <;> simp_all

/-! ### One interrupt -/

/-- The next match is 5 ms after the counter that was read. -/
theorem osmr_updateTimer (t : OsTimer) :
    (updateTimer t Config.timeResolution).osmr = t.oscr + UInt32.ofNat periodCounts := by
  have counts : (Config.timeResolution.toNat : ℚ) * ostmrFreqKhz = (periodCounts : ℕ) := by
    have five : Config.timeResolution.toNat = 5 := rfl
    rw [five, ostmrFreqKhz, periodCounts]
    norm_num
  rw [updateTimer, counts, ← Nat.cast_add, Nat.floor_natCast, UInt32.ofNat_add,
    UInt32.ofNat_toNat]

theorem oscr_interrupt (t : OsTimer) (latency : UInt32) :
    (t.interrupt latency).oscr = t.osmr + latency := rfl

theorem taskCreate_sysTime {mem : UserMem} {tasks numTasks : UInt32} {code : Option ℤ}
    (created : taskCreate pf mem k tasks numTasks = .ok (code, k')) :
    k'.sysTime = k.sysTime := by
  cases code with
  | none =>
    obtain ⟨-, ptrs, -, started⟩ := taskCreate_eq_ok_none created
    exact (dispatchNosave_onlySwitched started).sysTime.trans allocateTasks_frame.2.2.2
  | some code => rw [taskCreate_eq_ok_some created]

/-- Only timer interrupts move `sys_time`. -/
theorem Machine.Step.sysTime {s s' : Machine} {label : Label} (step : s.Step pf label s') :
    s'.kernel.sysTime =
      if label.1.isTick then s.kernel.sysTime + Config.timeResolution else s.kernel.sysTime := by
  by_cases create : label.1.isTaskCreate = false
  · have task : s.TaskStep pf label s' := ⟨step, create⟩
    by_cases event : label.1 = .tick
    · rw [event, (cIrqHandler_clock (task.tick event)).1]
      rfl
    · rw [(task.clock event).1]
      cases named : label.1 <;> simp_all [Event.isTick]
  · obtain ⟨-, executed⟩ := step
    obtain ⟨e, r⟩ := label
    have effect := exec_effect executed
    generalize s'.kernel = k at effect ⊢
    cases effect with
    | taskCreate created => exact taskCreate_sysTime created
    | _ => simp [Event.isTaskCreate] at create

/-- After the interrupts of a run `sys_time` is 5 ms for each of them, and unless it wraps
the counter has counted their periods and latencies. -/
structure Clocked (start : UInt32) (w : List (Label × UInt32)) (s : Machine × OsTimer) :
    Prop where
  sysTime : s.1.kernel.sysTime.toNat = 5 * (latencies w).length % 2 ^ 32
  osmr : s.2.osmr = s.2.oscr + UInt32.ofNat periodCounts
  oscr : s.2.oscr.toNat =
    (start.toNat + ((latencies w).map fun d => periodCounts + d.toNat).sum) % 2 ^ 32

theorem Clocked.step (clocked : Clocked start w s) (step : TimedStep pf s l s') :
    Clocked start (w ++ [l]) s' := by
  obtain ⟨taken, timer⟩ := step
  have time := taken.sysTime
  by_cases event : l.1.1.isTick = true
  · rw [if_pos event] at timer time
    refine ⟨?_, ?_, ?_⟩
    · rw [latencies_snoc, if_pos event, time, UInt32.toNat_add, clocked.sysTime,
        List.length_append, List.length_singleton]
      have five : Config.timeResolution.toNat = 5 := rfl
      omega
    · rw [timer]
      exact osmr_updateTimer _
    · rw [latencies_snoc, if_pos event, timer, oscr_interrupt, clocked.osmr, UInt32.toNat_add,
        UInt32.toNat_add, clocked.oscr, List.map_append, List.sum_append]
      simp
      omega
  · rw [if_neg event] at timer time
    have same : latencies (w ++ [l]) = latencies w := by rw [latencies_snoc, if_neg event]
    refine ⟨?_, ?_, ?_⟩
    · rw [same, time]
      exact clocked.sysTime
    · rw [timer]
      exact clocked.osmr
    · rw [same, timer]
      exact clocked.oscr

theorem clocked_of_run (run : Run (TimedStep pf) (boot, initTimer start) w s) :
    Clocked start w s := by
  apply Run.invariant_trace (Clocked start) run
  · intro w s l s' clocked step
    exact clocked.step step
  · refine ⟨rfl, osmr_updateTimer _, ?_⟩
    have bound := start.toNat_lt
    change start.toNat = (start.toNat + 0) % 2 ^ 32
    omega

/-! ### The difference -/

theorem sum_add_periodCounts (ds : List UInt32) :
    (ds.map fun d => periodCounts + d.toNat).sum =
      periodCounts * ds.length + (ds.map UInt32.toNat).sum := by
  induction ds with
  | nil => rfl
  | cons d ds ih =>
    rw [List.map_cons, List.sum_cons, ih, List.map_cons, List.sum_cons, List.length_cons,
      Nat.mul_add, Nat.mul_one]
    omega

/-- The counter is ahead of `sys_time` by the sum of the latencies. -/
theorem Clocked.drift_iff (clocked : Clocked start w s)
    (counts : start.toNat + ((latencies w).map fun d => periodCounts + d.toNat).sum < 2 ^ 32) :
    s.1.kernel.sysTime.toNat = 5 * (latencies w).length ∧
      (|(s.1.kernel.sysTime.toNat : ℚ) -
          ((s.2.oscr.toNat : ℚ) - start.toNat) * 5 / periodCounts| ≤ 10 ↔
        ((latencies w).map UInt32.toNat).sum ≤ 2 * periodCounts) := by
  have elapsed := clocked.oscr
  rw [Nat.mod_eq_of_lt counts, sum_add_periodCounts] at elapsed
  rw [sum_add_periodCounts] at counts
  have time := clocked.sysTime
  generalize (latencies w).length = n at counts elapsed time ⊢
  generalize ((latencies w).map UInt32.toNat).sum = late at counts elapsed ⊢
  have fewer : 5 * n ≤ periodCounts * n := Nat.mul_le_mul_right n (by decide)
  rw [Nat.mod_eq_of_lt (by omega)] at time
  refine ⟨time, ?_⟩
  have difference : (s.1.kernel.sysTime.toNat : ℚ) -
      ((s.2.oscr.toNat : ℚ) - start.toNat) * 5 / periodCounts = -(late * 5 / periodCounts) := by
    rw [time, elapsed]
    push_cast
    field_simp
    ring
  rw [difference, abs_neg, abs_of_nonneg (by positivity), div_le_iff₀ (by norm_num)]
  have scale : (late : ℚ) * 5 ≤ 10 * (periodCounts : ℕ) ↔ late * 5 ≤ 10 * periodCounts := by
    exact_mod_cast Iff.rfl
  rw [scale, periodCounts]
  omega

/-- Whatever the latencies, as long as the counter does not wrap: after the n-th timer
interrupt `sys_time` is 5 n, and it is within 10 ms of the time the counter has counted
exactly when the latencies have added up to at most that. -/
theorem drift_iff_of_run (run : Run (TimedStep pf) (boot, initTimer start) w s)
    (counts : start.toNat + ((latencies w).map fun d => periodCounts + d.toNat).sum < 2 ^ 32) :
    s.1.kernel.sysTime.toNat = 5 * (latencies w).length ∧
      (|(s.1.kernel.sysTime.toNat : ℚ) -
          ((s.2.oscr.toNat : ℚ) - start.toNat) * 5 / periodCounts| ≤ 10 ↔
        ((latencies w).map UInt32.toNat).sum ≤ 2 * periodCounts) :=
  (clocked_of_run run).drift_iff counts

/-! ### Interrupts without tasks -/

/-- With nobody waiting, the loop over the devices moves match values only. -/
theorem updateDevices_of_empty (millis : UInt32) (ds : List DevPtr)
    (empty : ∀ d, (k.devices d).sleepQueue = none) :
    ∃ k', updateDevices millis ds (false, k) = .ok (false, k') := by
  induction ds generalizing k with
  | nil => exact ⟨k, rfl⟩
  | cons d ds ih =>
    by_cases due : (k.devices d).nextMatch ≤ millis
    · let next := k.setDev d
        { sleepQueue := none, nextMatch := (k.devices d).nextMatch + devFreq d }
      have once : updateDevice millis d (false, k) = .ok (false, next) := by
        simp [updateDevice, due, empty, wakeWaiters, next]
      obtain ⟨k', rest⟩ := ih (k := next) (by
        intro e
        by_cases same : e = d
        · subst same
          simp [next]
        · simp [next, same, empty])
      exact ⟨k', by rw [updateDevices, once]; exact rest⟩
    · have once : updateDevice millis d (false, k) = .ok (false, k) := by
        simp [updateDevice, due]
      obtain ⟨k', rest⟩ := ih empty
      exact ⟨k', by rw [updateDevices, once]; exact rest⟩

theorem cIrqHandler_of_empty (empty : ∀ d, (k.devices d).sleepQueue = none) :
    ∃ k', cIrqHandler k = .ok k' ∧ ∀ d, (k'.devices d).sleepQueue = none := by
  obtain ⟨k', updated⟩ := updateDevices_of_empty (k.sysTime + Config.timeResolution)
    (List.finRange Config.numDevices) (k := { k with sysTime := k.sysTime + Config.timeResolution })
    empty
  have handled : cIrqHandler k = .ok k' := by
    simp [cIrqHandler, devUpdate, updated]
  refine ⟨k', handled, fun d => ?_⟩
  rw [(cIrqHandler_clock handled).2, Dev.update]
  split
  · rfl
  · exact empty d

/-- Any latencies occur: the boot program waits while the timer interrupts it. -/
theorem exists_run_of_latencies (pf : Platform) (start : UInt32) (ds : List UInt32) :
    ∃ w s, Run (TimedStep pf) (boot, initTimer start) w s ∧ latencies w = ds ∧
      ∀ d, (s.1.kernel.devices d).sleepQueue = none := by
  induction ds using List.reverseRecOn with
  | nil => exact ⟨[], _, .nil _, rfl, fun d => rfl⟩
  | append_singleton ds latency ih =>
    obtain ⟨w, s, run, same, empty⟩ := ih
    obtain ⟨k', handled, empty'⟩ := cIrqHandler_of_empty empty
    have taken : TimedStep pf s ((.tick, none), latency)
        ({ s.1 with kernel := k' }, s.2.interrupt latency) :=
      ⟨⟨trivial, by simp only [Machine.exec, handled]⟩, rfl⟩
    refine ⟨_, _, .snoc run taken, ?_, empty'⟩
    rw [latencies_snoc, same]
    rfl

theorem drift_iff_of_run_boot :
    ∃ w s, Run (TimedStep exactPlatform) (boot, initTimer 7) w s ∧ latencies w = [3, 5] ∧
      s.1.kernel.sysTime.toNat = 5 * (latencies w).length ∧
      |(s.1.kernel.sysTime.toNat : ℚ) - ((s.2.oscr.toNat : ℚ) - (7 : UInt32).toNat) * 5 /
        periodCounts| ≤ 10 := by
  obtain ⟨w, s, run, same, -⟩ := exists_run_of_latencies exactPlatform 7 [3, 5]
  obtain ⟨time, drift⟩ := drift_iff_of_run run (by rw [same]; decide)
  exact ⟨w, s, run, same, time, drift.mpr (by rw [same]; decide)⟩

/-- Three interrupts, each handled just before the next is due: `sys_time` is 15, and almost
30 ms have passed. -/
theorem sysTime_falls_behind :
    ∃ w s, Run (TimedStep exactPlatform) (boot, initTimer 0) w s ∧
      latencies w = [18431, 18431, 18431] ∧
      ¬ |(s.1.kernel.sysTime.toNat : ℚ) - ((s.2.oscr.toNat : ℚ) - (0 : UInt32).toNat) * 5 /
        periodCounts| ≤ 10 := by
  obtain ⟨w, s, run, same, -⟩ := exists_run_of_latencies exactPlatform 0 [18431, 18431, 18431]
  refine ⟨w, s, run, same, ?_⟩
  obtain ⟨-, drift⟩ := (clocked_of_run run).drift_iff (by rw [same]; decide)
  rw [drift, same]
  decide

end Gravel
