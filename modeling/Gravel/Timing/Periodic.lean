import Gravel.Library.WrappedTimer
import Gravel.Scheduling.Wipe

/-!
# Periods of the devices

`sys_time` and the `next_match` of a device in runs of the machine: a launch sets the
device one period ahead of the clock, a timer interrupt moves the clock and drains
the devices it has reached, and nothing else writes either. So a device is a
periodic timer on 32-bit counters, and loses its period where `next_match` wraps
at an earlier tick than `sys_time`.

## Main definitions

* `Kernel.SameClock` — the clock and the match values are untouched
* `Machine.MatchStep` — a step, with whether it matched the device
* `ticks` — what the device did at the timer interrupts of a run

## Main results

* `cIrqHandler_clock` — what a timer interrupt does to the clock and the devices
* `ticks_of_run` — the device follows the comparison of the wrapped values
* `punctual_iff_of_run` — it keeps its period exactly while they wrap together
-/

namespace Gravel

open Library

/-- The clock and the match values are what they were. -/
def Kernel.SameClock (k k' : Kernel) : Prop :=
  k'.sysTime = k.sysTime ∧ ∀ d, (k'.devices d).nextMatch = (k.devices d).nextMatch

variable {k k' k'' : Kernel} {d : DevPtr} {millis : UInt32}

theorem Kernel.SameClock.refl (k : Kernel) : k.SameClock k := ⟨rfl, fun _ => rfl⟩

theorem Kernel.SameClock.trans (first : k.SameClock k') (second : k'.SameClock k'') :
    k.SameClock k'' :=
  ⟨second.1.trans first.1, fun d => (second.2 d).trans (first.2 d)⟩

theorem Kernel.OnlyLocks.clock (only : k.OnlyLocks k') : k.SameClock k' :=
  ⟨only.sysTime, fun d => by rw [only.devices]⟩

/-! ### System calls -/

theorem mutexCreate_clock : k.SameClock (mutexCreate k).2 := by
  unfold mutexCreate
  split <;> exact .refl k

/-- The caller becomes the first waiter of a device that keeps its match value. -/
theorem devWaitEnter_clock (entered : devWaitEnter k d = .ok k') : k.SameClock k' := by
  unfold devWaitEnter at entered
  split at entered
  · simp at entered
  · obtain rfl := Except.ok.inj entered
    refine ⟨rfl, fun e => ?_⟩
    by_cases same : e = d
    · subst same
      simp
    · simp [same]

theorem eventWait_clock {dev : UInt32} {code : Option ℤ}
    (waited : eventWait k dev = .ok (code, k')) : k.SameClock k' := by
  unfold eventWait at waited
  split at waited
  · simp at waited
  · split at waited
    · obtain ⟨-, rfl⟩ := Prod.mk.inj (Except.ok.inj waited)
      exact .refl k
    · split at waited
      · split at waited
        · simp at waited
        · rename_i entered
          obtain ⟨-, rfl⟩ := Prod.mk.inj (Except.ok.inj waited)
          exact devWaitEnter_clock entered
      · obtain ⟨-, rfl⟩ := Prod.mk.inj (Except.ok.inj waited)
        exact .refl k

/-! ### The timer interrupt -/

/-- The device once the clock reads `millis`. -/
def Dev.update (dev : Dev) (d : DevPtr) (millis : UInt32) : Dev :=
  if dev.nextMatch ≤ millis then
    { sleepQueue := none, nextMatch := dev.nextMatch + devFreq d }
  else dev

/-- One round of the loop writes its own device. -/
theorem updateDevice_devices {state state' : Bool × Kernel}
    (updated : updateDevice millis d state = .ok state') :
    state'.2.sysTime = state.2.sysTime ∧
      state'.2.devices =
        Function.update state.2.devices d ((state.2.devices d).update d millis) := by
  simp only [updateDevice] at updated
  split at updated
  · rename_i due
    split at updated
    · simp at updated
    · rename_i flag k woken
      obtain rfl := Except.ok.inj updated
      have devices : k.devices = state.2.devices :=
        wakeWaiters_keeps (fun s t => wakeWaiter_devices s t) woken
      have time : k.sysTime = state.2.sysTime :=
        wakeWaiters_keeps (fun s t => wakeWaiter_sysTime s t) woken
      refine ⟨time, ?_⟩
      rw [Kernel.setDev_devices, devices, Dev.update, if_pos due]
  · rename_i early
    obtain rfl := Except.ok.inj updated
    refine ⟨rfl, ?_⟩
    rw [Dev.update, if_neg early, Function.update_eq_self]

theorem updateDevices_devices {ds : List DevPtr} (once : ds.Nodup) {state state' : Bool × Kernel}
    (updated : updateDevices millis ds state = .ok state') :
    state'.2.sysTime = state.2.sysTime ∧
      ∀ d, state'.2.devices d =
        if d ∈ ds then (state.2.devices d).update d millis else state.2.devices d := by
  induction ds generalizing state with
  | nil =>
    obtain rfl := Except.ok.inj updated
    simp
  | cons e ds ih =>
    obtain ⟨new, once⟩ := List.nodup_cons.mp once
    rw [updateDevices] at updated
    split at updated
    · simp at updated
    · rename_i one first
      obtain ⟨time, devices⟩ := updateDevice_devices first
      obtain ⟨time', devices'⟩ := ih once updated
      refine ⟨time'.trans time, fun d => ?_⟩
      rw [devices', devices]
      by_cases same : d = e
      · subst same
        simp [new]
      · simp [same]

theorem cIrqHandler_clock (handled : cIrqHandler k = .ok k') :
    k'.sysTime = k.sysTime + Config.timeResolution ∧
      ∀ d, k'.devices d = (k.devices d).update d (k.sysTime + Config.timeResolution) := by
  simp only [cIrqHandler, devUpdate] at handled
  split at handled
  · simp at handled
  · rename_i needCtx k'' updated
    obtain ⟨time, devices⟩ := updateDevices_devices (List.nodup_finRange _) updated
    have before : k''.sysTime = k.sysTime + Config.timeResolution ∧
        ∀ d, k''.devices d = (k.devices d).update d (k.sysTime + Config.timeResolution) :=
      ⟨time, fun d => by simpa using devices d⟩
    split at handled
    · have only := dispatchSave_onlySwitched handled
      rw [only.sysTime, only.devices]
      exact before
    · obtain rfl := Except.ok.inj handled
      exact before

/-! ### Steps of the machine -/

variable {pf : Platform} {s s₀ s' : Machine} {label : Label} {e : Event} {r : Option Return}

/-- Apart from timer interrupts no step touches the clock or a match value. -/
theorem Machine.Effect.clock (effect : s.Effect pf e r k) (create : e.isTaskCreate = false)
    (event : e ≠ .tick) : s.kernel.SameClock k := by
  cases effect with
  | mutexCreate => exact mutexCreate_clock
  | mutexLock called => exact (mutexLock_onlyLocks called).clock
  | asleep called => exact (mutexLock_onlyLocks called).clock
  | mutexUnlock called => exact (mutexUnlock_onlyLocks called).clock
  | eventWait waited => exact eventWait_clock waited
  | taskCreate => simp [Event.isTaskCreate] at create
  | user => exact .refl _
  | devWait _ slept => exact (dispatchSleep_onlySwitched slept).onlyLocks.clock
  | lockTail => exact mutexLockTail_onlyLocks.clock
  | tick => exact absurd rfl event

theorem Machine.TaskStep.clock (step : s.TaskStep pf label s') (event : label.1 ≠ .tick) :
    s.kernel.SameClock s'.kernel :=
  (exec_effect step.1.2).clock step.2 event

theorem Machine.TaskStep.tick (step : s.TaskStep pf label s') (event : label.1 = .tick) :
    cIrqHandler s.kernel = .ok s'.kernel := by
  obtain ⟨e, r⟩ := label
  obtain rfl : e = .tick := event
  have effect := exec_effect step.1.2
  generalize s'.kernel = k at effect ⊢
  cases effect with
  | tick handled => exact handled

/-- The step drained the device and advanced its match value by one period. -/
def Matched (d : DevPtr) (s s' : Machine) : Prop :=
  s'.kernel.devices d =
    { sleepQueue := none, nextMatch := (s.kernel.devices d).nextMatch + devFreq d }

instance (d : DevPtr) (s s' : Machine) : Decidable (Matched d s s') :=
  inferInstanceAs (Decidable (_ = _))

/-- A step, labelled with whether it matched the device. -/
def Machine.MatchStep (pf : Platform) (d : DevPtr) (s : Machine) (label : Label × Bool)
    (s' : Machine) : Prop :=
  s.TaskStep pf label.1 s' ∧ label.2 = decide (Matched d s s')

def Event.isTick : Event → Bool
  | .tick => true
  | _ => false

/-- What the device did at the timer interrupts of a run. -/
def ticks (w : List (Label × Bool)) : List Bool :=
  w.filterMap fun label => if label.1.1.isTick then some label.2 else none

theorem ticks_snoc (w : List (Label × Bool)) (label : Label × Bool) :
    ticks (w ++ [label]) = if label.1.1.isTick then ticks w ++ [label.2] else ticks w := by
  unfold ticks
  rw [List.filterMap_append]
  split <;> simp_all

/-- Periods are multiples of the timer's resolution. -/
theorem devFreq_eq (d : DevPtr) :
    (devFreq d).toNat = 5 * ((devFreq d).toNat / 5) ∧ 0 < (devFreq d).toNat / 5 ∧
      (devFreq d).toNat < 2 ^ 32 := by
  revert d
  decide

theorem devFreq_ne_zero (d : DevPtr) : devFreq d ≠ 0 := by
  revert d
  decide

theorem matched_iff_le (handled : cIrqHandler s.kernel = .ok s'.kernel) :
    Matched d s s' ↔
      (s.kernel.devices d).nextMatch ≤ s.kernel.sysTime + Config.timeResolution := by
  obtain ⟨-, devices⟩ := cIrqHandler_clock handled
  rw [Matched, devices d, Dev.update]
  split
  · rename_i due
    simp [due]
  · rename_i early
    simp only [early, iff_false]
    intro same
    -- A period is not 0, so an unchanged match value has not been advanced.
    have advanced := congrArg Dev.nextMatch same
    exact devFreq_ne_zero d (by simpa using advanced)

/-! ### Runs -/

/-- The clock and the device are the counters of a periodic timer set at `start`. -/
structure Periodic (d : DevPtr) (start : UInt32) (w : List (Label × Bool)) (s : Machine) :
    Prop where
  time : s.kernel.sysTime.toNat = (start.toNat + 5 * (ticks w).length) % 2 ^ 32
  nextMatch : (s.kernel.devices d).nextMatch.toNat =
    (start.toNat + 5 * ((devFreq d).toNat / 5) * ((ticks w).count true + 1)) % 2 ^ 32
  ticks : Ticks (2 ^ 32) 5 ((devFreq d).toNat / 5) start.toNat (ticks w)

variable {start : UInt32} {w : List (Label × Bool)} {l : Label × Bool}

/-- A timer interrupt is one more tick of the timer. -/
theorem Periodic.tick (periodic : Periodic d start w s)
    (handled : cIrqHandler s.kernel = .ok s'.kernel) {r : Option Return} :
    Periodic d start (w ++ [((.tick, r), decide (Matched d s s'))]) s' := by
  obtain ⟨time, devices⟩ := cIrqHandler_clock handled
  obtain ⟨period, -, -⟩ := devFreq_eq d
  have later : (s.kernel.sysTime + Config.timeResolution).toNat =
      (start.toNat + 5 * ((Gravel.ticks w).length + 1)) % 2 ^ 32 := by
    have five : Config.timeResolution.toNat = 5 := rfl
    rw [UInt32.toNat_add, periodic.time, five]
    omega
  have compare : Matched d s s' ↔
      Fires (2 ^ 32) 5 ((devFreq d).toNat / 5) start.toNat (Gravel.ticks w) := by
    rw [matched_iff_le handled, UInt32.le_iff_toNat_le, periodic.nextMatch, later, Fires]
  have one : Gravel.ticks (w ++ [((.tick, r), decide (Matched d s s'))]) =
      Gravel.ticks w ++ [decide (Fires (2 ^ 32) 5 ((devFreq d).toNat / 5) start.toNat
        (Gravel.ticks w))] := by
    rw [ticks_snoc, decide_eq_decide.mpr compare]
    rfl
  refine ⟨?_, ?_, ?_⟩
  · rw [one, time, later, List.length_append, List.length_singleton]
  · rw [one, List.count_append]
    by_cases matched : Matched d s s'
    · -- The match value moves on by one period.
      have fires := compare.mp matched
      have value := congrArg Dev.nextMatch matched
      dsimp only at value
      rw [value, UInt32.toNat_add, periodic.nextMatch]
      simp only [fires, decide_true, List.count_singleton_self]
      generalize (devFreq d).toNat / 5 = g at period ⊢
      rw [period, Nat.mul_add (5 * g) (_ + 1) 1, Nat.mul_one]
      omega
    · have early := compare.not.mp matched
      rw [matched_iff_le handled] at matched
      rw [devices, Dev.update, if_neg matched, periodic.nextMatch, decide_eq_false early]
      rfl
  · rw [one]
    exact periodic.ticks.snoc

theorem Periodic.step (periodic : Periodic d start w s) (taken : s.MatchStep pf d l s') :
    Periodic d start (w ++ [l]) s' := by
  obtain ⟨taken, flag⟩ := taken
  obtain ⟨⟨e, r⟩, matched⟩ := l
  obtain rfl : matched = decide (Matched d s s') := flag
  by_cases event : e = .tick
  · subst event
    exact periodic.tick (taken.tick rfl)
  · obtain ⟨time, nextMatch⟩ := taken.clock event
    have same : Gravel.ticks (w ++ [((e, r), decide (Matched d s s'))]) = Gravel.ticks w := by
      rw [ticks_snoc]
      cases e <;> simp_all [Event.isTick]
    refine ⟨?_, ?_, ?_⟩
    · rw [same, time]
      exact periodic.time
    · rw [same, nextMatch]
      exact periodic.nextMatch
    · rw [same]
      exact periodic.ticks

/-- `dev_init` sets every device one period ahead of the clock. -/
theorem Launched.periodic {n : ℕ} (launched : Launched pf k n s) (d : DevPtr) :
    Periodic d k.sysTime [] s := by
  obtain ⟨mem, tasks, numTasks, -, created, -⟩ := launched
  obtain ⟨-, ptrs, -, started⟩ := taskCreate_eq_ok_none created
  have only := dispatchNosave_onlySwitched started
  obtain ⟨period, -, -⟩ := devFreq_eq d
  refine ⟨?_, ?_, .nil⟩
  · rw [only.sysTime, allocateTasks_frame.2.2.2]
    have bound := k.sysTime.toNat_lt
    change k.sysTime.toNat = (k.sysTime.toNat + 0) % 2 ^ 32
    omega
  · rw [only.devices, allocateTasks_frame.2.1]
    change (k.sysTime + devFreq d).toNat = _
    rw [UInt32.toNat_add, ← period, ticks, List.filterMap_nil, List.count_nil, Nat.zero_add,
      Nat.mul_one]

theorem Launched.periodic_of_run {n : ℕ} (launched : Launched pf k n s₀)
    (run : Run (fun s l s' => s.MatchStep pf d l s') s₀ w s) : Periodic d k.sysTime w s := by
  apply Run.invariant_trace (Periodic d k.sysTime) run
  · intro w s l s' periodic taken
    exact periodic.step taken
  · exact launched.periodic d

/-- A launched task set can take any number of timer interrupts. -/
theorem Launched.exists_ticks {n : ℕ} (launched : Launched pf k n s₀) (d : DevPtr) (m : ℕ) :
    ∃ w s v, Run (fun s l s' => s.MatchStep pf d l s') s₀ w s ∧ (ticks w).length = m ∧
      Represents (liveTcbs n) k.stale v s ∧ v.Inv (liveTcbs n) idleTcb := by
  induction m with
  | zero =>
    exact ⟨[], s₀, View.launch n, .nil s₀, rfl, launched.represents, View.inv_launch⟩
  | succ m ih =>
    obtain ⟨w, s, v, run, count, rep, inv⟩ := ih
    obtain ⟨v', s', r, executed, move, rep'⟩ :=
      rep.exec (e := .tick) pf inv trivial trivial rfl
    have taken : s.TaskStep pf (.tick, r) s' := ⟨⟨trivial, executed⟩, rfl⟩
    refine ⟨w ++ [((.tick, r), decide (Matched d s s'))], s', v', .snoc run ⟨taken, rfl⟩, ?_, rep',
      move.inv inv⟩
    rw [ticks_snoc]
    simp [Event.isTick, count]

theorem punctual_iff_of_periodic (periodic : Periodic d start w s) :
    Punctual 5 (devFreq d).toNat (ticks w) ↔
      ∀ n, 0 < n → n ≤ (ticks w).length →
        WrapTogether (2 ^ 32) 5 (devFreq d).toNat start.toNat n := by
  obtain ⟨period, positive, bound⟩ := devFreq_eq d
  have iff := periodic.ticks.punctual_iff (by decide) positive (by omega)
  rwa [← period] at iff

/-- From any `sys_time` at launch and for every run: the device matches once in every whole
period after the launch, up to the last timer interrupt of the run, exactly when at none of
them its match value lies beyond a wrap of the counters that `sys_time` has not reached. -/
theorem punctual_iff_of_run {n : ℕ} (launched : Launched pf k n s₀)
    (run : Run (fun s l s' => s.MatchStep pf d l s') s₀ w s) :
    Punctual 5 (devFreq d).toNat (ticks w) ↔
      ∀ n, 0 < n → n ≤ (ticks w).length →
        WrapTogether (2 ^ 32) 5 (devFreq d).toNat k.sysTime.toNat n :=
  punctual_iff_of_periodic (launched.periodic_of_run run)

/-! ### The first wrap -/

theorem exists_launched (k : Kernel) : ∃ s, Launched exactPlatform k 2 s := by
  obtain ⟨k', task, created, -⟩ := accepted_twoTasks.taskCreate_start (k := k)
  exact ⟨⟨k', fun _ => .user⟩, twoTasks, Config.usrStartAddr, 2, rfl, created, rfl⟩

theorem punctual_iff_of_run_boot :
    ∃ w, (ticks w).length = 20 ∧ (Punctual 5 (devFreq 3).toNat (ticks w) ↔
      ∀ n, 0 < n → n ≤ (ticks w).length →
        WrapTogether (2 ^ 32) 5 (devFreq 3).toNat boot.kernel.sysTime.toNat n) := by
  obtain ⟨s₀, launched⟩ := exists_launched boot.kernel
  obtain ⟨w, s, v, run, count, -⟩ := launched.exists_ticks 3 20
  exact ⟨w, count, punctual_iff_of_run launched run⟩

/-- The kernel 46 ms before `sys_time` wraps. -/
def lateKernel : Kernel := { boot.kernel with sysTime := 4294967250 }

/-- Launched 46 ms before the wrap, the device of 50 ms matches at the first tick. -/
theorem device_matches_early :
    ∃ s₀ w s, Launched exactPlatform lateKernel 2 s₀ ∧
      Run (fun s l s' => s.MatchStep exactPlatform 3 l s') s₀ w s ∧ ticks w = [true] ∧
      ¬ Punctual 5 (devFreq 3).toNat (ticks w) := by
  obtain ⟨s₀, launched⟩ := exists_launched lateKernel
  obtain ⟨w, s, v, run, count, -⟩ := launched.exists_ticks 3 1
  have first : ticks w = [true] := by
    have timer := (launched.periodic_of_run run).ticks
    generalize ticks w = flags at count timer
    cases timer with
    | nil => simp at count
    | @snoc flags timer =>
      obtain rfl : flags = [] := by simpa using count
      decide
  refine ⟨s₀, w, s, launched, run, first, fun punctual => ?_⟩
  rw [first] at punctual
  exact absurd (punctual 1 le_rfl) (by decide)

end Gravel
