import Gravel.Kernel.Dispatch
import Gravel.Library.Chain
import Mathlib.Data.Fin.VecNotation
import Mathlib.Data.Rat.Floor

/-!
# Devices and the timer interrupt

The functions of `device.c`, `C_IRQ_handler`, `event_wait` of `proc.c`, and the OS
timer of `time.c`. A device keeps the tasks that wait for its next event in a chain of links;
`dev_update` drains the chain of every device that is due.

`dev_wait` enables interrupts between the insertion of the caller and its
`dispatch_sleep()`. `devWaitEnter` is the part before that point; the rest is
`dispatchSleep`.

## Main results

* `wakeWaiters_keeps` — what waking one waiter keeps, draining keeps
* `wakeWaiters_isOk` — draining ends, whatever the links are
-/

namespace Gravel

/-- Periods of the devices, in milliseconds. -/
def devFreq : DevPtr → UInt32 := ![100, 200, 500, 50]

def devInit (s : Kernel) : Kernel :=
  { s with devices := fun d => { sleepQueue := none, nextMatch := s.sysTime + devFreq d } }

/-- `dev_wait` up to `enable_interrupts()`: the caller becomes the first waiter. -/
def devWaitEnter (s : Kernel) (d : DevPtr) : Except Fault Kernel :=
  match s.curTcb with
  | none => .error .nullDeref
  | some cur =>
    -- In front of the waiters that are there already.
    let s := s.setTcb cur { s.systemTcb cur with sleepQueue := (s.devices d).sleepQueue }
    .ok (s.setDev d { s.devices d with sleepQueue := some cur })

/-- `event_wait`: an error code, or `none` with the caller inserted and about to
call `dispatch_sleep()`. -/
def eventWait (s : Kernel) (dev : UInt32) : Except Fault (Option ℤ × Kernel) :=
  match s.curTcb with
  | none => .error .nullDeref
  | some cur =>
    -- A lock holder is turned away before the device number is looked at.
    if (s.systemTcb cur).holdsLock ≠ 0 then .ok (some (-Config.eholdslock), s)
    else if inside : dev.toNat < Config.numDevices then
      match devWaitEnter s ⟨dev.toNat, inside⟩ with
      | .error fault => .error fault
      | .ok s => .ok (none, s)
    else .ok (some (-Config.einval), s)

/-- The statements of the `while` loop of `dev_update` for one waiter. -/
def wakeWaiter (s : Kernel) (t : TcbPtr) : Kernel :=
  let s := { s with runQueue := runqueueAdd s.runQueue t (s.systemTcb t).curPrio }
  s.setTcb t { s.systemTcb t with sleepQueue := none }

/-- The `while` loop of `dev_update`, with the flag `need_ctx`. -/
def wakeWaiters : ℕ → Option TcbPtr → Bool × Kernel → Except Fault (Bool × Kernel)
  | _, none, state => .ok state
  | 0, some _, _ => .error .divergence
  | fuel + 1, some t, (_, s) => wakeWaiters fuel (s.link t) (true, wakeWaiter s t)

/-- One round of the `for` loop of `dev_update`. -/
def updateDevice (millis : UInt32) (d : DevPtr) (state : Bool × Kernel) :
    Except Fault (Bool × Kernel) :=
  let device := state.2.devices d
  if device.nextMatch ≤ millis then
    match wakeWaiters (Config.osMaxTasks + 1) device.sleepQueue state with
    | .error fault => .error fault
    | .ok (needCtx, s) =>
      -- One period after the event that was due, which may be in the past still.
      .ok (needCtx, s.setDev d
        { sleepQueue := none, nextMatch := (s.devices d).nextMatch + devFreq d })
  else .ok state

/-- The `for` loop of `dev_update` over the listed devices. -/
def updateDevices (millis : UInt32) : List DevPtr → Bool × Kernel → Except Fault (Bool × Kernel)
  | [], state => .ok state
  | d :: rest, state =>
    match updateDevice millis d state with
    | .error fault => .error fault
    | .ok state => updateDevices millis rest state

def devUpdate (s : Kernel) (millis : UInt32) : Except Fault Kernel :=
  match updateDevices millis (List.finRange Config.numDevices) (false, s) with
  | .error fault => .error fault
  | .ok (needCtx, s) => if needCtx then dispatchSave s else .ok s

/-- The timer interrupt. -/
def cIrqHandler (s : Kernel) : Except Fault Kernel :=
  let s := { s with sysTime := s.sysTime + Config.timeResolution }
  devUpdate s s.sysTime

/-! ### The OS timer -/

/-- The OS timer: its counter as the kernel last read it, and the match register. -/
structure OsTimer where
  oscr : UInt32
  osmr : UInt32
  deriving DecidableEq, Repr

/-- Counts of the oscillator in a millisecond. -/
def ostmrFreqKhz : ℚ := 3686.4

/-- The product and the sum are taken in `double`, where they are exact for the periods the
kernel asks for. -/
def updateTimer (t : OsTimer) (millis : UInt32) : OsTimer :=
  { t with osmr := UInt32.ofNat ⌊(t.oscr.toNat : ℚ) + millis.toNat * ostmrFreqKhz⌋₊ }

/-- The timer registers after `init_timer`, which reads the counter at `oscr`. -/
def initTimer (oscr : UInt32) : OsTimer :=
  updateTimer { oscr := oscr, osmr := 0 } Config.timeResolution

/-- A timer interrupt is raised when the counter reaches the match register, and
`C_IRQ_handler` reads the counter some counts later. -/
def OsTimer.interrupt (t : OsTimer) (latency : UInt32) : OsTimer :=
  updateTimer { t with oscr := t.osmr + latency } Config.timeResolution

/-! ### Waking one waiter -/

section Simp

variable (s : Kernel) (t u : TcbPtr)

@[simp] theorem wakeWaiter_curTcb : (wakeWaiter s t).curTcb = s.curTcb := rfl
@[simp] theorem wakeWaiter_devices : (wakeWaiter s t).devices = s.devices := rfl
@[simp] theorem wakeWaiter_gtMutex : (wakeWaiter s t).gtMutex = s.gtMutex := rfl
@[simp] theorem wakeWaiter_sysTime : (wakeWaiter s t).sysTime = s.sysTime := rfl

@[simp] theorem wakeWaiter_runQueue :
    (wakeWaiter s t).runQueue = runqueueAdd s.runQueue t (s.systemTcb t).curPrio := rfl

@[simp] theorem wakeWaiter_link : (wakeWaiter s t).link = Function.update s.link t none := by
  simp only [wakeWaiter, Kernel.setTcb_link]
  rfl

/-- Apart from its link, every TCB is what it was. -/
theorem wakeWaiter_systemTcb :
    ∃ link, (wakeWaiter s t).systemTcb u = { s.systemTcb u with sleepQueue := link } := by
  by_cases h : u = t
  · subst h
    exact ⟨none, by simp [wakeWaiter]⟩
  · exact ⟨(s.systemTcb u).sleepQueue, by simp [wakeWaiter, Function.update_of_ne h]⟩

@[simp] theorem wakeWaiter_nativePrio :
    ((wakeWaiter s t).systemTcb u).nativePrio = (s.systemTcb u).nativePrio := by
  obtain ⟨link, h⟩ := wakeWaiter_systemTcb s t u
  rw [h]

@[simp] theorem wakeWaiter_curPrio :
    ((wakeWaiter s t).systemTcb u).curPrio = (s.systemTcb u).curPrio := by
  obtain ⟨link, h⟩ := wakeWaiter_systemTcb s t u
  rw [h]

@[simp] theorem wakeWaiter_holdsLock :
    ((wakeWaiter s t).systemTcb u).holdsLock = (s.systemTcb u).holdsLock := by
  obtain ⟨link, h⟩ := wakeWaiter_systemTcb s t u
  rw [h]

end Simp

/-- What waking one waiter keeps, the loop keeps. -/
theorem wakeWaiters_keeps {α : Type} {f : Kernel → α} (keeps : ∀ s t, f (wakeWaiter s t) = f s)
    {fuel : ℕ} {p : Option TcbPtr} {state state' : Bool × Kernel}
    (woken : wakeWaiters fuel p state = .ok state') : f state'.2 = f state.2 := by
  induction fuel generalizing p state with
  | zero =>
    cases p with
    | none =>
      obtain rfl := Except.ok.inj woken
      rfl
    | some t => simp [wakeWaiters] at woken
  | succ fuel ih =>
    cases p with
    | none =>
      obtain rfl := Except.ok.inj woken
      rfl
    | some t =>
      obtain ⟨flag, k⟩ := state
      rw [wakeWaiters] at woken
      exact (ih woken).trans (keeps k t)

/-! ### Draining ends -/

/-- The tasks whose link is not NULL. -/
def linkedTasks (s : Kernel) : Finset TcbPtr := Finset.univ.filter fun t => s.link t ≠ none

/-- Every round clears a link or stops at a NULL one, so draining needs at most
one round more than there are links. -/
theorem wakeWaiters_isOk {fuel : ℕ} {p : Option TcbPtr} {state : Bool × Kernel}
    (enough : (linkedTasks state.2).card < fuel) :
    ∃ state', wakeWaiters fuel p state = .ok state' := by
  induction fuel generalizing p state with
  | zero => simp at enough
  | succ fuel ih =>
    cases p with
    | none => exact ⟨state, rfl⟩
    | some t =>
      obtain ⟨flag, s⟩ := state
      cases next : s.link t with
      | none => exact ⟨(true, wakeWaiter s t), by simp only [wakeWaiters, next]⟩
      | some u =>
        -- The link of `t` was followed and is cleared, and no link is written besides.
        have fewer : linkedTasks (wakeWaiter s t) ⊂ linkedTasks s := by
          refine Finset.ssubset_iff_subset_ne.mpr ⟨fun v member => ?_, fun same => ?_⟩
          · by_cases h : v = t
            · subst h
              simp [linkedTasks] at member
            · simpa [linkedTasks, Function.update_of_ne h] using member
          · have inside : t ∈ linkedTasks s := by simp [linkedTasks, next]
            rw [← same] at inside
            simp [linkedTasks] at inside
        have less := Finset.card_lt_card fewer
        rw [wakeWaiters]
        exact ih (by simp only at enough ⊢; omega)

/-- The fuel `dev_update` is given is always enough. -/
theorem wakeWaiters_osMaxTasks_isOk (p : Option TcbPtr) (state : Bool × Kernel) :
    ∃ state', wakeWaiters (Config.osMaxTasks + 1) p state = .ok state' := by
  apply wakeWaiters_isOk
  have bound := Finset.card_le_univ (linkedTasks state.2)
  rw [Fintype.card_fin] at bound
  omega

end Gravel
