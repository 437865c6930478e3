import Gravel.Scheduling.Representation

/-!
# The state a task set starts in

What `task_create` leaves when it succeeds, from any state: the TCBs `1` to `n` and
the idle TCB are runnable, the most urgent one runs, and no device has a waiter.
The mutexes are untouched, so those that were not free are stale.

## Main definitions

* `liveTcbs` — the TCBs of a set of `n` tasks, and the idle TCB
* `Launched` — a successful `task_create`, as a relation between states
* `View.launch` — the scheduler state it leaves

## Main results

* `allocateLoop_systemTcb`, `allocateTasks_holds` — what `allocate_tasks` writes
* `Launched.represents`, `View.inv_launch` — the start of all runs
-/

namespace Gravel

open Library

/-- The TCBs of a set of `n` tasks, and the idle TCB. -/
def liveTcbs (n : ℕ) : Finset TcbPtr :=
  Finset.univ.filter fun t => 1 ≤ t.val ∧ t.val ≤ n ∨ t = idleTcb

@[simp] theorem mem_liveTcbs {n : ℕ} {t : TcbPtr} :
    t ∈ liveTcbs n ↔ 1 ≤ t.val ∧ t.val ≤ n ∨ t = idleTcb := by
  simp [liveTcbs]

theorem idleTcb_mem_liveTcbs (n : ℕ) : idleTcb ∈ liveTcbs n := mem_liveTcbs.mpr (Or.inr rfl)

variable {pf : Platform} {task : ℕ → Task} {n p : ℕ} {s : Kernel} {t : TcbPtr}

theorem tcbOf_val (inside : p < Config.osMaxTasks) : (tcbOf p).val = p := by
  simp only [tcbOf, Fin.val_ofNat]
  exact Nat.mod_eq_of_lt inside

theorem tcbOf_eq_iff (inside : p < Config.osMaxTasks) : tcbOf p = t ↔ p = t.val := by
  rw [Fin.ext_iff, tcbOf_val inside]

/-! ### The loop of `allocate_tasks` -/

theorem allocateLoop_frame :
    (allocateLoop pf task n s).curTcb = s.curTcb ∧
      (allocateLoop pf task n s).devices = s.devices ∧
      (allocateLoop pf task n s).gtMutex = s.gtMutex ∧
      (allocateLoop pf task n s).sysTime = s.sysTime := by
  induction n generalizing s with
  | zero => exact ⟨rfl, rfl, rfl, rfl⟩
  | succ n ih => exact ih

/-- TCB `i` is launched with the task at index `i - 1`. -/
theorem allocateLoop_systemTcb (bound : n < Config.osMaxTasks) :
    (allocateLoop pf task n s).systemTcb t =
      if 1 ≤ t.val ∧ t.val ≤ n then launchTcb pf (task (t.val - 1)) t.val (s.systemTcb t)
      else s.systemTcb t := by
  induction n generalizing s with
  | zero =>
    rw [if_neg (by omega)]
    rfl
  | succ n ih =>
    rw [allocateLoop, ih (by omega)]
    -- The loop counts down, so TCB `n + 1` is written first and not again.
    by_cases own : t.val = n + 1
    · obtain rfl : tcbOf (n + 1) = t := (tcbOf_eq_iff bound).mpr own.symm
      rw [tcbOf_val bound, if_neg (by omega), if_pos (by omega)]
      simp [allocateTask]
    · have other : t ≠ tcbOf (n + 1) := fun same => own ((tcbOf_eq_iff bound).mp same.symm).symm
      have kept : (allocateTask pf (task n) n s).systemTcb t = s.systemTcb t := by
        simp [allocateTask, other]
      rw [kept]
      exact if_congr (by omega) rfl rfl

theorem allocateLoop_slot :
    (allocateLoop pf task n s).runQueue.slot p =
      if 1 ≤ p ∧ p ≤ n then some (tcbOf p) else s.runQueue.slot p := by
  induction n generalizing s with
  | zero =>
    rw [if_neg (by omega)]
    rfl
  | succ n ih =>
    rw [allocateLoop, ih]
    by_cases own : p = n + 1
    · subst own
      rw [if_neg (by omega), if_pos (by omega)]
      simp [allocateTask, slot_runqueueAdd]
    · have kept : (allocateTask pf (task n) n s).runQueue.slot p = s.runQueue.slot p := by
        simp [allocateTask, slot_runqueueAdd, own]
      rw [kept]
      exact if_congr (by omega) rfl rfl

theorem allocateLoop_wf (bound : n < Config.osMaxTasks) (wf : s.runQueue.Wf) :
    (allocateLoop pf task n s).runQueue.Wf := by
  induction n generalizing s with
  | zero => exact wf
  | succ n ih => exact ih (by omega) (wf.runqueueAdd bound)

/-- The loop fills empty slots. -/
theorem allocateLoop_added (bound : n < Config.osMaxTasks)
    (empty : ∀ p ≤ n, s.runQueue.slot p = none) (ok : ∀ call ∈ s.runQueue.added, call.Ok) :
    ∀ call ∈ (allocateLoop pf task n s).runQueue.added, call.Ok := by
  induction n generalizing s with
  | zero => exact ok
  | succ n ih =>
    refine ih (by omega) (fun p inside => ?_) ?_
    · have other : p ≠ n + 1 := by omega
      simpa [allocateTask, slot_runqueueAdd, other] using empty p (by omega)
    · simp only [allocateTask, added_runqueueAdd, List.forall_mem_append,
        List.forall_mem_singleton]
      exact ⟨ok, bound, Or.inl (empty (n + 1) le_rfl)⟩

/-! ### `allocate_tasks` -/

theorem allocateTasks_frame :
    (allocateTasks pf task n s).curTcb = s.curTcb ∧
      (allocateTasks pf task n s).devices = s.devices ∧
      (allocateTasks pf task n s).gtMutex = s.gtMutex ∧
      (allocateTasks pf task n s).sysTime = s.sysTime :=
  allocateLoop_frame (s := { s with runQueue := runqueueInit s.runQueue })

theorem size_of_bound (bound : n ≤ Config.osAvailTasks) : n < Config.osMaxTasks :=
  lt_of_le_of_lt bound (by decide)

theorem allocateTasks_systemTcb (bound : n ≤ Config.osAvailTasks)
    (task_tcb : 1 ≤ t.val ∧ t.val ≤ n) :
    (allocateTasks pf task n s).systemTcb t =
      launchTcb pf (task (t.val - 1)) t.val (s.systemTcb t) := by
  have small : n ≤ 62 := bound
  have other : t ≠ idleTcb := by
    rintro rfl
    have : (63 : ℕ) ≤ n := task_tcb.2
    omega
  simp only [allocateTasks, allocateIdle, Kernel.setTcb_systemTcb, Function.update_of_ne other]
  rw [allocateLoop_systemTcb (size_of_bound bound), if_pos task_tcb]

/-- Every live TCB starts at its index as priority, without locks. -/
theorem allocateTasks_live (bound : n ≤ Config.osAvailTasks) (member : t ∈ liveTcbs n) :
    ((allocateTasks pf task n s).systemTcb t).nativePrio = t.val ∧
      ((allocateTasks pf task n s).systemTcb t).curPrio = t.val ∧
      ((allocateTasks pf task n s).systemTcb t).holdsLock = 0 := by
  rcases mem_liveTcbs.mp member with task_tcb | rfl
  · rw [allocateTasks_systemTcb bound task_tcb]
    exact ⟨rfl, rfl, rfl⟩
  · simp [allocateTasks, allocateIdle]

theorem allocateTasks_wf (bound : n ≤ Config.osAvailTasks) :
    (allocateTasks pf task n s).runQueue.Wf := by
  exact (allocateLoop_wf (size_of_bound bound) wf_runqueueInit).runqueueAdd (by decide)

/-- The queue was emptied, so its slots are what the loop and the idle task filled. -/
theorem allocateTasks_slot (inside : p < Config.osMaxTasks) :
    (allocateTasks pf task n s).runQueue.slot p =
      if p = Config.idlePrio then some idleTcb
      else if 1 ≤ p ∧ p ≤ n then some (tcbOf p) else none := by
  simp only [allocateTasks, allocateIdle, slot_runqueueAdd, Kernel.setTcb_runQueue,
    allocateLoop_slot, slot_runqueueInit inside]

/-- The run queue holds the new tasks and the idle task. -/
theorem allocateTasks_holds (bound : n ≤ Config.osAvailTasks) :
    (allocateTasks pf task n s).runQueue.Holds (liveTcbs n) := by
  have small : n ≤ 62 := bound
  intro p inside t
  rw [allocateTasks_slot inside, mem_liveTcbs]
  by_cases idle : p = 63
  · subst idle
    rw [if_pos rfl, Option.some.injEq]
    constructor
    · rintro rfl
      exact ⟨rfl, Or.inr rfl⟩
    · rintro ⟨index, -⟩
      exact (Fin.ext index).symm
  · rw [if_neg idle]
    by_cases queued : 1 ≤ p ∧ p ≤ n
    · rw [if_pos queued, Option.some.injEq, tcbOf_eq_iff inside]
      constructor
      · rintro rfl
        exact ⟨rfl, Or.inl queued⟩
      · exact fun h => h.1.symm
    · rw [if_neg queued]
      constructor
      · simp
      · rintro ⟨rfl, task_tcb | rfl⟩
        · exact absurd task_tcb queued
        · exact absurd rfl idle

theorem allocateTasks_added (bound : n ≤ Config.osAvailTasks) :
    ∀ call ∈ (allocateTasks pf task n s).runQueue.added, call.Ok := by
  have small : n ≤ 62 := bound
  have empty (p : ℕ) (inside : p < Config.osMaxTasks) :
      (runqueueInit s.runQueue).slot p = none := slot_runqueueInit inside
  simp only [allocateTasks, allocateIdle, added_runqueueAdd, List.forall_mem_append,
    List.forall_mem_singleton]
  refine ⟨allocateLoop_added (size_of_bound bound) (fun p inside => ?_) (by simp), idleTcb.isLt, ?_⟩
  · exact empty p (inside.trans_lt (size_of_bound bound))
  · left
    rw [Kernel.setTcb_runQueue, allocateLoop_slot, if_neg (show ¬ (1 ≤ 63 ∧ 63 ≤ n) by omega)]
    exact empty _ (by decide)

/-! ### `task_create` -/

variable {mem : UserMem} {tasks numTasks : UInt32} {k : Kernel} {s' : Machine}

/-- The statements of `task_create` on a set that is accepted. -/
theorem taskCreate_eq_ok_none {k' : Kernel}
    (created : taskCreate pf mem k tasks numTasks = .ok (none, k')) :
    numTasks.toNat ≤ Config.osAvailTasks ∧ ∃ ptrs : ℕ → UInt32,
      assignSchedule pf.float (readTask mem) (fun i => tasks + sizeofTask * UInt32.ofNat i)
        numTasks.toNat = (true, ptrs) ∧
      schedInit (allocateTasks pf (fun j => readTask mem (ptrs j)) numTasks.toNat (devInit k)) =
        .ok k' := by
  -- Every check that fails returns a code, so all of them have passed.
  unfold taskCreate at created
  split at created
  · simp at created
  · rename_i bound
    refine ⟨not_lt.mp bound, ?_⟩
    split at created
    · simp at created
    · dsimp only at created
      split at created
      · simp at created
      · rename_i accepted
        refine ⟨_, Prod.ext (by simpa using accepted) rfl, ?_⟩
        split at created
        · simp at created
        · rename_i started
          simp only [Except.ok.injEq, Prod.mk.injEq, true_and] at created
          rw [started, created]

/-- The most urgent live task runs, the others are ready. -/
def View.launch (n : ℕ) : View :=
  let first := (liveTcbs n).min' ⟨idleTcb, idleTcb_mem_liveTcbs n⟩
  { cur := first, ready := (liveTcbs n).erase first, waits := fun _ => [], window := ∅, locks := ∅ }

theorem View.isLeast_launch : IsLeast (liveTcbs n : Set TcbPtr) (View.launch n).cur :=
  (liveTcbs n).isLeast_min' ⟨idleTcb, idleTcb_mem_liveTcbs n⟩

theorem View.inv_launch : (View.launch n).Inv (liveTcbs n) idleTcb where
  cur_live := View.isLeast_launch.1
  ready_live := Finset.erase_subset _ _
  waits_live := nofun
  disjoint := nofun
  asleep := nofun
  running _ := Finset.notMem_erase _ _
  inside := nofun
  awake := nofun
  idle_window := nofun
  idle_present := by
    by_cases same : idleTcb = (View.launch n).cur
    · exact Or.inl same
    · exact Or.inr (Finset.mem_erase.mpr ⟨same, idleTcb_mem_liveTcbs n⟩)
  window_locks := nofun
  least := nofun

theorem View.placed_launch : (View.launch n).Placed (liveTcbs n) := by
  intro t member
  by_cases same : t = (View.launch n).cur
  · exact Or.inl same
  · exact Or.inr (Or.inl (Finset.mem_erase.mpr ⟨same, member⟩))

theorem View.ordered_launch : (View.launch n).Ordered :=
  fun _ _ _ member => View.isLeast_launch.2 (Finset.mem_of_mem_erase member)

/-- What the first task of a set finds, when `task_create` was called in `k`. -/
structure Start (pf : Platform) (task : ℕ → Task) (n : ℕ) (k s : Kernel) : Prop where
  bound : n ≤ Config.osAvailTasks
  cur : s.curTcb = some (View.launch n).cur
  wf : s.runQueue.Wf
  holds : s.runQueue.Holds (View.launch n).ready
  added : ∀ call ∈ s.runQueue.added, call.Ok
  tcbs : s.systemTcb = (allocateTasks pf task n (devInit k)).systemTcb
  devices : ∀ d, (s.devices d).sleepQueue = none
  mutexes : s.gtMutex = k.gtMutex

/-- `sched_init` starts the most urgent of the allocated tasks. -/
theorem schedInit_start (task : ℕ → Task) (bound : n ≤ Config.osAvailTasks) :
    ∃ k', schedInit (allocateTasks pf task n (devInit k)) = .ok k' ∧ Start pf task n k k' := by
  have frame : _ ∧ (allocateTasks pf task n (devInit k)).devices = _ ∧
      (allocateTasks pf task n (devInit k)).gtMutex = _ ∧ _ := allocateTasks_frame
  obtain ⟨-, devices, mutexes, -⟩ := frame
  obtain ⟨q, dispatched, wfq, added, rest⟩ :=
    (allocateTasks_holds bound).dispatch (allocateTasks_wf bound) View.isLeast_launch
  exact ⟨_, dispatched,
    { bound := bound
      cur := rfl
      wf := wfq
      holds := rest
      added := by
        intro call member
        exact allocateTasks_added bound call (added ▸ member)
      tcbs := rfl
      devices := by
        intro d
        rw [ctxSwitchHalf_devices]
        simp only [devices]
        rfl
      mutexes := mutexes }⟩

theorem taskCreate_start {k' : Kernel}
    (created : taskCreate pf mem k tasks numTasks = .ok (none, k')) :
    ∃ ptrs : ℕ → UInt32,
      assignSchedule pf.float (readTask mem) (fun i => tasks + sizeofTask * UInt32.ofNat i)
        numTasks.toNat = (true, ptrs) ∧
      Start pf (fun j => readTask mem (ptrs j)) numTasks.toNat k k' := by
  obtain ⟨bound, ptrs, accepted, started⟩ := taskCreate_eq_ok_none created
  obtain ⟨k₁, started₁, start⟩ :=
    schedInit_start (k := k) (fun j => readTask mem (ptrs j)) bound
  obtain rfl := Except.ok.inj (started₁.symm.trans started)
  exact ⟨ptrs, accepted, start⟩

/-- A call of `task_create` with `n` tasks succeeds: control is in the first of them. -/
def Launched (pf : Platform) (k : Kernel) (n : ℕ) (s : Machine) : Prop :=
  ∃ mem tasks numTasks, numTasks.toNat = n ∧
    taskCreate pf mem k tasks numTasks = .ok (none, s.kernel) ∧ s.control = fun _ => .user

/-- A launch is a step of the machine. -/
theorem Launched.step {s : Machine} (launched : Launched pf s.kernel n s')
    (user : s.curControl = .user) (active : s.kernel.curTcb ≠ some idleTcb) :
    ∃ label, s.Step pf label s' := by
  obtain ⟨mem, tasks, numTasks, -, created, control⟩ := launched
  obtain ⟨k, c⟩ := s'
  obtain rfl : c = fun _ => .user := control
  exact ⟨(.taskCreate mem tasks numTasks, none), ⟨user, active⟩, by
    simp only [Machine.exec, created]⟩

/-- The call of `task_create`, executed. -/
def launch (pf : Platform) (mem : UserMem) (tasks numTasks : UInt32) (k : Kernel) :
    Option Machine :=
  match taskCreate pf mem k tasks numTasks with
  | .ok (none, k) => some { kernel := k, control := fun _ => .user }
  | _ => none

theorem launched_of_launch (executed : launch pf mem tasks numTasks k = some s') :
    Launched pf k numTasks.toNat s' := by
  unfold launch at executed
  split at executed
  · rename_i created
    obtain rfl := Option.some.inj executed
    exact ⟨mem, tasks, numTasks, rfl, created, rfl⟩
  · simp at executed

theorem stale_boot : boot.kernel.stale = ∅ := by
  ext m
  simp [Kernel.stale, boot, mutexInit]

/-- A launch and the steps after it, executed, are a launch and a run. -/
theorem exists_run_of_executed {guard : Machine → Event → Bool} {G : Machine → Event → Prop}
    (sound : ∀ s e, guard s e = true → G s e) {es : List Event} {check : Machine → Bool}
    (executed : ((launch pf mem tasks numTasks k).bind
      (Machine.execAll pf guard es)).any check = true) :
    ∃ s w s', Launched pf k numTasks.toNat s ∧
      Run (fun s label s' => s.TaskStep pf label s' ∧ G s label.1) s w s' ∧ check s' = true := by
  obtain ⟨s', found, checked⟩ := (Option.any_eq_true _ _).mp executed
  obtain ⟨s, launched, followed⟩ := Option.bind_eq_some_iff.mp found
  obtain ⟨w, run⟩ := Machine.run_of_execAll sound followed
  exact ⟨s, w, s', launched_of_launch launched, run, checked⟩

/-- Two tasks of periods 100 and 200. -/
def twoTasks : UserMem :=
  taskArray Config.usrStartAddr
    [⟨0, 0, 0, 1, 100, 0⟩, ⟨0, 0, 0, 1, 200, 0⟩]

/-- From any state, a launched set is in its initial scheduler state, and the mutexes
that were not free are stale. -/
theorem Launched.represents (launched : Launched pf k n s') :
    Represents (liveTcbs n) k.stale (View.launch n) s' := by
  obtain ⟨mem, tasks, numTasks, rfl, created, control⟩ := launched
  obtain ⟨ptrs, -, start⟩ := taskCreate_start created
  have unlocked : (View.launch numTasks.toNat).locks = ∅ := rfl
  have live (t : TcbPtr) (member : t ∈ liveTcbs numTasks.toNat) :
      (s'.kernel.systemTcb t).nativePrio = t.val ∧ (s'.kernel.systemTcb t).curPrio = t.val ∧
        (s'.kernel.systemTcb t).holdsLock = 0 := by
    rw [start.tcbs]
    exact allocateTasks_live start.bound member
  exact
    { cur := start.cur
      wf := start.wf
      slots := start.holds
      native := fun t member => (live t member).1
      prio := fun t member => by rw [(live t member).2.1, View.prio_of_unlocked unlocked]
      holds := fun t member => by simp [(live t member).2.2, View.holdsLock, unlocked]
      -- The new set holds no lock: of the mutexes it matters only that the fresh ones are free.
      fresh := nofun
      created := nofun
      mutex := fun m outside => by
        simp only [Kernel.stale, Set.mem_ofPred_eq, not_or, not_not, Bool.not_eq_true] at outside
        rw [start.mutexes]
        simpa [View.holder, unlocked] using outside
      added := start.added
      chains := start.devices
      control := fun t _ => by
        rw [control]
        rfl }

end Gravel
