import Gravel.Kernel.Machine
import Gravel.Kernel.TaskArray

/-!
# The gate of `task_create`

`task_create` reads the user's descriptors only after the number of them and the range they lie
in have been checked, and changes nothing of the kernel before they are accepted. The pointer
array in memory is, at every step, the array of the model without a memory.

## Main definitions

* `Inside` — the descriptors lie in user memory
* `ArrayApart`, `ArrayHolds` — where the pointer array lies, and what it holds
* `Gate` — the codes of `task_create`, what it reads and what it leaves alone

## Main results

* `validAddr_iff` — the range check is exact, at every operand
* `assignScheduleIn_eq`, `allocateTasksIn_eq` — the two functions on the array in memory
* `taskCreateIn_eq` — `task_create` in memory refines `taskCreate`
* `taskCreateIn_gate` — the gate is exact and its failures change nothing
-/

namespace Gravel

open Library Config

variable {F : Type} {fl : FloatOps F} {pf : Platform} {mem : Memory} {k : Kernel}
  {arr tasks numTasks : UInt32} {n lo i j d w m : ℕ} {ptrs : ℕ → UInt32} {s : Traced}

/-! ### The range check -/

/-- The check is the one over the unbounded integers. -/
theorem validAddr_iff (start count base bound : UInt32) : validAddr start count base bound = true ↔
    base ≤ start ∧ start < bound ∧ start.toNat + count.toNat ≤ bound.toNat := by
  have hs := start.toNat_lt
  have hc := count.toNat_lt
  have hb := bound.toNat_lt
  simp only [validAddr, UInt32.le_iff_toNat_le, UInt32.lt_iff_toNat_lt, gt_iff_lt, ge_iff_le,
    UInt32.toNat_add]
  split
  · simp only [Bool.false_eq_true, false_iff]
    omega
  · split
    · simp only [Bool.false_eq_true, false_iff]
      omega
    · simp only [true_iff]
      omega

/-- The descriptors lie in user memory. -/
def Inside (tasks numTasks : UInt32) : Prop :=
  usrStartAddr ≤ tasks ∧ tasks < usrEndAddr ∧
    tasks.toNat + 24 * numTasks.toNat ≤ usrEndAddr.toNat

instance : Decidable (Inside tasks numTasks) := inferInstanceAs (Decidable (_ ∧ _))

theorem validAddr_tasks_iff (bound : numTasks.toNat ≤ osAvailTasks) :
    validAddr tasks (numTasks * sizeofTask) usrStartAddr usrEndAddr = true ↔
      Inside tasks numTasks := by
  have small : numTasks.toNat ≤ 62 := bound
  have size : (numTasks * sizeofTask).toNat = 24 * numTasks.toNat := by
    have each : sizeofTask.toNat = 24 := rfl
    rw [UInt32.toNat_mul, each]
    omega
  rw [validAddr_iff, size, Inside]

/-! ### The array in memory -/

/-- The pointer array does not overlap the descriptors. -/
structure ArrayApart (arr tasks : UInt32) (n : ℕ) : Prop where
  bound : n ≤ osAvailTasks
  apart : ∀ x, (x - tasks).toNat < 24 * n → ¬ (x - arr).toNat < 4 * n

/-- The words that `task_create` may read: entries of the array and words of the descriptors. -/
def Permitted (arr tasks : UInt32) (n : ℕ) (a : UInt32) : Prop :=
  (∃ i < n, a = slot arr i) ∨
    ∃ d < n, ∃ w < 6, a = tasks + sizeofTask * UInt32.ofNat d + .ofNat (4 * w)

/-- From index `lo` on the array holds `ptrs`, which point to descriptors. Only the array has been
written, and only permitted words have been read. -/
structure ArrayHolds (mem : Memory) (arr tasks : UInt32) (n lo : ℕ) (ptrs : ℕ → UInt32)
    (s : Traced) : Prop where
  slots : ∀ i, lo ≤ i → i < n → loadWord s.mem (slot arr i) = ptrs i
  named : ∀ i < n, ∃ d < n, ptrs i = tasks + sizeofTask * UInt32.ofNat d
  outside : ∀ x, ¬ (x - arr).toNat < 4 * n → s.mem x = mem x
  loads : ∀ a ∈ s.loads, Permitted arr tasks n a

/-- The words of the descriptors are an array of words too. -/
theorem field_eq_slot (tasks : UInt32) (d w : ℕ) :
    tasks + sizeofTask * UInt32.ofNat d + .ofNat (4 * w) = slot tasks (6 * d + w) := by
  have split : 4 * (6 * d + w) = 24 * d + 4 * w := by omega
  have product : UInt32.ofNat (24 * d) = sizeofTask * UInt32.ofNat d := UInt32.ofNat_mul 24 d
  rw [slot, split, UInt32.ofNat_add, product, UInt32.add_assoc]

theorem ArrayHolds.load (holds : ArrayHolds mem arr tasks n lo ptrs s) {a : UInt32}
    (permitted : Permitted arr tasks n a) :
    ArrayHolds mem arr tasks n lo ptrs { s with loads := a :: s.loads } where
  slots := holds.slots
  named := holds.named
  outside := holds.outside
  loads := List.forall_mem_cons.mpr ⟨permitted, holds.loads⟩

theorem ArrayHolds.load_slot (holds : ArrayHolds mem arr tasks n 0 ptrs s) (inside : i < n) :
    ∃ s', s.load (slot arr i) = (ptrs i, s') ∧ ArrayHolds mem arr tasks n 0 ptrs s' :=
  ⟨_, Prod.ext (holds.slots i (Nat.zero_le i) inside) rfl,
    holds.load (.inl ⟨i, inside, rfl⟩)⟩

/-- The descriptors are still what they were at the call. -/
theorem ArrayHolds.load_word (holds : ArrayHolds mem arr tasks n 0 ptrs s)
    (apart : ArrayApart arr tasks n) (inside : i < n) (word : w < 6) :
    ∃ s', s.load (ptrs i + .ofNat (4 * w)) = (loadWord mem (ptrs i + .ofNat (4 * w)), s') ∧
      ArrayHolds mem arr tasks n 0 ptrs s' := by
  obtain ⟨d, below, same⟩ := holds.named i inside
  have small : n ≤ 62 := apart.bound
  refine ⟨_, Prod.ext ?_ rfl, holds.load (.inr ⟨d, below, w, word, by rw [same]⟩)⟩
  rw [same, field_eq_slot]
  exact loadWord_slot_congr (by omega) fun x near =>
    holds.outside x (apart.apart x (by omega))

theorem ArrayHolds.loadField (holds : ArrayHolds mem arr tasks n 0 ptrs s)
    (apart : ArrayApart arr tasks n) (inside : i < n) (word : w < 6) :
    ∃ s', loadField arr i (.ofNat (4 * w)) s = (loadWord mem (ptrs i + .ofNat (4 * w)), s') ∧
      ArrayHolds mem arr tasks n 0 ptrs s' := by
  obtain ⟨s₁, first, holds₁⟩ := holds.load_slot inside
  obtain ⟨s₂, second, holds₂⟩ := holds₁.load_word apart inside word
  exact ⟨s₂, by simp only [Gravel.loadField, first, second], holds₂⟩

/-- A pointer to a descriptor is stored in the array. -/
theorem ArrayHolds.store (holds : ArrayHolds mem arr tasks n lo ptrs s)
    (bound : n ≤ osAvailTasks) (inside : i < n) {m : ℕ} (from_here : ∀ j, m ≤ j → j = i ∨ lo ≤ j)
    {p : UInt32} (named : ∃ d < n, p = tasks + sizeofTask * UInt32.ofNat d) :
    ArrayHolds mem arr tasks n m (Function.update ptrs i p) (s.store (slot arr i) p) where
  slots j low below := by
    have small : n ≤ 62 := bound
    by_cases same : j = i
    · subst same
      rw [Function.update_self]
      exact loadWord_storeWord s.mem (slot arr j) p
    · rw [Function.update_of_ne same, ← holds.slots j ((from_here j low).resolve_left same) below]
      exact loadWord_storeWord_slot (by omega) (by omega) same
  named j below := by
    by_cases same : j = i
    · subst same
      rwa [Function.update_self]
    · rw [Function.update_of_ne same]
      exact holds.named j below
  outside x away := by
    have small : n ≤ 62 := bound
    rw [← holds.outside x away]
    refine storeWord_of_not_lt fun inSlot => away ?_
    have bytes := (sub_slot_lt_iff (by omega)).mp inSlot
    omega
  loads := holds.loads

/-! ### The loops -/

/-- The descriptor behind a pointer, as it was at the call. -/
abbrev taskIn (mem : Memory) : UInt32 → Task := readTask (loadWord mem)

theorem ArrayHolds.compareSwap (holds : ArrayHolds mem arr tasks n 0 ptrs s)
    (apart : ArrayApart arr tasks n) (inside : j + 1 < n) :
    ArrayHolds mem arr tasks n 0 (compareSwap (taskIn mem) ptrs j) (compareSwapIn arr j s) := by
  obtain ⟨s₁, next, holds₁⟩ := holds.loadField (w := 4) apart inside (by decide)
  obtain ⟨s₂, this, holds₂⟩ := holds₁.loadField (w := 4) apart (i := j) (by omega) (by decide)
  change Gravel.loadField arr (j + 1) 16 s = ((taskIn mem (ptrs (j + 1))).T, s₁) at next
  change Gravel.loadField arr j 16 s₁ = ((taskIn mem (ptrs j)).T, s₂) at this
  simp only [compareSwapIn, next, this, Gravel.compareSwap]
  split
  · obtain ⟨s₃, tmp, holds₃⟩ := holds₂.load_slot inside
    obtain ⟨s₄, moved, holds₄⟩ := holds₃.load_slot (i := j) (by omega)
    simp only [tmp, moved]
    have first := holds₄.store apart.bound inside (m := 0) (fun _ _ => .inr (Nat.zero_le _))
      (holds.named j (by omega))
    exact first.store apart.bound (i := j) (by omega) (fun _ _ => .inr (Nat.zero_le _))
      (holds.named (j + 1) inside)
  · exact holds₂

theorem ArrayHolds.innerLoop (holds : ArrayHolds mem arr tasks n 0 ptrs s)
    (apart : ArrayApart arr tasks n) (inside : i < n) :
    ArrayHolds mem arr tasks n 0 (innerLoop (taskIn mem) i ptrs) (innerLoopIn arr i s) := by
  induction i generalizing ptrs s with
  | zero => exact holds
  | succ i ih => exact ih (holds.compareSwap apart inside) (by omega)

theorem ArrayHolds.sortTasks (holds : ArrayHolds mem arr tasks n 0 ptrs s)
    (apart : ArrayApart arr tasks n) (within : i ≤ n) :
    ArrayHolds mem arr tasks n 0 (sortTasks (taskIn mem) i ptrs) (sortTasksIn arr i s) := by
  induction i generalizing ptrs s with
  | zero => exact holds
  | succ i ih => exact ih (holds.innerLoop apart within) (by omega)

/-- The test loop on the array in memory. -/
theorem ArrayHolds.ubTest (holds : ArrayHolds mem arr tasks n 0 ptrs s)
    (apart : ArrayApart arr tasks n) (within : i + m ≤ n) (u : F) :
    ∃ s', ubTestIn fl arr m i u s = (ubTest fl (taskIn mem) ptrs m i u, s') ∧
      ArrayHolds mem arr tasks n 0 ptrs s' := by
  induction m generalizing i u s with
  | zero => exact ⟨s, rfl, holds⟩
  | succ m ih =>
    obtain ⟨s₁, task, holds₁⟩ := holds.load_slot (i := i) (by omega)
    obtain ⟨s₂, cost, holds₂⟩ := holds₁.load_word (i := i) (w := 3) apart (by omega) (by decide)
    obtain ⟨s₃, block, holds₃⟩ := holds₂.load_word (i := i) (w := 5) apart (by omega) (by decide)
    obtain ⟨s₄, period, holds₄⟩ := holds₃.load_word (i := i) (w := 4) apart (by omega) (by decide)
    obtain ⟨s₅, cost', holds₅⟩ := holds₄.load_word (i := i) (w := 3) apart (by omega) (by decide)
    obtain ⟨s₆, period', holds₆⟩ := holds₅.load_word (i := i) (w := 4) apart (by omega) (by decide)
    change s₁.load (ptrs i + 12) = ((taskIn mem (ptrs i)).C, s₂) at cost
    change s₂.load (ptrs i + 20) = ((taskIn mem (ptrs i)).B, s₃) at block
    change s₃.load (ptrs i + 16) = ((taskIn mem (ptrs i)).T, s₄) at period
    change s₄.load (ptrs i + 12) = ((taskIn mem (ptrs i)).C, s₅) at cost'
    change s₅.load (ptrs i + 16) = ((taskIn mem (ptrs i)).T, s₆) at period'
    simp only [ubTestIn, Gravel.ubTest, task, cost, block, period]
    split
    · exact ⟨s₄, rfl, holds₄⟩
    · simp only [cost', period']
      exact ih holds₆ (by omega) _

theorem ArrayHolds.allocateLoop (holds : ArrayHolds mem arr tasks n 0 ptrs s)
    (apart : ArrayApart arr tasks n) (within : m ≤ n) (pf : Platform) (k : Kernel) :
    ∃ s', allocateLoopIn pf arr m k s =
        (allocateLoop pf (fun j => taskIn mem (ptrs j)) m k, s') ∧
      ArrayHolds mem arr tasks n 0 ptrs s' := by
  induction m generalizing k s with
  | zero => exact ⟨s, rfl, holds⟩
  | succ j ih =>
    obtain ⟨s₁, lambda, holds₁⟩ := holds.loadField (w := 0) apart within (by decide)
    obtain ⟨s₂, data, holds₂⟩ := holds₁.loadField (w := 1) apart within (by decide)
    obtain ⟨s₃, stackPos, holds₃⟩ := holds₂.loadField (w := 2) apart within (by decide)
    change Gravel.loadField arr j 0 s = (loadWord mem (ptrs j + 0), s₁) at lambda
    change Gravel.loadField arr j 4 s₁ = ((taskIn mem (ptrs j)).data, s₂) at data
    change Gravel.loadField arr j 8 s₂ = ((taskIn mem (ptrs j)).stackPos, s₃) at stackPos
    rw [UInt32.add_zero] at lambda
    simp only [allocateLoopIn, lambda, data, stackPos]
    exact ih holds₃ (by omega) _

/-- The loop fills the array from its end. -/
theorem ArrayHolds.fill (apart : ArrayApart arr tasks n) (within : i ≤ n)
    (holds : ArrayHolds mem arr tasks n i (fun j => tasks + sizeofTask * UInt32.ofNat j) s) :
    ArrayHolds mem arr tasks n 0 (fun j => tasks + sizeofTask * UInt32.ofNat j)
      (fillIn arr tasks i s) := by
  induction i generalizing s with
  | zero => exact holds
  | succ i ih =>
    refine ih (by omega) ?_
    have stored := holds.store apart.bound within (m := i) (fun j low => by omega)
      ⟨i, within, rfl⟩
    rwa [Function.update_eq_self] at stored

/-! ### The functions -/

theorem assignScheduleIn_eq (holds : ArrayHolds mem arr tasks n 0 ptrs s)
    (apart : ArrayApart arr tasks n) (fl : FloatOps F) :
    ∃ s', assignScheduleIn fl arr n s = ((assignSchedule fl (taskIn mem) ptrs n).1, s') ∧
      ArrayHolds mem arr tasks n 0 (assignSchedule fl (taskIn mem) ptrs n).2 s' :=
  (holds.sortTasks apart le_rfl).ubTest apart (by omega) (fl.ofDecimal 0)

theorem allocateTasksIn_eq (holds : ArrayHolds mem arr tasks n 0 ptrs s)
    (apart : ArrayApart arr tasks n) (pf : Platform) (k : Kernel) :
    ∃ s', allocateTasksIn pf arr n k s =
        (allocateTasks pf (fun j => taskIn mem (ptrs j)) n k, s') ∧
      ArrayHolds mem arr tasks n 0 ptrs s' := by
  let k₁ := { k with runQueue := runqueueInit k.runQueue }
  obtain ⟨s', allocated, holds'⟩ := holds.allocateLoop apart le_rfl pf k₁
  exact ⟨s', by simp only [allocateTasksIn, k₁, allocated, allocateTasks], holds'⟩

/-- `malloc` supplies blocks outside user memory. -/
def HeapApart (malloc : UInt32 → UInt32) (size : UInt32) : Prop :=
  ∀ x, usrStartAddr ≤ x → x < usrEndAddr → ¬ x - malloc size < size

variable {malloc : UInt32 → UInt32}

theorem Inside.arrayApart (inside : Inside tasks numTasks) (bound : numTasks.toNat ≤ osAvailTasks)
    (heap : HeapApart malloc (4 * numTasks)) :
    ArrayApart (malloc (4 * numTasks)) tasks numTasks.toNat where
  bound := bound
  apart x near := by
    obtain ⟨low, -, high⟩ := inside
    have small : numTasks.toNat ≤ 62 := bound
    have size : (4 * numTasks).toNat = 4 * numTasks.toNat := by
      have four : (4 : UInt32).toNat = 4 := rfl
      rw [UInt32.toNat_mul, four]
      omega
    have bottom : usrStartAddr.toNat = 2684354560 := rfl
    have top : usrEndAddr.toNat = 2734686208 := rfl
    have place : x.toNat = tasks.toNat + (x - tasks).toNat := by
      have sum := congrArg UInt32.toNat (UInt32.sub_add_cancel x tasks)
      rw [UInt32.toNat_add] at sum
      omega
    rw [UInt32.le_iff_toNat_le, bottom] at low
    have outside := heap x (by rw [UInt32.le_iff_toNat_le]; omega)
      (by rw [UInt32.lt_iff_toNat_lt]; omega)
    rwa [UInt32.lt_iff_toNat_lt, size] at outside

/-! ### `task_create` -/

/-- The call reads descriptors only if all of them are in user memory, and writes none. -/
structure Guarded (mem : Memory) (arr tasks numTasks : UInt32) (s : Traced) : Prop where
  reads : ∀ a ∈ s.loads, numTasks.toNat ≤ osAvailTasks ∧ Inside tasks numTasks ∧
    Permitted arr tasks numTasks.toNat a
  descriptors : ∀ x, (x - tasks).toNat < 24 * numTasks.toNat → s.mem x = mem x

theorem ArrayHolds.guarded (holds : ArrayHolds mem arr tasks numTasks.toNat 0 ptrs s)
    (apart : ArrayApart arr tasks numTasks.toNat) (inside : Inside tasks numTasks) :
    Guarded mem arr tasks numTasks s where
  reads a member := ⟨apart.bound, inside, holds.loads a member⟩
  descriptors x near := holds.outside x (apart.apart x near)

/-- A call that fails its checks has no effect. -/
theorem guarded_start : Guarded mem arr tasks numTasks { mem := mem, loads := [] } :=
  ⟨nofun, fun _ _ => rfl⟩

theorem taskCreate_of_large {user : UserMem} (large : osAvailTasks < numTasks.toNat) :
    taskCreate pf user k tasks numTasks = .ok (some (-einval), k) := by
  simp only [taskCreate, gt_iff_lt, large, if_true]

theorem taskCreate_of_outside {user : UserMem} (bound : numTasks.toNat ≤ osAvailTasks)
    (outside : ¬ Inside tasks numTasks) :
    taskCreate pf user k tasks numTasks = .ok (some (-efault), k) := by
  have refused := (validAddr_tasks_iff bound).not.mpr outside
  rw [Bool.not_eq_true] at refused
  simp only [taskCreate, gt_iff_lt, not_lt.mpr bound, if_false, refused, Bool.not_false, if_true]

/-- With the descriptors in user memory the verdict decides. -/
theorem taskCreate_of_inside (pf : Platform) (user : UserMem) (k : Kernel)
    (bound : numTasks.toNat ≤ osAvailTasks) (inside : Inside tasks numTasks) :
    let (schedulable, ptrs) := assignSchedule pf.float (readTask user)
      (fun i => tasks + sizeofTask * UInt32.ofNat i) numTasks.toNat
    taskCreate pf user k tasks numTasks =
      if schedulable then
        match schedInit (allocateTasks pf (fun j => readTask user (ptrs j)) numTasks.toNat
          (devInit k)) with
        | .error fault => .error fault
        | .ok k => .ok (none, k)
      else .ok (some (-esched), k) := by
  have passes := (validAddr_tasks_iff bound).mpr inside
  simp only [taskCreate, gt_iff_lt, not_lt.mpr bound, if_false, passes, Bool.not_true,
    Bool.false_eq_true]
  cases (assignSchedule pf.float (readTask user)
    (fun i => tasks + sizeofTask * UInt32.ofNat i) numTasks.toNat).1 <;> rfl

/-- On the array in memory `task_create` does what it does without one. -/
theorem taskCreateIn_eq (pf : Platform) (mem : Memory) (k : Kernel) (tasks : UInt32)
    (heap : numTasks.toNat ≤ osAvailTasks → HeapApart malloc (4 * numTasks)) :
    ∃ s', taskCreateIn pf malloc mem k tasks numTasks =
        (taskCreate pf (loadWord mem) k tasks numTasks, s') ∧
      Guarded mem (malloc (4 * numTasks)) tasks numTasks s' := by
  rcases Nat.lt_or_ge osAvailTasks numTasks.toNat with large | bound
  · refine ⟨_, ?_, guarded_start⟩
    simp only [taskCreateIn, taskCreate_of_large large, gt_iff_lt, large, if_true]
  by_cases inside : Inside tasks numTasks
  · have passes := (validAddr_tasks_iff bound).mpr inside
    have apart := inside.arrayApart bound (heap bound)
    have start : ArrayHolds mem (malloc (4 * numTasks)) tasks numTasks.toNat numTasks.toNat
        (fun j => tasks + sizeofTask * UInt32.ofNat j) { mem := mem, loads := [] } :=
      ⟨fun i low high => absurd high (by omega), fun i below => ⟨i, below, rfl⟩, fun _ _ => rfl,
        nofun⟩
    obtain ⟨s₁, verdict, holds₁⟩ := assignScheduleIn_eq (start.fill apart le_rfl) apart pf.float
    obtain ⟨s₂, allocated, holds₂⟩ := allocateTasksIn_eq holds₁ apart pf (devInit k)
    have decided := taskCreate_of_inside pf (loadWord mem) k bound inside
    generalize assignSchedule pf.float (taskIn mem)
      (fun i => tasks + sizeofTask * UInt32.ofNat i) numTasks.toNat = result
      at verdict holds₁ allocated holds₂ decided
    obtain ⟨schedulable, ptrs⟩ := result
    simp only [taskCreateIn, gt_iff_lt, not_lt.mpr bound, if_false, passes, Bool.not_true,
      Bool.false_eq_true, verdict, allocated, decided]
    cases schedulable with
    | false => exact ⟨s₁, rfl, holds₁.guarded apart inside⟩
    | true =>
      refine ⟨s₂, ?_, holds₂.guarded apart inside⟩
      simp only [taskIn, Bool.not_true, Bool.false_eq_true, if_false, if_true]
      generalize schedInit _ = started
      cases started <;> rfl
  · have refused := (validAddr_tasks_iff bound).not.mpr inside
    rw [Bool.not_eq_true] at refused
    refine ⟨_, ?_, guarded_start⟩
    simp only [taskCreateIn, taskCreate_of_outside bound inside, gt_iff_lt, not_lt.mpr bound,
      if_false, refused, Bool.not_false, if_true]

/-- The call returns this code. -/
def ReturnsCode (r : Except Fault (Option ℤ × Kernel)) (code : ℤ) : Prop :=
  ∃ k, r = .ok (some code, k)

/-- The codes of `task_create`, what it reads, and what its failures leave alone. -/
structure Gate (pf : Platform) (malloc : UInt32 → UInt32) (mem : Memory) (k : Kernel)
    (tasks numTasks : UInt32) : Prop where
  check : ∀ start count base bound, validAddr start count base bound = true ↔
    base ≤ start ∧ start < bound ∧ start.toNat + count.toNat ≤ bound.toNat
  inval : ReturnsCode (taskCreateIn pf malloc mem k tasks numTasks).1 (-einval) ↔
    osAvailTasks < numTasks.toNat
  fault : numTasks.toNat ≤ osAvailTasks →
    (ReturnsCode (taskCreateIn pf malloc mem k tasks numTasks).1 (-efault) ↔
      ¬ Inside tasks numTasks)
  sched : numTasks.toNat ≤ osAvailTasks → Inside tasks numTasks →
    (ReturnsCode (taskCreateIn pf malloc mem k tasks numTasks).1 (-esched) ↔
      (assignSchedule pf.float (readTask (loadWord mem))
        (fun i => tasks + sizeofTask * UInt32.ofNat i) numTasks.toNat).1 = false)
  /-- Whatever is read is read after both checks, from the array or from a descriptor. -/
  reads : ∀ a ∈ (taskCreateIn pf malloc mem k tasks numTasks).2.loads,
    numTasks.toNat ≤ osAvailTasks ∧ Inside tasks numTasks ∧
      Permitted (malloc (4 * numTasks)) tasks numTasks.toNat a
  kernel : ∀ code k', (taskCreateIn pf malloc mem k tasks numTasks).1 = .ok (some code, k') →
    k' = k
  descriptors : ∀ x, (x - tasks).toNat < 24 * numTasks.toNat →
    (taskCreateIn pf malloc mem k tasks numTasks).2.mem x = mem x

/-- A code is the one that is returned. -/
theorem returnsCode_iff {code code' : ℤ} :
    ReturnsCode (.ok (some code, k)) code' ↔ code = code' := by
  constructor
  · rintro ⟨k', same⟩
    exact Option.some.inj (congrArg Prod.fst (Except.ok.inj same))
  · rintro rfl
    exact ⟨k, rfl⟩

/-- The code that the checks call for, in their order. -/
def refusal (pf : Platform) (user : UserMem) (tasks numTasks : UInt32) : Option ℤ :=
  if osAvailTasks < numTasks.toNat then some (-einval)
  else if ¬ Inside tasks numTasks then some (-efault)
  else if (assignSchedule pf.float (readTask user)
      (fun i => tasks + sizeofTask * UInt32.ofNat i) numTasks.toNat).1 then none
  else some (-esched)

theorem returnsCode_taskCreate_iff {user : UserMem} {code : ℤ} :
    ReturnsCode (taskCreate pf user k tasks numTasks) code ↔
      refusal pf user tasks numTasks = some code := by
  rcases Nat.lt_or_ge osAvailTasks numTasks.toNat with large | bound
  · rw [taskCreate_of_large large, returnsCode_iff, refusal, if_pos large, Option.some.injEq]
  rw [refusal, if_neg (not_lt.mpr bound)]
  by_cases inside : Inside tasks numTasks
  · rw [if_neg (not_not.mpr inside)]
    have decided := taskCreate_of_inside pf user k bound inside
    generalize assignSchedule pf.float (readTask user)
      (fun i => tasks + sizeofTask * UInt32.ofNat i) numTasks.toNat = result at decided ⊢
    obtain ⟨schedulable, ptrs⟩ := result
    dsimp only at decided ⊢
    rw [decided]
    cases schedulable with
    | false => exact returnsCode_iff.trans (Option.some.injEq _ _).to_iff.symm
    | true =>
      simp only [if_true]
      generalize schedInit _ = started
      constructor
      · rintro ⟨k', returned⟩
        cases started <;> cases returned
      · exact nofun
  · rw [taskCreate_of_outside bound inside, returnsCode_iff, if_pos inside, Option.some.injEq]

theorem refusal_einval_iff {user : UserMem} :
    refusal pf user tasks numTasks = some (-einval) ↔ osAvailTasks < numTasks.toNat := by
  have other : -efault ≠ -einval ∧ -esched ≠ -einval := by decide
  by_cases large : osAvailTasks < numTasks.toNat
  · simp only [refusal, large, if_true]
  · simp only [refusal, large, if_false, iff_false]
    split_ifs <;> simp [other]

theorem refusal_efault_iff {user : UserMem} (bound : numTasks.toNat ≤ osAvailTasks) :
    refusal pf user tasks numTasks = some (-efault) ↔ ¬ Inside tasks numTasks := by
  have other : -esched ≠ -efault := by decide
  rw [refusal, if_neg (not_lt.mpr bound)]
  by_cases inside : Inside tasks numTasks
  · simp only [inside, not_true_eq_false, if_false, iff_false]
    split_ifs <;> simp [other]
  · simp only [inside, not_false_eq_true, if_true]

theorem refusal_esched_iff {user : UserMem} (bound : numTasks.toNat ≤ osAvailTasks)
    (inside : Inside tasks numTasks) : refusal pf user tasks numTasks = some (-esched) ↔
      (assignSchedule pf.float (readTask user)
        (fun i => tasks + sizeofTask * UInt32.ofNat i) numTasks.toNat).1 = false := by
  rw [refusal, if_neg (not_lt.mpr bound), if_neg (not_not.mpr inside)]
  split_ifs with accepted
  · simp [accepted]
  · simpa using accepted

/-- The gate of `task_create` is exact, and its failures change nothing. -/
theorem taskCreateIn_gate (pf : Platform) (malloc : UInt32 → UInt32) (mem : Memory) (k : Kernel)
    (tasks numTasks : UInt32)
    (heap : numTasks.toNat ≤ osAvailTasks → HeapApart malloc (4 * numTasks)) :
    Gate pf malloc mem k tasks numTasks := by
  obtain ⟨s', executed, guarded⟩ := taskCreateIn_eq pf mem k tasks heap
  constructor
  case check => exact validAddr_iff
  case inval => rw [executed, returnsCode_taskCreate_iff, refusal_einval_iff]
  case fault =>
    intro bound
    rw [executed, returnsCode_taskCreate_iff, refusal_efault_iff bound]
  case sched =>
    intro bound inside
    rw [executed, returnsCode_taskCreate_iff, refusal_esched_iff bound inside]
  case reads =>
    rw [executed]
    exact guarded.reads
  case kernel =>
    intro code k' returned
    rw [executed] at returned
    exact taskCreate_eq_ok_some returned
  case descriptors =>
    rw [executed]
    exact guarded.descriptors

/-- A block above user memory. -/
theorem heapApart_above : HeapApart (fun _ => 0xa3f00000) 8 := by
  intro x _ high near
  have top : usrEndAddr.toNat = 2734686208 := rfl
  have block : (0xa3f00000 : UInt32).toNat = 2750414848 := rfl
  have size : (8 : UInt32).toNat = 8 := rfl
  rw [UInt32.lt_iff_toNat_lt, top] at high
  rw [UInt32.lt_iff_toNat_lt, UInt32.toNat_sub, block, size] at near
  omega

/-- Descriptors of periods 100 and 200 at the start of user memory, the second with this cost. -/
def twoDescriptors (cost : UInt32) : Memory :=
  [0xa0001000, 1, 0xa0100000, 10, 100, 0, 0xa0002000, 2, 0xa0200000, cost, 200, 0].zipIdx.foldl
    (fun mem (word, i) => storeWord mem (usrStartAddr + .ofNat (4 * i)) word) fun _ => 0

/-- Costs of 10 and 20 pass the gate, and costs of 10 and 190 are too much. -/
theorem taskCreateIn_gate_two :
    Gate exactPlatform (fun _ => 0xa3f00000) (twoDescriptors 20) boot.kernel usrStartAddr 2 ∧
      ¬ ReturnsCode (taskCreateIn exactPlatform (fun _ => 0xa3f00000) (twoDescriptors 20)
        boot.kernel usrStartAddr 2).1 (-esched) ∧
      ReturnsCode (taskCreateIn exactPlatform (fun _ => 0xa3f00000) (twoDescriptors 190)
        boot.kernel usrStartAddr 2).1 (-esched) := by
  have gate (cost : UInt32) : Gate exactPlatform (fun _ => 0xa3f00000) (twoDescriptors cost)
      boot.kernel usrStartAddr 2 := taskCreateIn_gate _ _ _ _ _ _ fun _ => heapApart_above
  have bound : (2 : UInt32).toNat ≤ osAvailTasks := by decide
  have inside : Inside usrStartAddr 2 := by decide
  refine ⟨gate 20, ?_, ?_⟩
  · rw [(gate 20).sched bound inside]
    decide +kernel
  · rw [(gate 190).sched bound inside]
    decide +kernel

end Gravel
