import Gravel.Kernel.Process
import Gravel.Library.WordArray

/-!
# The pointer array in memory

`task_create` on a memory of bytes. It puts the addresses of the descriptors in an array that
`malloc` supplies, and `assign_schedule` and `allocate_tasks` go through that array. The memory
notes every word that is loaded.

## Main definitions

* `loadField` — a field of the descriptor that an entry of the array points to
* `fillIn` — the loop that fills the array
* `sortTasksIn`, `ubTestIn`, `assignScheduleIn`
* `allocateTasksIn`, `taskCreateIn`
-/

namespace Gravel

open Library

/-- `tasks[j]->f`, for the field at an offset. -/
def loadField (arr : UInt32) (j : ℕ) (offset : UInt32) (s : Traced) : UInt32 × Traced :=
  let (task, s) := s.load (slot arr j)
  s.load (task + offset)

/-- The body of the inner loop of `assign_schedule`. -/
def compareSwapIn (arr : UInt32) (j : ℕ) (s : Traced) : Traced :=
  let (next, s) := loadField arr (j + 1) 16 s
  let (this, s) := loadField arr j 16 s
  if next < this then
    let (tmpTask, s) := s.load (slot arr (j + 1))
    let (moved, s) := s.load (slot arr j)
    (s.store (slot arr (j + 1)) moved).store (slot arr j) tmpTask
  else s

def innerLoopIn (arr : UInt32) : ℕ → Traced → Traced
  | 0, s => s
  | j + 1, s => innerLoopIn arr j (compareSwapIn arr j s)

def sortTasksIn (arr : UInt32) : ℕ → Traced → Traced
  | 0, s => s
  | i + 1, s => sortTasksIn arr i (innerLoopIn arr i s)

variable {F : Type}

/-- The test loop of `assign_schedule`, for the `k` tasks from index `i` on. -/
def ubTestIn (fl : FloatOps F) (arr : UInt32) : ℕ → ℕ → F → Traced → Bool × Traced
  | 0, _, _, s => (true, s)
  | k + 1, i, utilization, s =>
    let (tmpTask, s) := s.load (slot arr i)
    let (C, s) := s.load (tmpTask + 12)
    let (B, s) := s.load (tmpTask + 20)
    let (T, s) := s.load (tmpTask + 16)
    let thisUtil := fl.div (fl.add (fl.ofUnsigned C) (fl.ofUnsigned B)) (fl.ofUnsigned T)
    if fl.gt (fl.add utilization thisUtil) (fl.ofDecimal (boundTable.getD i 0)) then (false, s)
    else
      let (C, s) := s.load (tmpTask + 12)
      let (T, s) := s.load (tmpTask + 16)
      ubTestIn fl arr k (i + 1)
        (fl.add utilization (fl.div (fl.ofUnsigned C) (fl.ofUnsigned T))) s

def assignScheduleIn (fl : FloatOps F) (arr : UInt32) (numTasks : ℕ) (s : Traced) :
    Bool × Traced :=
  ubTestIn fl arr numTasks 0 (fl.ofDecimal 0) (sortTasksIn arr numTasks s)

/-- The loop of `allocate_tasks`. Of the descriptors it reads what the contexts need. -/
def allocateLoopIn (pf : Platform) (arr : UInt32) : ℕ → Kernel → Traced → Kernel × Traced
  | 0, k, s => (k, s)
  | j + 1, k, s =>
    let (lambda, s) := loadField arr j 0 s
    let (data, s) := loadField arr j 4 s
    let (stackPos, s) := loadField arr j 8 s
    let task :=
      { lambda := lambda, data := data, stackPos := stackPos, C := 0, T := 0, B := 0 : Task }
    allocateLoopIn pf arr j (allocateTask pf task j k) s

def allocateTasksIn (pf : Platform) (arr : UInt32) (numTasks : ℕ) (k : Kernel) (s : Traced) :
    Kernel × Traced :=
  let k := { k with runQueue := runqueueInit k.runQueue }
  let (k, s) := allocateLoopIn pf arr numTasks k s
  (allocateIdle pf k, s)

/-- `for (i = num_tasks - 1; i >= 0; i--) tasks_ptr_arr[i] = &(tasks[i]);` -/
def fillIn (arr tasks : UInt32) : ℕ → Traced → Traced
  | 0, s => s
  | i + 1, s => fillIn arr tasks i (s.store (slot arr i) (tasks + sizeofTask * UInt32.ofNat i))

/-- `task_create`, with the address that `malloc` returns for a size. The allocator's own records
are not part of this memory, so `free` leaves it as it is. -/
def taskCreateIn (pf : Platform) (malloc : UInt32 → UInt32) (mem : Memory) (k : Kernel)
    (tasks numTasks : UInt32) : Except Fault (Option ℤ × Kernel) × Traced :=
  let s := { mem := mem, loads := [] : Traced }
  if numTasks.toNat > Config.osAvailTasks then (.ok (some (-Config.einval), k), s)
  else if !validAddr tasks (numTasks * sizeofTask) Config.usrStartAddr Config.usrEndAddr then
    (.ok (some (-Config.efault), k), s)
  else
    let tasksPtrArr := malloc (4 * numTasks)
    let s := fillIn tasksPtrArr tasks numTasks.toNat s
    let (schedulable, s) := assignScheduleIn pf.float tasksPtrArr numTasks.toNat s
    if !schedulable then (.ok (some (-Config.esched), k), s)
    else
      let (k, s) := allocateTasksIn pf tasksPtrArr numTasks.toNat (devInit k) s
      match schedInit k with
      | .error fault => (.error fault, s)
      | .ok k => (.ok (none, k), s)

end Gravel
