import Gravel.Kernel.State
import Mathlib.Data.Rat.Defs
import Mathlib.Algebra.Order.Field.Rat

/-!
# Admission and ordering

The functions of `ub_test.c` and of `memcheck.c`. `assign_schedule` reorders an
array of task pointers in place and then runs the utilisation bound test along
the order it left. The array is a function of the index, `deref` reads the
descriptor a pointer names, and the arithmetic of `float` is a parameter.

## Main definitions

* `boundTable` — the utilisation bounds, in ten-thousandths
* `sortTasks` — the two loops that reorder the array
* `ubTest` — the loop that tests it
* `assignSchedule`
* `validAddr`
-/

namespace Gravel

/-- Utilisation bounds by number of tasks, in ten-thousandths. -/
def boundTable : List ℕ :=
  [10000, 8284, 7798, 7568, 7435, 7348, 7286, 7241,
   7205, 7177, 7155, 7136, 7120, 7106, 7094, 7084,
   7075, 7067, 7059, 7053, 7047, 7042, 7037, 7033,
   7028, 7025, 7021, 7018, 7015, 7012, 7010, 7007,
   7005, 7003, 7001, 6999, 6997, 6995, 6993, 6992,
   6990, 6989, 6988, 6986, 6985, 6984, 6983, 6982,
   6981, 6980, 6979, 6978, 6977, 6976, 6975, 6975,
   6974, 6973, 6972, 6972, 6971, 6970, 6970, 6969]

/-- The arithmetic of `float` read as exact rationals. -/
def exactFloat : FloatOps ℚ where
  ofUnsigned x := x.toNat
  ofDecimal k := k / 10000
  add := (· + ·)
  div := (· / ·)
  gt a b := decide (a > b)

variable {P : Type*} {F : Type}

/-- The body of the inner loop: exchange neighbours that are out of order. -/
def compareSwap (deref : P → Task) (tasks : ℕ → P) (j : ℕ) : ℕ → P :=
  if (deref (tasks (j + 1))).T < (deref (tasks j)).T then
    Function.update (Function.update tasks (j + 1) (tasks j)) j (tasks (j + 1))
  else tasks

/-- `for (j = i - 1; j >= 0; j--)` -/
def innerLoop (deref : P → Task) : ℕ → (ℕ → P) → ℕ → P
  | 0, tasks => tasks
  | j + 1, tasks => innerLoop deref j (compareSwap deref tasks j)

/-- `for (i = num_tasks - 1; i >= 0; i--)` -/
def sortTasks (deref : P → Task) : ℕ → (ℕ → P) → ℕ → P
  | 0, tasks => tasks
  | i + 1, tasks => sortTasks deref i (innerLoop deref i tasks)

/-- The test loop, for the `k` tasks from index `i` on. -/
def ubTest (fl : FloatOps F) (deref : P → Task) (tasks : ℕ → P) : ℕ → ℕ → F → Bool
  | 0, _, _ => true
  | k + 1, i, utilization =>
    let task := deref (tasks i)
    let C := fl.ofUnsigned task.C
    let T := fl.ofUnsigned task.T
    let thisUtil := fl.div (fl.add C (fl.ofUnsigned task.B)) T
    -- The blocking of a task counts in its own test only, not in the sum carried on.
    if fl.gt (fl.add utilization thisUtil) (fl.ofDecimal (boundTable.getD i 0)) then false
    else ubTest fl deref tasks k (i + 1) (fl.add utilization (fl.div C T))

/-- The verdict, and the array as it is left. -/
def assignSchedule (fl : FloatOps F) (deref : P → Task) (tasks : ℕ → P) (numTasks : ℕ) :
    Bool × (ℕ → P) :=
  let tasks := sortTasks deref numTasks tasks
  (ubTest fl deref tasks numTasks 0 (fl.ofDecimal 0), tasks)

def validAddr (start count base bound : UInt32) : Bool :=
  -- The end may wrap around, which the second test catches.
  let memStart := start
  let memEnd := start + count
  if memStart < base ∨ memStart ≥ bound then false
  else if memEnd < memStart ∨ memEnd > bound then false
  else true

end Gravel
