import Gravel.Kernel.State
import Gravel.Library.Bitmap

/-!
# The run queue

The functions of `run_queue.c`: a task array indexed by priority, eight group
bytes with a bit for every queued priority, and a summary byte with a bit for
every group that is not empty. Everything outside this file reads the queue
through `RunQueue.slot`, the task queued at a priority.

## Main definitions

* `runqueueInit`, `runqueueAdd`, `runqueueRemove`, `highestPrio`
* `RunQueue.slot` — the task queued at a priority, by the bits
* `RunQueue.Wf` — the three representations agree

## Main results

* `slot_runqueueAdd`, `runqueueRemove_eq_ok` — the operations on slots
* `isLeast_highestPrio` — `highest_prio` finds the least queued priority
-/

namespace Gravel

open Library

/-- Position of the lowest set bit of every byte; 0 for the byte 0. -/
def prioUnmapTable : List ℕ :=
  [0, 0, 1, 0, 2, 0, 1, 0, 3, 0, 1, 0, 2, 0, 1, 0,
   4, 0, 1, 0, 2, 0, 1, 0, 3, 0, 1, 0, 2, 0, 1, 0,
   5, 0, 1, 0, 2, 0, 1, 0, 3, 0, 1, 0, 2, 0, 1, 0,
   4, 0, 1, 0, 2, 0, 1, 0, 3, 0, 1, 0, 2, 0, 1, 0,
   6, 0, 1, 0, 2, 0, 1, 0, 3, 0, 1, 0, 2, 0, 1, 0,
   4, 0, 1, 0, 2, 0, 1, 0, 3, 0, 1, 0, 2, 0, 1, 0,
   5, 0, 1, 0, 2, 0, 1, 0, 3, 0, 1, 0, 2, 0, 1, 0,
   4, 0, 1, 0, 2, 0, 1, 0, 3, 0, 1, 0, 2, 0, 1, 0,
   7, 0, 1, 0, 2, 0, 1, 0, 3, 0, 1, 0, 2, 0, 1, 0,
   4, 0, 1, 0, 2, 0, 1, 0, 3, 0, 1, 0, 2, 0, 1, 0,
   5, 0, 1, 0, 2, 0, 1, 0, 3, 0, 1, 0, 2, 0, 1, 0,
   4, 0, 1, 0, 2, 0, 1, 0, 3, 0, 1, 0, 2, 0, 1, 0,
   6, 0, 1, 0, 2, 0, 1, 0, 3, 0, 1, 0, 2, 0, 1, 0,
   4, 0, 1, 0, 2, 0, 1, 0, 3, 0, 1, 0, 2, 0, 1, 0,
   5, 0, 1, 0, 2, 0, 1, 0, 3, 0, 1, 0, 2, 0, 1, 0,
   4, 0, 1, 0, 2, 0, 1, 0, 3, 0, 1, 0, 2, 0, 1, 0]

def prioUnmap (byte : BitVec 8) : ℕ := prioUnmapTable.getD byte.toNat 0

/-- The task queued at a priority: the entry of `run_list`, if the bit is set. -/
def RunQueue.slot (q : RunQueue) (prio : ℕ) : Option TcbPtr :=
  if (q.runBits (prio / Config.numRunGroup)).getLsbD (prio % Config.numRunGroup) then
    q.runList prio
  else none

/-- The bytes are cleared; `run_list` keeps whatever it held. -/
def runqueueInit (q : RunQueue) : RunQueue :=
  { q with
    groupRunBits := 0
    runBits := fun i => if i < Config.osMaxTasks / 8 then 0 else q.runBits i
    added := [] }

def runqueueAdd (q : RunQueue) (tcb : TcbPtr) (prio : ℕ) : RunQueue :=
  let groupId := prio / Config.numRunGroup
  let bit := prio % Config.numRunGroup
  { groupRunBits := setBit q.groupRunBits groupId
    runBits := Function.update q.runBits groupId (setBit (q.runBits groupId) bit)
    runList := Function.update q.runList prio (some tcb)
    added := q.added ++ [⟨tcb, prio, q.slot prio⟩] }

/-- Both assertions are active: the kernel is not built with `NDEBUG`. -/
def runqueueRemove (q : RunQueue) (prio : ℕ) : Except Fault (TcbPtr × RunQueue) :=
  let groupId := prio / Config.numRunGroup
  let bit := prio % Config.numRunGroup
  if q.runBits groupId &&& (1#8 <<< bit) = 0#8 then .error .assertFailure
  else
    match q.runList prio with
    | none => .error .assertFailure
    | some ret =>
      -- The group loses its summary bit with its last queued priority.
      let byte := clearBit (q.runBits groupId) bit
      .ok (ret,
        { q with
          groupRunBits := if byte = 0#8 then clearBit q.groupRunBits groupId else q.groupRunBits
          runBits := Function.update q.runBits groupId byte
          runList := Function.update q.runList prio none })

def highestPrio (q : RunQueue) : ℕ :=
  let groupId := prioUnmap q.groupRunBits
  let bit := prioUnmap (q.runBits groupId)
  groupId * Config.numRunGroup + bit

/-- The summary byte describes the group bytes, and every set bit has a task. -/
structure RunQueue.Wf (q : RunQueue) : Prop where
  summary : Summarises q.groupRunBits q.runBits
  entry : ∀ p < Config.osMaxTasks, KeyBit q.runBits p → q.runList p ≠ none

variable {q : RunQueue} {t u : TcbPtr} {p p' : ℕ}

theorem prioUnmap_lowestBit : LowestBit prioUnmap := by
  have table : ∀ n : Fin 256, BitVec.ofFin (w := 8) n ≠ 0#8 →
      (BitVec.ofFin (w := 8) n).getLsbD (prioUnmap (BitVec.ofFin n)) = true ∧
        ∀ i < prioUnmap (BitVec.ofFin n), (BitVec.ofFin (w := 8) n).getLsbD i = false := by
    decide +kernel
  exact fun x => table x.toFin

theorem RunQueue.slot_eq_some_iff :
    q.slot p = some t ↔ KeyBit q.runBits p ∧ q.runList p = some t := by
  simp [RunQueue.slot, KeyBit]

theorem RunQueue.Wf.keyBit_iff (wf : q.Wf) (inside : p < Config.osMaxTasks) :
    KeyBit q.runBits p ↔ ∃ t, q.slot p = some t := by
  simp only [RunQueue.slot_eq_some_iff, exists_and_left]
  constructor
  · intro present
    exact ⟨present, Option.ne_none_iff_exists'.mp (wf.entry p inside present)⟩
  · exact And.left

/-! ### The operations on slots -/

/-- Priorities of the array have a group byte. -/
theorem group_lt (inside : p < Config.osMaxTasks) :
    p / Config.numRunGroup < Config.osMaxTasks / 8 := by
  have : p < 64 := inside
  change p / 8 < 8
  omega

theorem slot_runqueueInit (inside : p < Config.osMaxTasks) : (runqueueInit q).slot p = none := by
  simp only [RunQueue.slot, runqueueInit, group_lt inside, if_true]
  simp

theorem wf_runqueueInit : (runqueueInit q).Wf where
  summary g hg := by
    have inside : g < Config.osMaxTasks / 8 := hg
    simp only [runqueueInit, inside, if_true]
    simp
  entry p inside present := by
    have group : p / 8 < Config.osMaxTasks / 8 := group_lt inside
    simp only [runqueueInit, KeyBit, group, if_true] at present
    simp at present

@[simp] theorem added_runqueueInit : (runqueueInit q).added = [] := rfl

theorem slot_runqueueAdd :
    (runqueueAdd q t p).slot p' = if p' = p then some t else q.slot p' := by
  have bits : KeyBit (runqueueAdd q t p).runBits p' ↔ p' = p ∨ KeyBit q.runBits p' :=
    keyBit_update_setBit (by decide)
  by_cases same : p' = p
  · subst same
    rw [if_pos rfl, RunQueue.slot_eq_some_iff]
    exact ⟨bits.mpr (Or.inl rfl), by simp [runqueueAdd]⟩
  · rw [if_neg same]
    ext u
    rw [RunQueue.slot_eq_some_iff, RunQueue.slot_eq_some_iff, bits]
    simp [runqueueAdd, same]

theorem RunQueue.Wf.runqueueAdd (wf : q.Wf) (inside : p < Config.osMaxTasks) :
    (runqueueAdd q t p).Wf where
  summary := summarises_setBit wf.summary inside
  entry p' inside' present := by
    rcases (keyBit_update_setBit (by decide)).mp present with rfl | before
    · simp [Gravel.runqueueAdd]
    · by_cases same : p' = p
      · subst same
        simp [Gravel.runqueueAdd]
      · simpa [Gravel.runqueueAdd, same] using wf.entry p' inside' before

@[simp] theorem added_runqueueAdd :
    (runqueueAdd q t p).added = q.added ++ [⟨t, p, q.slot p⟩] := rfl

/-- Removing a queued priority passes both assertions, returns its task, and
empties that slot only. -/
theorem runqueueRemove_eq_ok (wf : q.Wf) (queued : q.slot p = some t) :
    ∃ q', runqueueRemove q p = .ok (t, q') ∧ q'.Wf ∧ q'.added = q.added ∧
      ∀ p', q'.slot p' = if p' = p then none else q.slot p' := by
  obtain ⟨present, entry⟩ := RunQueue.slot_eq_some_iff.mp queued
  -- The first assertion is the bit of the slot, the second one its entry.
  have bit : ¬ (q.runBits (p / 8) &&& (1#8 <<< (p % 8)) = 0#8) := by
    rw [and_one_shiftLeft_eq_zero_iff _ (Nat.mod_lt p (by decide))]
    simpa [KeyBit] using present
  have removed := show runqueueRemove q p = .ok (t, _) by
    simp only [runqueueRemove, bit, if_false, entry]
    rfl
  refine ⟨_, removed, ⟨?_, ?_⟩, rfl, ?_⟩
  · exact summarises_clearBit wf.summary
  · intro p' inside' present'
    obtain ⟨different, before⟩ := keyBit_update_clearBit.mp present'
    simpa [different] using wf.entry p' inside' before
  · intro p'
    by_cases same : p' = p
    · subst same
      rw [if_pos rfl, ← Option.not_isSome_iff_eq_none, Option.isSome_iff_exists]
      simp [RunQueue.slot_eq_some_iff]
    · rw [if_neg same]
      ext u
      rw [RunQueue.slot_eq_some_iff, RunQueue.slot_eq_some_iff]
      have bits : KeyBit (Function.update q.runBits (p / 8) (clearBit (q.runBits (p / 8)) (p % 8)))
          p' ↔ p' ≠ p ∧ KeyBit q.runBits p' := keyBit_update_clearBit
      simp only [same, ne_eq, not_false_eq_true, true_and] at bits
      simp only [bits, Function.update_of_ne same]

/-- `highest_prio` returns the least queued priority, if any is queued. -/
theorem isLeast_highestPrio (wf : q.Wf) (inside : p < Config.osMaxTasks)
    (queued : q.slot p = some t) :
    IsLeast {p | p < Config.osMaxTasks ∧ ∃ t, q.slot p = some t} (highestPrio q) := by
  have least := isLeast_key prioUnmap_lowestBit wf.summary
    (RunQueue.slot_eq_some_iff.mp queued).1 inside
  have keys : {k | k < 8 * 8 ∧ KeyBit q.runBits k} =
      {p | p < Config.osMaxTasks ∧ ∃ t, q.slot p = some t} := by
    ext p
    exact and_congr_right fun inside => wf.keyBit_iff inside
  rwa [keys] at least

end Gravel
