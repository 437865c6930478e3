import Gravel.Kernel.RunQueue
import Gravel.Library.Refinement

/-!
# The run queue as a priority map

What the run queue is for: a finite map from priorities to tasks, with the least
key at hand. The three arrays of `run_queue.c` implement such a map when the bit
of every priority says whether it is a key, the summary byte says which group
bytes are not zero, and the entry of every key is its task. Entries without a bit
are leftovers and mean nothing.

## Main definitions

* `Prio`, `PrioMap` — priorities with a slot, and maps from them to tasks
* `QueueOp`, `PrioMap.perform`, `RunQueue.perform` — the calls on either side
* `RunQueue.Implements` — the arrays stand for a map

## Main results

* `RunQueue.Implements.refines` — every call keeps the correspondence
* `RunQueue.Implements.isLeast_highestPrio` — `highest_prio` is the least key
* `runQueue_refines_prioMap` — the same over all sequences of calls
-/

namespace Gravel

open Library

/-- A priority that has a slot in `run_list`. -/
abbrev Prio := Fin Config.osMaxTasks

/-- The task queued at each priority, if any. -/
abbrev PrioMap := Prio → Option TcbPtr

def PrioMap.empty : PrioMap := fun _ => none

/-- The calls that change the run queue. -/
inductive QueueOp
  | init
  | add (tcb : TcbPtr) (prio : Prio)
  | remove (prio : Prio)
  deriving DecidableEq, Repr

/-- A call on the abstract queue, with the task it returns. Only the removal of a
priority that is not a key fails. -/
def PrioMap.perform (Q : PrioMap) : QueueOp → Except Fault (Option TcbPtr × PrioMap)
  | .init => .ok (none, PrioMap.empty)
  | .add tcb prio => .ok (none, Function.update Q prio (some tcb))
  | .remove prio =>
    match Q prio with
    | none => .error .assertFailure
    | some tcb => .ok (some tcb, Function.update Q prio none)

/-- The same call on the arrays. -/
def RunQueue.perform (q : RunQueue) : QueueOp → Except Fault (Option TcbPtr × RunQueue)
  | .init => .ok (none, runqueueInit q)
  | .add tcb prio => .ok (none, runqueueAdd q tcb prio)
  | .remove prio =>
    match runqueueRemove q prio with
    | .error fault => .error fault
    | .ok (tcb, q) => .ok (some tcb, q)

/-- The arrays stand for the map. -/
structure RunQueue.Implements (q : RunQueue) (Q : PrioMap) : Prop where
  bit : ∀ p : Prio, (q.runBits (p / 8)).getLsbD (p % 8) = true ↔ p ∈ keys Q
  group : ∀ g < 8, q.groupRunBits.getLsbD g = true ↔ q.runBits g ≠ 0#8
  entry : ∀ p : Prio, ∀ t, Q p = some t → q.runList p = some t

variable {q : RunQueue} {Q : PrioMap} {p : Prio} {t : TcbPtr}

/-! ### Between bits and slots -/

theorem RunQueue.Implements.wf (implements : q.Implements Q) : q.Wf where
  summary := implements.group
  entry p inside present := by
    obtain ⟨t, found⟩ := (implements.bit ⟨p, inside⟩).mp present
    simp [implements.entry ⟨p, inside⟩ t found]

theorem RunQueue.Implements.slot (implements : q.Implements Q) (p : Prio) :
    q.slot p = Q p := by
  cases found : Q p with
  | none =>
    have clear : ¬ KeyBit q.runBits p := by
      rw [KeyBit, implements.bit p, notMem_keys]
      exact found
    ext t
    simp [RunQueue.slot_eq_some_iff, clear]
  | some t =>
    rw [RunQueue.slot_eq_some_iff]
    exact ⟨(implements.bit p).mpr ⟨t, found⟩, implements.entry p t found⟩

theorem RunQueue.Wf.implements (wf : q.Wf) (slot : ∀ p : Prio, q.slot p = Q p) :
    q.Implements Q where
  bit p := by
    have bits := wf.keyBit_iff p.isLt
    simp only [slot] at bits
    exact bits
  group := wf.summary
  entry p t found := by
    rw [← slot p] at found
    exact (RunQueue.slot_eq_some_iff.mp found).2

/-! ### The calls -/

/-- Whatever the entries held before. -/
theorem implements_runqueueInit (q : RunQueue) : (runqueueInit q).Implements PrioMap.empty :=
  wf_runqueueInit.implements fun p => slot_runqueueInit p.isLt

theorem RunQueue.Implements.runqueueAdd (implements : q.Implements Q) :
    (runqueueAdd q t p).Implements (Function.update Q p (some t)) := by
  apply (implements.wf.runqueueAdd p.isLt).implements
  intro p'
  rw [slot_runqueueAdd, Function.update_apply, implements.slot]
  simp only [Fin.ext_iff]

/-- The assertions hold at a key, whose task is returned. -/
theorem RunQueue.Implements.runqueueRemove (implements : q.Implements Q) (found : Q p = some t) :
    ∃ q', runqueueRemove q p = .ok (t, q') ∧ q'.Implements (Function.update Q p none) := by
  have queued : q.slot p = some t := (implements.slot p).trans found
  obtain ⟨q', removed, wf, -, slots⟩ := runqueueRemove_eq_ok implements.wf queued
  refine ⟨q', removed, wf.implements fun p' => ?_⟩
  rw [slots, Function.update_apply, implements.slot]
  simp only [Fin.ext_iff]

/-- The first assertion fails at a priority that is not a key. -/
theorem RunQueue.Implements.runqueueRemove_eq_error (implements : q.Implements Q)
    (absent : Q p = none) : Gravel.runqueueRemove q p = .error .assertFailure := by
  have clear : q.runBits (p / 8) &&& (1#8 <<< (p % 8 : ℕ)) = 0#8 := by
    rw [and_one_shiftLeft_eq_zero_iff _ (Nat.mod_lt p (by decide)), ← Bool.not_eq_true,
      implements.bit p, notMem_keys]
    exact absent
  simp only [Gravel.runqueueRemove]
  rw [if_pos clear]

/-- Every call keeps the correspondence and answers alike. -/
theorem RunQueue.Implements.refines :
    Refines RunQueue.Implements RunQueue.perform PrioMap.perform := by
  intro q Q op implements
  cases op with
  | init => exact .ok none (implements_runqueueInit q)
  | add t p => exact .ok none implements.runqueueAdd
  | remove p =>
    simp only [RunQueue.perform, PrioMap.perform]
    cases found : Q p with
    | none =>
      rw [implements.runqueueRemove_eq_error found]
      exact .error _
    | some t =>
      obtain ⟨q', removed, implements'⟩ := implements.runqueueRemove found
      rw [removed]
      exact .ok (some t) implements'

/-! ### The least key -/

theorem RunQueue.Implements.isLeast_highestPrio (implements : q.Implements Q)
    (nonempty : (keys Q).Nonempty) :
    ∃ m : Prio, highestPrio q = m ∧ IsLeast (keys Q) m := by
  obtain ⟨p, t, found⟩ := nonempty
  have least := Gravel.isLeast_highestPrio implements.wf p.isLt
    ((implements.slot p).trans found)
  obtain ⟨⟨inside, u, slot⟩, below⟩ := least
  refine ⟨⟨highestPrio q, inside⟩, rfl, ⟨u, ?_⟩, ?_⟩
  · rw [← implements.slot]
    exact slot
  · rintro p' ⟨u', found'⟩
    exact below ⟨p'.isLt, u', (implements.slot p').trans found'⟩

/-- `highest_prio` of an empty queue is 0. -/
theorem RunQueue.Implements.highestPrio_empty (implements : q.Implements Q)
    (empty : keys Q = ∅) : highestPrio q = 0 := by
  have clear : ∀ g < 8, q.runBits g = 0#8 := by
    intro g inside
    rw [eq_zero_iff_getLsbD]
    intro i hi
    have key := implements.bit ⟨g * 8 + i, by change g * 8 + i < 64; omega⟩
    have word : (g * 8 + i) / 8 = g := by omega
    have position : (g * 8 + i) % 8 = i := by omega
    simpa [empty, word, position] using key
  have group : q.groupRunBits = 0#8 := by
    rw [eq_zero_iff_getLsbD]
    intro g inside
    rw [← Bool.not_eq_true, implements.group g inside]
    simp [clear g inside]
  rw [highestPrio, group]
  have first : prioUnmap 0#8 = 0 := by decide
  rw [first, clear 0 (by decide), first, Nat.zero_mul]

/-- From any contents of the arrays, whatever calls follow `runqueue_init`: they fail
and answer as on the map, the arrays stand for the map reached, and `highest_prio` is
its least key. -/
theorem runQueue_refines_prioMap (q : RunQueue) (ops : List QueueOp) :
    Outcome
      (fun q Q => q.Implements Q ∧
        ((keys Q).Nonempty → ∃ m : Prio, highestPrio q = m ∧ IsLeast (keys Q) m))
      (execList RunQueue.perform ops (runqueueInit q))
      (execList PrioMap.perform ops PrioMap.empty) := by
  apply (RunQueue.Implements.refines.execList ops (implements_runqueueInit q)).mono
  intro q Q implements
  exact ⟨implements, implements.isLeast_highestPrio⟩

end Gravel
