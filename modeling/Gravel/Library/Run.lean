import Mathlib.Order.Defs.PartialOrder
import Mathlib.Data.List.Basic

/-!
# Finite runs of a labelled transition system

`Run step s w t` says that the steps labelled by the list `w` lead from `s` to
`t`. Labels are appended at the end, so an invariant may speak about the whole
past of a run (`Run.invariant_trace`) and not only about the state it reached.

## Main results

* `Run.invariant` — what every step preserves holds at the end of a run
* `Run.invariant_trace` — the same for invariants that read the labels so far
* `since_snoc`, `lastIndex_snoc` — what one more label changes
* `Run.mono` — a run of a restricted step relation is a run of the full one
-/

namespace Gravel.Library

variable {σ α : Type*} {step step' : σ → α → σ → Prop} {s t u : σ} {v w : List α} {a : α}

/-- The steps labelled by the list lead from the first state to the second. -/
inductive Run (step : σ → α → σ → Prop) : σ → List α → σ → Prop
  | nil (s : σ) : Run step s [] s
  | snoc {s t u : σ} {w : List α} {a : α} :
      Run step s w t → step t a u → Run step s (w ++ [a]) u

/-- A property of the past and the present state survives a run when every step keeps it. -/
theorem Run.invariant_trace (inv : List α → σ → Prop)
    (run : Run step s w t) (keep : ∀ w t a u, inv w t → step t a u → inv (w ++ [a]) u)
    (start : inv [] s) : inv w t := by
  induction run with
  | nil => exact start
  | snoc _ hstep ih => exact keep _ _ _ _ ih hstep

/-- A property every step keeps holds at the end of a run that started with it. -/
theorem Run.invariant {inv : σ → Prop} (keep : ∀ t a u, inv t → step t a u → inv u)
    (run : Run step s w t) (start : inv s) : inv t := by
  induction run with
  | nil => exact start
  | snoc _ hstep ih => exact keep _ _ _ ih hstep

theorem Run.mono (weaker : ∀ t a u, step t a u → step' t a u) (run : Run step s w t) :
    Run step' s w t := by
  induction run with
  | nil => exact .nil _
  | snoc _ hstep ih => exact .snoc ih (weaker _ _ _ hstep)

/-- Runs with other labels. -/
theorem Run.map {β : Type*} {step' : σ → β → σ → Prop} (f : α → β)
    (relabel : ∀ t a u, step t a u → step' t (f a) u) (run : Run step s w t) :
    Run step' s (w.map f) t := by
  induction run with
  | nil => exact .nil _
  | snoc _ hstep ih =>
    rw [List.map_append]
    exact .snoc ih (relabel _ _ _ hstep)

/-- Runs compose. -/
theorem Run.append (first : Run step s v t) (second : Run step t w u) :
    Run step s (v ++ w) u := by
  induction second with
  | nil => simpa using first
  | snoc _ hstep ih =>
    rw [← List.append_assoc]
    exact .snoc ih hstep

/-- A first step in front of a run. -/
theorem Run.cons (hstep : step s a t) (rest : Run step t w u) : Run step s (a :: w) u :=
  (Run.snoc (.nil s) hstep).append rest

/-! ### Reading the labels of a run -/

section Labels

variable {p q : α → Prop}

/-- Some label has the first property, and no later one has the second. -/
def Since (p q : α → Prop) (w : List α) : Prop :=
  ∃ u a v, w = u ++ a :: v ∧ p a ∧ ∀ b ∈ v, ¬ q b

theorem not_since_nil : ¬ Since p q [] := by
  rintro ⟨u, a, v, nil, -⟩
  simp at nil

theorem since_snoc : Since p q (w ++ [a]) ↔ p a ∨ (¬ q a ∧ Since p q w) := by
  constructor
  · rintro ⟨u, b, v, same, hb, hv⟩
    rcases List.eq_nil_or_concat v with rfl | ⟨v, c, rfl⟩
    · obtain ⟨-, rfl⟩ := List.append_inj' same rfl |>.imp id List.singleton_inj.mp
      exact Or.inl hb
    · have split : w ++ [a] = (u ++ b :: v) ++ [c] := by simpa using same
      obtain ⟨rfl, last⟩ := List.append_inj' split rfl
      obtain rfl := List.singleton_inj.mp last
      exact Or.inr ⟨hv a (by simp), u, b, v, rfl, hb, fun d member => hv d (by simp [member])⟩
  · rintro (now | ⟨kept, u, b, v, rfl, hb, hv⟩)
    · exact ⟨w, a, [], rfl, now, by simp⟩
    · refine ⟨u, b, v ++ [a], by simp, hb, fun d member => ?_⟩
      rcases List.mem_append.mp member with before | last
      · exact hv d before
      · exact List.mem_singleton.mp last ▸ kept

/-- The number of labels up to the last one with the property. -/
def lastIndex (p : α → Prop) [DecidablePred p] (w : List α) : ℕ :=
  (w.reverse.dropWhile fun a => ¬ p a).length

variable [DecidablePred p]

theorem lastIndex_snoc : lastIndex p (w ++ [a]) = if p a then w.length + 1 else lastIndex p w := by
  by_cases holds : p a <;> simp [lastIndex, holds]

theorem lastIndex_le : lastIndex p w ≤ w.length := by
  simpa [lastIndex] using (w.reverse.dropWhile_suffix fun a => ¬ p a).length_le

end Labels

end Gravel.Library
