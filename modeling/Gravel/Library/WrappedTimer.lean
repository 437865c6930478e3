import Mathlib.Data.List.Basic
import Mathlib.Algebra.Order.Group.Nat
import Mathlib.Tactic.Ring

/-!
# Periodic timers on wrapping counters

A clock advances by `a` at every tick, and a timer of period `a * g` keeps a match
value, which it advances by one period whenever the clock has reached it. Both are
kept modulo `W` and compared as they are kept. The comparison is right as long as
both have wrapped equally often: a match value that has wrapped before the clock
looks long due.

## Main definitions

* `Fires W a g s w` — the timer fires at the tick after the ticks of `w`
* `Ticks W a g s w` — what the timer did at every tick since it was set at `s`
* `Punctual a f w` — it fired once in every period
* `WrapTogether W a f s n` — at tick `n` the clock and the match value have
  wrapped equally often

## Main results

* `Ticks.punctual_iff` — a timer is punctual exactly while they wrap together
-/

namespace Gravel.Library

variable {W a g s n m M N : ℕ} {w : List Bool} {b : Bool}

/-- The timer that has done `w` so far compares its match value with the clock. -/
def Fires (W a g s : ℕ) (w : List Bool) : Prop :=
  (s + a * g * (w.count true + 1)) % W ≤ (s + a * (w.length + 1)) % W

instance (W a g s : ℕ) (w : List Bool) : Decidable (Fires W a g s w) :=
  inferInstanceAs (Decidable (_ ≤ _))

/-- At every tick the timer has done what the comparison says. -/
inductive Ticks (W a g s : ℕ) : List Bool → Prop
  | nil : Ticks W a g s []
  | snoc {w : List Bool} : Ticks W a g s w → Ticks W a g s (w ++ [decide (Fires W a g s w)])

/-- After any number of ticks the timer has fired once for every whole period. -/
def Punctual (a f : ℕ) (w : List Bool) : Prop :=
  ∀ n ≤ w.length, (w.take n).count true = a * n / f

/-- The clock at tick `n` and the next multiple of the period lie in the same turn of the
counters. -/
def WrapTogether (W a f s n : ℕ) : Prop :=
  (s + a * n) / W = (s + f * ((a * n + f - 1) / f)) / W

instance (W a f s n : ℕ) : Decidable (WrapTogether W a f s n) :=
  inferInstanceAs (Decidable (_ = _))

/-! ### The comparison -/

/-- In the same turn the wrapped values compare like the values themselves. -/
theorem mod_le_mod_iff_of_div_eq (below : N ≤ M) (same : N / W = M / W) :
    M % W ≤ N % W ↔ M = N := by
  have hM := Nat.div_add_mod M W
  have hN := Nat.div_add_mod N W
  rw [same] at hN
  omega

/-- A value that has wrapped once more, but is less than a turn ahead, is wrapped lower. -/
theorem mod_lt_mod_of_div_ne (below : N ≤ M) (near : M < N + W) (different : N / W ≠ M / W) :
    M % W < N % W := by
  have positive : 0 < W := by omega
  have more : N / W < M / W := Nat.lt_of_le_of_ne (Nat.div_le_div_right below) different
  have hM := Nat.div_add_mod M W
  have hN := Nat.div_add_mod N W
  have turn : W * (N / W + 1) ≤ W * (M / W) := Nat.mul_le_mul_left W more
  rw [Nat.mul_add, Nat.mul_one] at turn
  omega

/-- A value still to come is wrapped higher exactly if it is in the same turn. -/
theorem mod_lt_mod_iff_of_lt (before : N < M) (near : M < N + W) :
    N % W < M % W ↔ N / W = M / W := by
  constructor
  · intro lower
    by_contra different
    exact absurd (mod_lt_mod_of_div_ne before.le near different) lower.asymm
  · intro same
    rw [← not_le, mod_le_mod_iff_of_div_eq before.le same]
    exact before.ne'

/-- Past a value the wrapped counter is not below it exactly up to the end of the turn. -/
theorem mod_le_add_mod_iff (positive : 0 < W) (M e : ℕ) :
    M % W ≤ (M + e) % W ↔ e % W < W - M % W := by
  have hM := Nat.mod_lt M positive
  have he := Nat.mod_lt e positive
  rw [Nat.add_mod]
  rcases Nat.lt_or_ge (M % W + e % W) W with within | beyond
  · rw [Nat.mod_eq_of_lt within]
    omega
  · have wrapped : M % W + e % W - W < W := by omega
    rw [Nat.mod_eq_sub_mod beyond, Nat.mod_eq_of_lt wrapped]
    omega

/-- The multiple of the period that comes next after `m` ticks. -/
theorem next_multiple (positive : 0 < g) (m : ℕ) :
    m + 1 ≤ g * (m / g + 1) ∧ g * (m / g + 1) < m + 1 + g := by
  have split := Nat.div_add_mod m g
  have remainder := Nat.mod_lt m positive
  rw [Nat.mul_add, Nat.mul_one]
  omega

/-- One more tick completes a period exactly when it reaches the next multiple. -/
theorem succ_div_eq (positive : 0 < g) (m : ℕ) :
    (m + 1) / g = m / g + if m + 1 = g * (m / g + 1) then 1 else 0 := by
  have next := next_multiple positive m
  split
  · rename_i reached
    rw [reached, Nat.mul_div_cancel_left _ positive]
  · rename_i early
    rw [Nat.add_zero (m / g)]
    have whole := Nat.div_mul_le_self m g
    exact Nat.div_eq_of_lt_le (by omega) (by rw [Nat.mul_comm]; omega)

/-- The same multiple, as a rounded quotient. -/
theorem round_up (ha : 0 < a) (hg : 0 < g) (m : ℕ) :
    (a * (m + 1) + a * g - 1) / (a * g) = m / g + 1 := by
  rw [← Nat.div_div_eq_div_mul]
  have inner : (a * (m + 1) + a * g - 1) / a = m + g := by
    have expand : a * (m + 1) + a * g - 1 = a * (m + g) + (a - 1) := by
      have : a * (m + 1) + a * g = a * (m + g) + a := by ring
      omega
    rw [expand, Nat.mul_add_div ha, Nat.div_eq_of_lt (by omega), Nat.add_zero]
  rw [inner, Nat.add_div_right m hg]

theorem wrapTogether_succ (ha : 0 < a) (hg : 0 < g) (m : ℕ) :
    WrapTogether W a (a * g) s (m + 1) ↔
      (s + a * (m + 1)) / W = (s + a * g * (m / g + 1)) / W := by
  rw [WrapTogether, round_up ha hg]

/-- A timer that was punctual so far is so at the next tick exactly when the counters have
wrapped together. -/
theorem fires_iff (ha : 0 < a) (hg : 0 < g) (short : a * g ≤ W)
    (punctual : w.count true = w.length / g) :
    (Fires W a g s w ↔ w.length + 1 = g * (w.length / g + 1)) ↔
      WrapTogether W a (a * g) s (w.length + 1) := by
  obtain ⟨reached, near⟩ := next_multiple hg w.length
  rw [wrapTogether_succ ha hg, Fires, punctual]
  generalize w.length = m at reached near ⊢
  rw [Nat.mul_assoc]
  generalize g * (m / g + 1) = next at reached near ⊢
  have below : s + a * (m + 1) ≤ s + a * next :=
    Nat.add_le_add_left (Nat.mul_le_mul_left a reached) s
  have ahead : s + a * next < s + a * (m + 1) + W := by
    have step : a * next < a * (m + 1 + g) := Nat.mul_lt_mul_of_pos_left near ha
    rw [Nat.mul_add] at step
    omega
  have cancel : s + a * next = s + a * (m + 1) ↔ m + 1 = next := by
    rw [Nat.add_left_cancel_iff, Nat.mul_right_inj (Nat.ne_of_gt ha), eq_comm]
  constructor
  · intro right
    by_contra different
    have lower := mod_lt_mod_of_div_ne below ahead different
    have same := cancel.mpr (right.mp lower.le)
    rw [same] at different
    exact different rfl
  · intro same
    rw [mod_le_mod_iff_of_div_eq below same, cancel]

/-! ### All ticks -/

theorem punctual_nil : Punctual a n [] := by
  intro n bound
  obtain rfl : n = 0 := Nat.le_zero.mp bound
  simp

theorem punctual_snoc : Punctual a n (w ++ [b]) ↔
    Punctual a n w ∧ (w ++ [b]).count true = a * (w.length + 1) / n := by
  unfold Punctual
  constructor
  · intro punctual
    refine ⟨fun m bound => ?_, ?_⟩
    · have := punctual m (by simp; omega)
      rwa [List.take_append_of_le_length bound] at this
    · have := punctual (w ++ [b]).length le_rfl
      rwa [List.take_length, List.length_append, List.length_singleton] at this
  · rintro ⟨punctual, last⟩ m bound
    rw [List.length_append, List.length_singleton] at bound
    rcases Nat.le_or_eq_of_le_succ bound with earlier | rfl
    · rw [List.take_append_of_le_length earlier]
      exact punctual m earlier
    · rw [List.take_of_length_le (by simp)]
      exact last

/-- A timer is punctual exactly while its match value wraps together with the clock. -/
theorem Ticks.punctual_iff (ha : 0 < a) (hg : 0 < g) (short : a * g ≤ W)
    (ticks : Ticks W a g s w) :
    Punctual a (a * g) w ↔ ∀ n, 0 < n → n ≤ w.length → WrapTogether W a (a * g) s n := by
  induction ticks with
  | nil =>
    refine ⟨fun _ n positive bound => ?_, fun _ => punctual_nil⟩
    simp at bound
    omega
  | @snoc w _ ih =>
    rw [punctual_snoc, ih]
    have split : (∀ n, 0 < n → n ≤ w.length + 1 → WrapTogether W a (a * g) s n) ↔
        (∀ n, 0 < n → n ≤ w.length → WrapTogether W a (a * g) s n) ∧
          WrapTogether W a (a * g) s (w.length + 1) := by
      constructor
      · intro all
        exact ⟨fun n positive bound => all n positive (Nat.le_succ_of_le bound),
          all (w.length + 1) (Nat.succ_pos _) le_rfl⟩
      · rintro ⟨earlier, last⟩ n positive bound
        rcases Nat.le_or_eq_of_le_succ bound with before | rfl
        · exact earlier n positive before
        · exact last
    rw [List.length_append, List.length_singleton, split]
    refine and_congr_right fun earlier => ?_
    have punctual : w.count true = w.length / g := by
      have := ih.mpr earlier w.length le_rfl
      rwa [List.take_length, Nat.mul_div_mul_left _ _ ha] at this
    rw [← fires_iff ha hg short punctual, Nat.mul_div_mul_left _ _ ha, succ_div_eq hg,
      List.count_append, punctual]
    by_cases fires : Fires W a g s w <;>
      by_cases reached : w.length + 1 = g * (w.length / g + 1) <;>
      simp [fires, reached]

end Gravel.Library
