import Mathlib.Data.List.Basic
import Mathlib.Logic.Function.Basic

/-!
# Copying between regions that may overlap

The cells of a region are named by their positions. Cell by cell a region is copied to
another one, from the first position up or from the last one down. While cells that are
still to be read have not been written, the target receives what the source held at the
start.

## Main definitions

* `copyUp`, `copyDown` — the two directions
* `Copied` — the invariant: an interval of positions has been copied

## Main results

* `copied_copyUp`, `copied_copyDown` — each direction is right if no cell is written
  before it is read
-/

namespace Gravel.Library

variable {A V : Type*} {d s : ℕ → A} {m m₀ : A → V} {i lo hi n : ℕ}

/-- The positions from `lo` up to `hi` have been copied since the memory was `m₀`, and
nothing else has been written. -/
structure Copied (d s : ℕ → A) (m₀ : A → V) (lo hi : ℕ) (m : A → V) : Prop where
  target : ∀ j, lo ≤ j → j < hi → m (d j) = m₀ (s j)
  frame : ∀ x, (∀ j, lo ≤ j → j < hi → x ≠ d j) → m x = m₀ x

theorem copied_start (d s : ℕ → A) (m₀ : A → V) (i : ℕ) : Copied d s m₀ i i m₀ where
  target j low high := by omega
  frame _ _ := rfl

variable [DecidableEq A]

/-- Copy so many cells from position `i` up. -/
def copyUp (d s : ℕ → A) : ℕ → ℕ → (A → V) → A → V
  | 0, _, m => m
  | rounds + 1, i, m => copyUp d s rounds (i + 1) (Function.update m (d i) (m (s i)))

/-- Copy the cells below position `i`, from the last one down. -/
def copyDown (d s : ℕ → A) : ℕ → (A → V) → A → V
  | 0, m => m
  | i + 1, m => copyDown d s i (Function.update m (d i) (m (s i)))

/-- One more cell above, whose source has not been written. -/
theorem Copied.up (copied : Copied d s m₀ lo i m) (order : lo ≤ i)
    (distinct : ∀ j, lo ≤ j → j < i → d j ≠ d i) (unread : ∀ j, lo ≤ j → j < i → s i ≠ d j) :
    Copied d s m₀ lo (i + 1) (Function.update m (d i) (m (s i))) where
  target j low high := by
    rcases Nat.lt_succ_iff_lt_or_eq.mp high with before | rfl
    · rw [Function.update_of_ne (distinct j low before), copied.target j low before]
    · rw [Function.update_self, copied.frame _ unread]
  frame x outside := by
    rw [Function.update_of_ne (outside i order i.lt_succ_self)]
    exact copied.frame x fun j low high => outside j low (by omega)

/-- One more cell below. -/
theorem Copied.down (copied : Copied d s m₀ (i + 1) hi m) (order : i < hi)
    (distinct : ∀ j, i < j → j < hi → d j ≠ d i) (unread : ∀ j, i < j → j < hi → s i ≠ d j) :
    Copied d s m₀ i hi (Function.update m (d i) (m (s i))) where
  target j low high := by
    rcases Nat.eq_or_lt_of_le low with rfl | after
    · rw [Function.update_self, copied.frame _ unread]
    · rw [Function.update_of_ne (distinct j after high), copied.target j after high]
  frame x outside := by
    rw [Function.update_of_ne (outside i i.le_refl order)]
    exact copied.frame x fun j low high => outside j (by omega) high

/-- Copying upwards, a cell is written after all cells below it have been read. -/
theorem copied_copyUp (distinct : ∀ j l, j < l → l < n → d j ≠ d l)
    (unread : ∀ j l, j < l → l < n → s l ≠ d j) : Copied d s m₀ 0 n (copyUp d s n 0 m₀) := by
  -- By induction on the rounds that are left.
  have rest (rounds i : ℕ) (m : A → V) (total : i + rounds = n) (copied : Copied d s m₀ 0 i m) :
      Copied d s m₀ 0 n (copyUp d s rounds i m) := by
    induction rounds generalizing i m with
    | zero =>
      obtain rfl : i = n := total
      exact copied
    | succ rounds ih =>
      apply ih (i + 1) _ (by omega)
      exact copied.up i.zero_le (fun j _ before => distinct j i before (by omega))
        fun j _ before => unread j i before (by omega)
  exact rest n 0 m₀ n.zero_add (copied_start d s m₀ 0)

/-- Copying downwards, a cell is written after all cells above it have been read. -/
theorem copied_copyDown (distinct : ∀ j l, j < l → l < n → d j ≠ d l)
    (unread : ∀ j l, j < l → l < n → s j ≠ d l) : Copied d s m₀ 0 n (copyDown d s n m₀) := by
  have rest (i : ℕ) (m : A → V) (below : i ≤ n) (copied : Copied d s m₀ i n m) :
      Copied d s m₀ 0 n (copyDown d s i m) := by
    induction i generalizing m with
    | zero => exact copied
    | succ i ih =>
      apply ih _ (by omega)
      exact copied.down below (fun j after inside => (distinct i j after inside).symm)
        fun j after inside => unread i j after inside
  exact rest n m₀ n.le_refl (copied_start d s m₀ n)

end Gravel.Library
