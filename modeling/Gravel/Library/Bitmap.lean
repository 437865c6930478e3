import Mathlib.Data.BitVec
import Mathlib.Order.Bounds.Basic

/-!
# Two-level bitmaps

A set of keys below `w * w` kept in `w` words of `w` bits, with one more word
whose bit `g` says that word `g` is not zero. The least key is found by looking
up the lowest set bit twice. The file is stated for any width `w`, and for any
function that finds the lowest set bit of a nonzero word.

## Main definitions

* `setBit`, `clearBit` — the two updates of a word
* `KeyBit bits k` — the bit of key `k` is set
* `Summarises group bits` — the summary word describes the words below it
* `LowestBit lowest` — `lowest` finds the lowest set bit of every nonzero word

## Main results

* `summarises_setBit`, `summarises_clearBit` — the updates keep the summary
* `isLeast_key` — the two lookups find the least key
-/

namespace Gravel.Library

variable {w : ℕ}

/-- `x = x | (1 << y)` -/
def setBit (x : BitVec w) (y : ℕ) : BitVec w := x ||| (1#w <<< y)

/-- `x = x & (~(1 << y))` -/
def clearBit (x : BitVec w) (y : ℕ) : BitVec w := x &&& ~~~(1#w <<< y)

theorem getLsbD_one_shiftLeft (y i : ℕ) :
    (1#w <<< y).getLsbD i = (decide (i < w) && decide (i = y)) := by
  rw [Bool.eq_iff_iff]
  simp only [BitVec.getLsbD_shiftLeft, BitVec.getLsbD_one, Bool.and_eq_true, decide_eq_true_eq,
    Bool.not_eq_true', decide_eq_false_iff_not]
  omega

@[simp] theorem getLsbD_setBit (x : BitVec w) (y i : ℕ) :
    (setBit x y).getLsbD i = (x.getLsbD i || (decide (i < w) && decide (i = y))) := by
  rw [setBit, BitVec.getLsbD_or, getLsbD_one_shiftLeft]

@[simp] theorem getLsbD_clearBit (x : BitVec w) (y i : ℕ) :
    (clearBit x y).getLsbD i = (x.getLsbD i && !decide (i = y)) := by
  rw [clearBit, BitVec.getLsbD_and, BitVec.getLsbD_not, getLsbD_one_shiftLeft]
  by_cases inside : i < w
  · simp [inside]
  · simp [BitVec.getLsbD_of_ge x i (Nat.le_of_not_lt inside)]

/-- A word is zero when none of its bits is set. -/
theorem eq_zero_iff_getLsbD (x : BitVec w) : x = 0#w ↔ ∀ i < w, x.getLsbD i = false := by
  constructor
  · rintro rfl i _
    simp
  · intro clear
    apply BitVec.eq_of_getLsbD_eq
    intro i inside
    simp [clear i inside]

theorem ne_zero_of_getLsbD {x : BitVec w} {i : ℕ} (member : x.getLsbD i = true) : x ≠ 0#w := by
  rintro rfl
  simp at member

/-- The test `x & (1 << y)` reads bit `y`. -/
theorem and_one_shiftLeft_eq_zero_iff (x : BitVec w) {y : ℕ} (inside : y < w) :
    x &&& (1#w <<< y) = 0#w ↔ x.getLsbD y = false := by
  rw [eq_zero_iff_getLsbD]
  simp only [BitVec.getLsbD_and, getLsbD_one_shiftLeft]
  constructor
  · intro clear
    simpa [inside] using clear y inside
  · intro clear i _
    by_cases same : i = y
    · simp [same, clear]
    · simp [same]

/-- The bit of key `k` is set. -/
def KeyBit (bits : ℕ → BitVec w) (k : ℕ) : Prop := (bits (k / w)).getLsbD (k % w) = true

/-- Bit `g` of the summary word is set exactly when word `g` is not zero. -/
def Summarises (group : BitVec w) (bits : ℕ → BitVec w) : Prop :=
  ∀ g < w, group.getLsbD g = true ↔ bits g ≠ 0#w

/-- `lowest` finds the lowest set bit of every nonzero word. -/
def LowestBit (lowest : BitVec w → ℕ) : Prop :=
  ∀ x : BitVec w, x ≠ 0#w → x.getLsbD (lowest x) = true ∧ ∀ i < lowest x, x.getLsbD i = false

variable {group : BitVec w} {bits : ℕ → BitVec w} {lowest : BitVec w → ℕ} {k k' : ℕ}

theorem keyBit_update_setBit (positive : 0 < w) :
    KeyBit (Function.update bits (k / w) (setBit (bits (k / w)) (k % w))) k' ↔
      k' = k ∨ KeyBit bits k' := by
  have inside : k' % w < w := Nat.mod_lt _ positive
  unfold KeyBit
  by_cases same : k' / w = k / w
  · rw [same, Function.update_self, getLsbD_setBit]
    simp only [inside, decide_true, Bool.true_and, Bool.or_eq_true, decide_eq_true_eq]
    have key : k' = k ↔ k' % w = k % w := by
      constructor
      · rintro rfl
        rfl
      · intro remainder
        rw [← Nat.div_add_mod k' w, ← Nat.div_add_mod k w, same, remainder]
    rw [key, or_comm]
  · rw [Function.update_of_ne same]
    have different : k' ≠ k := by
      rintro rfl
      exact same rfl
    simp [different]

theorem keyBit_update_clearBit :
    KeyBit (Function.update bits (k / w) (clearBit (bits (k / w)) (k % w))) k' ↔
      k' ≠ k ∧ KeyBit bits k' := by
  unfold KeyBit
  by_cases same : k' / w = k / w
  · rw [same, Function.update_self, getLsbD_clearBit]
    simp only [Bool.and_eq_true, Bool.not_eq_true', decide_eq_false_iff_not]
    have key : k' = k ↔ k' % w = k % w := by
      constructor
      · rintro rfl
        rfl
      · intro remainder
        rw [← Nat.div_add_mod k' w, ← Nat.div_add_mod k w, same, remainder]
    rw [ne_eq, key, and_comm]
  · rw [Function.update_of_ne same]
    have different : k' ≠ k := by
      rintro rfl
      exact same rfl
    simp [different]

/-- Setting a key together with the bit of its word keeps the summary. -/
theorem summarises_setBit (summary : Summarises group bits) (inside : k < w * w) :
    Summarises (setBit group (k / w))
      (Function.update bits (k / w) (setBit (bits (k / w)) (k % w))) := by
  have positive : 0 < w := Nat.pos_of_ne_zero (by rintro rfl; simp at inside)
  have word : k / w < w := Nat.div_lt_of_lt_mul inside
  intro g hg
  rw [getLsbD_setBit]
  by_cases same : g = k / w
  · subst same
    rw [Function.update_self]
    have nonzero : setBit (bits (k / w)) (k % w) ≠ 0#w :=
      ne_zero_of_getLsbD (i := k % w) (by simp [Nat.mod_lt _ positive])
    simp only [word, decide_true, Bool.and_self, Bool.or_true, ne_eq, true_iff]
    exact nonzero
  · rw [Function.update_of_ne same, ← summary g hg]
    simp [same]

/-- Clearing a key keeps the summary when the bit of a word that became zero is
cleared too. -/
theorem summarises_clearBit (summary : Summarises group bits) :
    Summarises
      (if clearBit (bits (k / w)) (k % w) = 0#w then clearBit group (k / w) else group)
      (Function.update bits (k / w) (clearBit (bits (k / w)) (k % w))) := by
  intro g hg
  by_cases same : g = k / w
  · subst same
    rw [Function.update_self]
    split
    · -- The word became zero, and its summary bit is cleared with it.
      rename_i zero
      rw [getLsbD_clearBit]
      simp [zero]
    · -- The word is still not zero, so it was not before either.
      rename_i nonzero
      have before : bits (k / w) ≠ 0#w := by
        intro zero
        apply nonzero
        rw [zero, eq_zero_iff_getLsbD]
        simp
      simp only [(summary _ hg).mpr before, true_iff]
      exact nonzero
  · rw [Function.update_of_ne same, ← summary g hg]
    split <;> simp [same]

/-- The lowest bit of the word that the lowest summary bit names is the least key. -/
theorem isLeast_key (finds : LowestBit lowest) (summary : Summarises group bits)
    (present : KeyBit bits k) (inside : k < w * w) :
    IsLeast {k | k < w * w ∧ KeyBit bits k}
      (lowest group * w + lowest (bits (lowest group))) := by
  have word : k / w < w := Nat.div_lt_of_lt_mul inside
  have groupBit : group.getLsbD (k / w) = true :=
    (summary _ word).mpr (ne_zero_of_getLsbD present)
  obtain ⟨hgroup, groupLeast⟩ := finds group (ne_zero_of_getLsbD groupBit)
  have hg : lowest group < w := BitVec.lt_of_getLsbD hgroup
  obtain ⟨hbit, bitLeast⟩ := finds _ ((summary _ hg).mp hgroup)
  have hb : lowest (bits (lowest group)) < w := BitVec.lt_of_getLsbD hbit
  generalize lowest group = g at hg hbit bitLeast hb groupLeast
  generalize lowest (bits g) = b at hbit bitLeast hb
  have quotient : (g * w + b) / w = g := by
    rw [Nat.mul_comm, Nat.mul_add_div (by omega), Nat.div_eq_of_lt hb, Nat.add_zero]
  have remainder : (g * w + b) % w = b := by
    rw [Nat.mul_comm, Nat.mul_add_mod, Nat.mod_eq_of_lt hb]
  refine ⟨⟨?_, ?_⟩, ?_⟩
  · calc g * w + b < (g + 1) * w := by rw [Nat.add_mul, Nat.one_mul]; omega
      _ ≤ w * w := Nat.mul_le_mul_right w hg
  · rw [KeyBit, quotient, remainder]
    exact hbit
  · rintro k' ⟨inside', present'⟩
    have word' : k' / w < w := Nat.div_lt_of_lt_mul inside'
    have groupBit' := (summary _ word').mpr (ne_zero_of_getLsbD present')
    have above : g ≤ k' / w := by
      by_contra below
      rw [groupLeast _ (Nat.lt_of_not_le below)] at groupBit'
      exact absurd groupBit' (by simp)
    have split : k' / w * w + k' % w = k' := by
      rw [Nat.mul_comm]
      exact Nat.div_add_mod k' w
    -- A key in the same word has a higher bit; a key in a later word exceeds the whole word.
    rcases Nat.eq_or_lt_of_le above with same | later
    · have bitAbove : b ≤ k' % w := by
        by_contra below
        rw [KeyBit, ← same, bitLeast _ (Nat.lt_of_not_le below)] at present'
        exact absurd present' (by simp)
      rw [← same] at split
      omega
    · have step : (g + 1) * w ≤ k' / w * w := Nat.mul_le_mul_right w later
      rw [Nat.add_mul, Nat.one_mul] at step
      omega

end Gravel.Library
