import Gravel.Library.HighestBit

/-!
# Integer logarithms

The two versions of `ilog2` in `math.c`. Which one runs is decided by `NDEBUG`.

## Main definitions

* `ilog2Debug` — the loop that shifts by one bit
* `ilog2Ndebug` — the search with the masks `b` and the shifts `S`

## Main results

* `ilog2_agree` — both are the position of the highest set bit, and 0 for 0
-/

namespace Gravel

open Library

theorem toNat_shiftRight_one (x : UInt32) : (x >>> 1).toNat = x.toNat / 2 := by
  simp [UInt32.toNat_shiftRight, Nat.shiftRight_eq_div_pow]

theorem shiftRight_one_eq_zero_iff {x : UInt32} : x >>> 1 = 0 ↔ x.toNat / 2 = 0 := by
  rw [← UInt32.toNat_inj, toNat_shiftRight_one, UInt32.toNat_zero]

/-- `while (x >>= 1) r++;` -/
def ilog2Loop (x r : UInt32) : UInt32 :=
  if x >>> 1 = 0 then r else ilog2Loop (x >>> 1) (r + 1)
termination_by x.toNat
decreasing_by
  rename_i more
  rw [shiftRight_one_eq_zero_iff] at more
  rw [toNat_shiftRight_one]
  omega

def ilog2Debug (x : UInt32) : UInt32 := ilog2Loop x 0

/-- The masks: the bits that are shifted out together. -/
def ilog2B : List UInt32 := [0x2, 0xC, 0xF0, 0xFF00, 0xFFFF0000]

/-- The shifts. -/
def ilog2S : List UInt32 := [1, 2, 4, 8, 16]

/-- `for (; i >= 0; i--)`, with `i` one less than the number of rounds. -/
def ilog2Search : ℕ → UInt32 → UInt32 → UInt32
  | 0, _, r => r
  | i + 1, v, r =>
    if v &&& ilog2B.getD i 0 ≠ 0 then
      ilog2Search i (v >>> ilog2S.getD i 0) (r ||| ilog2S.getD i 0)
    else ilog2Search i v r

def ilog2Ndebug (v : UInt32) : UInt32 := ilog2Search ilog2B.length v 0

/-! ### The loops on numbers -/

variable {i : ℕ} {x v r : UInt32}

/-- The counter does not wrap: there are at most 31 shifts. -/
theorem ilog2Loop_toNat (room : r.toNat + Nat.log2 x.toNat < 2 ^ 32) :
    (ilog2Loop x r).toNat = shiftOut x.toNat r.toNat := by
  induction x, r using ilog2Loop.induct with
  | case1 x r done =>
    rw [ilog2Loop, if_pos done, shiftOut, if_pos (shiftRight_one_eq_zero_iff.mp done)]
  | case2 x r more ih =>
    have half : x.toNat / 2 ≠ 0 := mt shiftRight_one_eq_zero_iff.mpr more
    rw [log2_div_two half] at room
    have next : (r + 1).toNat = r.toNat + 1 := by
      rw [UInt32.toNat_add, UInt32.toNat_one, Nat.mod_eq_of_lt (by omega)]
    rw [ilog2Loop, if_neg more, ih (by rw [next, toNat_shiftRight_one]; omega), next,
      toNat_shiftRight_one, shiftOut.eq_def x.toNat, if_neg half]

/-- Entry `i` of the arrays selects and shifts `2 ^ i` bits. -/
theorem ilog2_tables : ∀ i < 5, (ilog2B.getD i 0).toNat = upperHalf (2 ^ i) ∧
    (ilog2S.getD i 0).toNat = 2 ^ i := by
  decide

theorem ilog2Search_toNat (rounds : i ≤ 5) :
    (ilog2Search i v r).toNat = halve i v.toNat r.toNat := by
  induction i generalizing v r with
  | zero => rfl
  | succ i ih =>
    obtain ⟨mask, shift⟩ := ilog2_tables i (by omega)
    have test : v &&& ilog2B.getD i 0 ≠ 0 ↔ v.toNat &&& upperHalf (2 ^ i) ≠ 0 := by
      rw [← mask, ← UInt32.toNat_and, ← UInt32.toNat_zero, Ne, Ne, UInt32.toNat_inj]
    have shifted : (v >>> ilog2S.getD i 0).toNat = v.toNat >>> 2 ^ i := by
      have small : 2 ^ i < 2 ^ 5 := Nat.pow_lt_pow_right (by decide) (by omega)
      rw [UInt32.toNat_shiftRight, shift]
      exact congrArg (v.toNat >>> ·) (Nat.mod_eq_of_lt small)
    have joined : (r ||| ilog2S.getD i 0).toNat = r.toNat ||| 2 ^ i := by
      rw [UInt32.toNat_or, shift]
    rw [ilog2Search, halve]
    by_cases upper : v &&& ilog2B.getD i 0 ≠ 0
    · rw [if_pos upper, if_pos (test.mp upper), ih (by omega), shifted, joined]
    · rw [if_neg upper, if_neg (mt test.mpr upper), ih (by omega)]

/-! ### Both versions -/

theorem ilog2Debug_toNat (x : UInt32) : (ilog2Debug x).toNat = Nat.log2 x.toNat := by
  have small : Nat.log2 x.toNat < 2 ^ 32 := (Nat.log2_le_self _).trans_lt x.toNat_lt
  rw [ilog2Debug, ilog2Loop_toNat (by simpa using small), shiftOut_eq_log2, UInt32.toNat_zero,
    Nat.zero_add]

theorem ilog2Ndebug_toNat (x : UInt32) : (ilog2Ndebug x).toNat = Nat.log2 x.toNat := by
  have five : ilog2B.length = 5 := rfl
  rw [ilog2Ndebug, five, ilog2Search_toNat le_rfl,
    halve_eq_log2 x.toNat_lt (by rw [UInt32.toNat_zero]; exact Nat.dvd_zero _),
    UInt32.toNat_zero, Nat.zero_add]

/-- The two versions agree on every input: on 0 they return 0, and otherwise the position
of the highest set bit. -/
theorem ilog2_agree (x : UInt32) :
    ilog2Debug x = ilog2Ndebug x ∧ (x = 0 → ilog2Debug x = 0) ∧
      (x ≠ 0 → 2 ^ (ilog2Debug x).toNat ≤ x.toNat ∧ x.toNat < 2 ^ ((ilog2Debug x).toNat + 1)) := by
  refine ⟨?_, ?_, fun nonzero => ?_⟩
  · apply UInt32.toNat_inj.mp
    rw [ilog2Debug_toNat, ilog2Ndebug_toNat]
  · rintro rfl
    apply UInt32.toNat_inj.mp
    rw [ilog2Debug_toNat]
    rfl
  · have positive : x.toNat ≠ 0 := fun zero => nonzero (UInt32.toNat_inj.mp zero)
    rw [ilog2Debug_toNat]
    exact (Nat.log2_eq_iff positive).mp rfl

end Gravel
