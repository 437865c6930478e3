import Gravel.Library.ByteMemory
import Gravel.Library.Copying

/-!
# `memmove`

The copy of `memmove.c` in the library of the user programs. It goes upwards when the target
starts below the source, and downwards otherwise.

## Main definitions

* `memmove`, `memcpy`

## Main results

* `memmove_copies` — the target receives the source, however the two overlap
-/

namespace Gravel

open Library

/-- `for (i = 0; i != count; i++)`, with so many rounds left. -/
def memmoveUp (d s : UInt32) : ℕ → UInt32 → Memory → Memory
  | 0, _, m => m
  | rounds + 1, i, m => memmoveUp d s rounds (i + 1) (Function.update m (d + i) (m (s + i)))

/-- `for (i = count; i != 0; i--)` -/
def memmoveDown (d s : UInt32) : ℕ → UInt32 → Memory → Memory
  | 0, _, m => m
  | rounds + 1, i, m =>
    memmoveDown d s rounds (i - 1) (Function.update m (d + (i - 1)) (m (s + (i - 1))))

/-- What the call returns, and the memory it leaves. -/
def memmove (m : Memory) (dest src count : UInt32) : UInt32 × Memory :=
  (dest,
    if dest < src then memmoveUp dest src count.toNat 0 m
    else memmoveDown dest src count.toNat count m)

def memcpy (m : Memory) (dest src count : UInt32) : UInt32 × Memory := memmove m dest src count

variable {m : Memory} {d s dest src count : UInt32} {n i : ℕ}

/-- The bytes of a region, by position. -/
def regionAt (a : UInt32) (i : ℕ) : UInt32 := a + UInt32.ofNat i

/-! ### The loops -/

theorem memmoveUp_eq : memmoveUp d s n (.ofNat i) m = copyUp (regionAt d) (regionAt s) n i m := by
  induction n generalizing i m with
  | zero => rfl
  | succ n ih =>
    have next : UInt32.ofNat i + 1 = UInt32.ofNat (i + 1) := by rw [UInt32.ofNat_add]; rfl
    rw [memmoveUp, next, ih]
    rfl

theorem memmoveDown_eq :
    memmoveDown d s n (.ofNat n) m = copyDown (regionAt d) (regionAt s) n m := by
  induction n generalizing m with
  | zero => rfl
  | succ n ih =>
    have next : UInt32.ofNat (n + 1) - 1 = UInt32.ofNat n := by
      rw [UInt32.ofNat_add]
      exact UInt32.add_sub_cancel _ _
    rw [memmoveDown, next, ih]
    rfl

theorem regionAt_toNat (fits : d.toNat + n ≤ 2 ^ 32) (inside : i < n) :
    (regionAt d i).toNat = d.toNat + i := by
  rw [regionAt, UInt32.toNat_add, toNat_ofNat_of_lt (by omega),
    Nat.mod_eq_of_lt (by omega)]

/-- For regions that do not wrap around, the direction is the right one. -/
theorem copied_memmove (fits : dest.toNat + count.toNat ≤ 2 ^ 32)
    (fits' : src.toNat + count.toNat ≤ 2 ^ 32) :
    Copied (regionAt dest) (regionAt src) m 0 count.toNat (memmove m dest src count).2 := by
  have distinct (j l : ℕ) (less : j < l) (inside : l < count.toNat) :
      regionAt dest j ≠ regionAt dest l := by
    rw [Ne, ← UInt32.toNat_inj, regionAt_toNat fits (less.trans inside), regionAt_toNat fits inside]
    omega
  have meets (j l : ℕ) (hj : j < count.toNat) (hl : l < count.toNat)
      (same : regionAt src j = regionAt dest l) : src.toNat + j = dest.toNat + l := by
    rwa [← UInt32.toNat_inj, regionAt_toNat fits' hj, regionAt_toNat fits hl] at same
  unfold memmove
  by_cases below : dest < src
  · rw [if_pos below]
    rw [UInt32.lt_iff_toNat_lt] at below
    have up : memmoveUp dest src count.toNat 0 m = _ := memmoveUp_eq (i := 0)
    rw [up]
    refine copied_copyUp distinct fun j l less inside same => ?_
    have := meets l j inside (less.trans inside) same
    omega
  · rw [if_neg below]
    rw [UInt32.lt_iff_toNat_lt] at below
    have down : memmoveDown dest src count.toNat (.ofNat count.toNat) m = _ := memmoveDown_eq
    rw [UInt32.ofNat_toNat] at down
    rw [down]
    refine copied_copyDown distinct fun j l less inside same => ?_
    have := meets j l (less.trans inside) inside same
    omega

/-- After `memmove`, and `memcpy`, every byte of the target is what the byte of the source was,
and no other byte has changed. -/
theorem memmove_copies (fits : dest.toNat + count.toNat ≤ 2 ^ 32)
    (fits' : src.toNat + count.toNat ≤ 2 ^ 32) :
    memcpy m dest src count = memmove m dest src count ∧
      (memmove m dest src count).1 = dest ∧
      (∀ i < count, (memmove m dest src count).2 (dest + i) = m (src + i)) ∧
      ∀ a : UInt32, ¬ (dest.toNat ≤ a.toNat ∧ a.toNat < dest.toNat + count.toNat) →
        (memmove m dest src count).2 a = m a := by
  have copied : Copied (regionAt dest) (regionAt src) m 0 count.toNat _ :=
    copied_memmove fits fits'
  refine ⟨rfl, rfl, fun i inside => ?_, fun a outside => ?_⟩
  · have target := copied.target i.toNat i.toNat.zero_le (UInt32.lt_iff_toNat_lt.mp inside)
    rwa [regionAt, regionAt, UInt32.ofNat_toNat] at target
  · refine copied.frame a fun j _ inside same => outside ?_
    rw [same, regionAt_toNat fits inside]
    omega

/-- Four bytes are moved one byte up, and one byte down, onto themselves. -/
theorem memmove_copies_overlapping :
    (∀ i < 4, (memmove (·.toUInt8) 17 16 4).2 (17 + i) = (16 + i).toUInt8) ∧
      ∀ i < 4, (memmove (·.toUInt8) 16 17 4).2 (16 + i) = (17 + i).toUInt8 :=
  ⟨(memmove_copies (m := (·.toUInt8)) (by decide) (by decide)).2.2.1,
    (memmove_copies (m := (·.toUInt8)) (by decide) (by decide)).2.2.1⟩

end Gravel
