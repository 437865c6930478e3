import Mathlib.Data.UInt
import Mathlib.Logic.Function.Basic

/-!
# Byte memory

A memory of bytes with 32-bit addresses. A word takes four bytes, the lowest one first, at
any address; addresses wrap around.

## Main definitions

* `Memory`, `loadWord`, `storeWord`
* `storeTwo` — two words in a row

## Main results

* `loadWord_storeWord`, `loadWord_congr` — what a load sees
* `byteOf_loadWord` — the bytes of a word that was loaded are those it was loaded from
* `storeTwo_loadWord` — writing back two words that were loaded
-/

namespace Gravel.Library

/-- The bytes of a memory, by address. -/
abbrev Memory := UInt32 → UInt8

variable {m m' : Memory} {a b x v : UInt32} {k : ℕ}

/-- Byte `k` of a word. -/
def byteOf (v : UInt32) (k : ℕ) : UInt8 := .ofNat (v.toNat / 2 ^ (8 * k))

def loadWord (m : Memory) (a : UInt32) : UInt32 :=
  .ofNat ((m a).toNat + 2 ^ 8 * (m (a + 1)).toNat + 2 ^ 16 * (m (a + 2)).toNat +
    2 ^ 24 * (m (a + 3)).toNat)

def storeWord (m : Memory) (a v : UInt32) : Memory := fun x =>
  if x - a < 4 then byteOf v (x - a).toNat else m x

/-- The value of a number that fits in a word. -/
theorem toNat_ofNat_of_lt (small : k < 2 ^ 32) : (UInt32.ofNat k).toNat = k :=
  UInt32.toNat_ofNat_of_lt' small

theorem offset_sub (a k : UInt32) : a + k - a = k := by
  rw [UInt32.add_comm, UInt32.add_sub_cancel]

/-- The distance from a later address. -/
theorem sub_add_eq (x a k : UInt32) : x - (a + k) = x - a - k := by
  rw [UInt32.sub_eq_add_neg, UInt32.neg_add, UInt32.sub_eq_add_neg, ← UInt32.add_assoc,
    ← UInt32.sub_eq_add_neg, ← UInt32.sub_eq_add_neg]

/-! ### The bytes of a word -/

theorem storeWord_of_lt (inside : x - a < 4) : storeWord m a v x = byteOf v (x - a).toNat :=
  if_pos inside

theorem storeWord_of_not_lt (outside : ¬ x - a < 4) : storeWord m a v x = m x :=
  if_neg outside

/-- The four addresses of a word. -/
theorem eq_of_sub_lt (inside : x - a < 4) : x = a ∨ x = a + 1 ∨ x = a + 2 ∨ x = a + 3 := by
  have bound : (x - a).toNat < 4 := inside
  have back : x = a + (x - a) := by rw [UInt32.add_comm, UInt32.sub_add_cancel]
  have digit : x - a = 0 ∨ x - a = 1 ∨ x - a = 2 ∨ x - a = 3 := by
    simp only [← UInt32.toNat_inj]
    have values : (0 : UInt32).toNat = 0 ∧ (1 : UInt32).toNat = 1 ∧ (2 : UInt32).toNat = 2 ∧
      (3 : UInt32).toNat = 3 := by decide
    omega
  rcases digit with same | same | same | same <;> rw [same] at back
  · exact .inl (by simpa using back)
  · exact .inr (.inl back)
  · exact .inr (.inr (.inl back))
  · exact .inr (.inr (.inr back))

theorem loadWord_toNat (m : Memory) (a : UInt32) : (loadWord m a).toNat =
    (m a).toNat + 2 ^ 8 * (m (a + 1)).toNat + 2 ^ 16 * (m (a + 2)).toNat +
      2 ^ 24 * (m (a + 3)).toNat := by
  have h₀ := (m a).toNat_lt
  have h₁ := (m (a + 1)).toNat_lt
  have h₂ := (m (a + 2)).toNat_lt
  have h₃ := (m (a + 3)).toNat_lt
  exact toNat_ofNat_of_lt (by omega)

theorem byteOf_toNat (v : UInt32) (k : ℕ) : (byteOf v k).toNat = v.toNat / 2 ^ (8 * k) % 2 ^ 8 :=
  UInt8.toNat_ofNat'

/-- The bytes of a word that was loaded are those it was loaded from. -/
theorem byteOf_loadWord (inside : x - a < 4) : byteOf (loadWord m a) (x - a).toNat = m x := by
  have h₀ := (m a).toNat_lt
  have h₁ := (m (a + 1)).toNat_lt
  have h₂ := (m (a + 2)).toNat_lt
  have h₃ := (m (a + 3)).toNat_lt
  apply UInt8.toNat_inj.mp
  rw [byteOf_toNat, loadWord_toNat]
  rcases eq_of_sub_lt inside with rfl | rfl | rfl | rfl
  · rw [UInt32.sub_self]
    show _ / 2 ^ 0 % _ = _
    omega
  · rw [offset_sub]
    show _ / 2 ^ 8 % _ = _
    omega
  · rw [offset_sub]
    show _ / 2 ^ 16 % _ = _
    omega
  · rw [offset_sub]
    show _ / 2 ^ 24 % _ = _
    omega

/-! ### Loads -/

theorem loadWord_congr (agree : ∀ x, x - a < 4 → m x = m' x) : loadWord m a = loadWord m' a := by
  rw [loadWord, loadWord, agree a (by rw [UInt32.sub_self]; decide),
    agree (a + 1) (by rw [offset_sub]; decide), agree (a + 2) (by rw [offset_sub]; decide),
    agree (a + 3) (by rw [offset_sub]; decide)]

theorem loadWord_storeWord (m : Memory) (a v : UInt32) : loadWord (storeWord m a v) a = v := by
  have stored (k : UInt32) (inside : k < 4) : storeWord m a v (a + k) = byteOf v k.toNat := by
    rw [storeWord_of_lt (by rwa [offset_sub]), offset_sub]
  have first : storeWord m a v a = byteOf v 0 := by
    have zero := stored 0 (by decide)
    rwa [UInt32.add_zero] at zero
  apply UInt32.toNat_inj.mp
  rw [loadWord_toNat, first, stored 1 (by decide), stored 2 (by decide), stored 3 (by decide)]
  simp only [byteOf_toNat]
  have bound := v.toNat_lt
  show v.toNat / 2 ^ 0 % _ + _ * (v.toNat / 2 ^ 8 % _) + _ * (v.toNat / 2 ^ 16 % _) +
    _ * (v.toNat / 2 ^ 24 % _) = _
  omega

/-- A store elsewhere. -/
theorem loadWord_storeWord_of_apart (apart : ∀ x, x - a < 4 → ¬ x - b < 4) :
    loadWord (storeWord m b v) a = loadWord m a :=
  loadWord_congr fun x inside => storeWord_of_not_lt (apart x inside)

/-! ### Two words -/

/-- Words at `a` and at the next word. -/
def storeTwo (m : Memory) (a v w : UInt32) : Memory := storeWord (storeWord m a v) (a + 4) w

theorem sub_lt_eight_iff : x - a < 8 ↔ x - a < 4 ∨ x - (a + 4) < 4 := by
  rw [sub_add_eq]
  generalize x - a = y
  have bound := y.toNat_lt
  simp only [UInt32.lt_iff_toNat_lt, UInt32.toNat_sub]
  show _ < 8 ↔ _ < 4 ∨ (2 ^ 32 - 4 + _) % 2 ^ 32 < 4
  omega

theorem storeTwo_of_not_lt {w : UInt32} (outside : ¬ x - a < 8) : storeTwo m a v w x = m x := by
  rw [sub_lt_eight_iff, not_or] at outside
  rw [storeTwo, storeWord_of_not_lt outside.2, storeWord_of_not_lt outside.1]

/-- Writing back two words that were loaded. -/
theorem storeTwo_loadWord (m m' : Memory) (a x : UInt32) :
    storeTwo m a (loadWord m' a) (loadWord m' (a + 4)) x = if x - a < 8 then m' x else m x := by
  by_cases inside : x - a < 8
  · rw [if_pos inside, storeTwo]
    by_cases second : x - (a + 4) < 4
    · rw [storeWord_of_lt second, byteOf_loadWord second]
    · have first := (sub_lt_eight_iff.mp inside).resolve_right second
      rw [storeWord_of_not_lt second, storeWord_of_lt first, byteOf_loadWord first]
  · rw [if_neg inside, storeTwo_of_not_lt inside]

end Gravel.Library
