import Gravel.Libc.Memmove

/-!
# `strncpy`

The copy of a string into a field of fixed length. When the string does not end within the field,
the counter has wrapped around before the loop that pads the field looks at it.

## Main definitions

* `strncpy`
* `Padded` — the field holds the string, with null bytes behind it, and nothing else has changed

## Main results

* `strncpy_padded_iff` — that is so if the string ends within the field; otherwise all memory but
  the last byte of the field is wiped
-/

namespace Gravel

open Library

/-- `while (count-- > 0 && (*to++ = *from++))`: `to`, `count` and the memory it leaves. -/
def strncpyCopy : ℕ → UInt32 → UInt32 → Memory → UInt32 × UInt32 × Memory
  -- The counter is decremented once more.
  | 0, dest, _, m => (dest, 0xffffffff, m)
  | count + 1, dest, src, m =>
    let c := m src
    let m := Function.update m dest c
    if c ≠ 0 then strncpyCopy count (dest + 1) (src + 1) m else (dest + 1, .ofNat count, m)

/-- `while (count-- > 0) *to++ = '\0'` -/
def strncpyPad : ℕ → UInt32 → Memory → Memory
  | 0, _, m => m
  | count + 1, dest, m => strncpyPad count (dest + 1) (Function.update m dest 0)

/-- What the call returns, and the memory it leaves. -/
def strncpy (m : Memory) (dest src count : UInt32) : UInt32 × Memory :=
  let (behind, count, m) := strncpyCopy count.toNat dest src m
  (dest, strncpyPad count.toNat behind m)

/-- The field of `count` bytes holds the string, and null bytes from its end on. -/
structure Padded (m : Memory) (dest src count : UInt32) (m' : Memory) : Prop where
  field : ∀ i < count.toNat, m' (regionAt dest i) =
    if ∃ j ≤ i, m (regionAt src j) = 0 then 0 else m (regionAt src i)
  frame : ∀ a, (∀ i < count.toNat, a ≠ regionAt dest i) → m' a = m a

variable {m m' : Memory} {a dest src count : UInt32} {i n left : ℕ}

@[simp] theorem regionAt_add_one : regionAt a i + 1 = regionAt a (i + 1) := by
  rw [regionAt, regionAt, UInt32.ofNat_add, UInt32.add_assoc]
  rfl

/-! ### Padding -/

/-- The addresses are those at a distance below the count. -/
theorem strncpyPad_apply (bound : n < 2 ^ 32) :
    strncpyPad n dest m a = if (a - dest).toNat < n then 0 else m a := by
  induction n generalizing dest m with
  | zero => rfl
  | succ n ih =>
    rw [strncpyPad, ih (Nat.lt_of_succ_lt bound), sub_add_eq]
    by_cases first : a = dest
    · subst first
      rw [UInt32.sub_self, Function.update_self]
      simp
    · have distance : (a - dest).toNat ≠ 0 := by
        intro zero
        have none : a - dest = 0 := UInt32.toNat_inj.mp zero
        exact first (by rw [← UInt32.sub_add_cancel a dest, none, UInt32.zero_add])
      have shorter : (a - dest - 1).toNat = (a - dest).toNat - 1 := by
        have small := (a - dest).toNat_lt
        rw [UInt32.toNat_sub, UInt32.toNat_one]
        omega
      rw [Function.update_of_ne first, shorter]
      congr 1
      rw [eq_iff_iff]
      omega

/-! ### Copying -/

/-- How the copy ends: behind the null byte of the string, or behind the field with the counter
wrapped around. -/
inductive CopyEnds (m : Memory) (dest src count : UInt32) : UInt32 × UInt32 × Memory → Prop
  | full (m' : Memory) (left : UInt32)
      (copied : Copied (regionAt dest) (regionAt src) m 0 count.toNat m')
      (plain : ∀ j < count.toNat, m (regionAt src j) ≠ 0) (wrapped : left = 0xffffffff) :
      CopyEnds m dest src count (regionAt dest count.toNat, left, m')
  | null (n : ℕ) (m' : Memory) (copied : Copied (regionAt dest) (regionAt src) m 0 (n + 1) m')
      (inside : n < count.toNat) (plain : ∀ j < n, m (regionAt src j) ≠ 0)
      (zero : m (regionAt src n) = 0) :
      CopyEnds m dest src count (regionAt dest (n + 1), .ofNat (count.toNat - (n + 1)), m')

/-- By induction on what is left of the field, after the `i` bytes copied. -/
theorem copyEnds (distinct : ∀ j l, j < l → l < count.toNat → regionAt dest j ≠ regionAt dest l)
    (apart : ∀ j < count.toNat, ∀ l < count.toNat, regionAt src j ≠ regionAt dest l)
    (total : i + left = count.toNat)
    (copied : Copied (regionAt dest) (regionAt src) m 0 i m')
    (plain : ∀ j < i, m (regionAt src j) ≠ 0) :
    CopyEnds m dest src count (strncpyCopy left (regionAt dest i) (regionAt src i) m') := by
  induction left generalizing i m' with
  | zero =>
    obtain rfl : i = count.toNat := total
    exact .full m' _ copied plain rfl
  | succ left ih =>
    have unread : ∀ j, 0 ≤ j → j < i → regionAt src i ≠ regionAt dest j := fun j _ before =>
      apart i (by omega) j (by omega)
    have next := copied.up i.zero_le (fun j _ before => distinct j i before (by omega)) unread
    have same : m' (regionAt src i) = m (regionAt src i) := copied.frame _ unread
    rw [strncpyCopy, regionAt_add_one, regionAt_add_one]
    by_cases zero : m (regionAt src i) = 0
    · rw [if_neg (not_not.mpr (same.trans zero))]
      obtain rfl : left = count.toNat - (i + 1) := by omega
      exact .null i _ next (by omega) plain zero
    · rw [if_pos (same.trans_ne zero)]
      refine ih (by omega) next fun j before => ?_
      rcases Nat.lt_succ_iff_lt_or_eq.mp before with earlier | rfl
      · exact plain j earlier
      · exact zero

/-! ### The field -/

/-- Padding after the counter has wrapped around leaves one byte. -/
theorem wiped {left : UInt32} (wrapped : left = 0xffffffff) (other : a ≠ dest + (count - 1)) :
    strncpyPad left.toNat (regionAt dest count.toNat) m a = 0 := by
  have limit : left.toNat = 2 ^ 32 - 1 := congrArg UInt32.toNat wrapped
  rw [strncpyPad_apply left.toNat_lt, regionAt, UInt32.ofNat_toNat, if_pos]
  by_contra far
  have last : a - (dest + count) = 0xffffffff := by
    have bound := (a - (dest + count)).toNat_lt
    rw [← wrapped]
    apply UInt32.toNat_inj.mp
    omega
  have minus : (0xffffffff : UInt32) = -1 := rfl
  apply other
  rw [← UInt32.sub_add_cancel a (dest + count), last, minus, UInt32.add_comm, UInt32.add_assoc,
    UInt32.sub_eq_add_neg]

/-- The null bytes from the end of the string to the end of the field. -/
theorem padded_of_null (fits : dest.toNat + count.toNat ≤ 2 ^ 32)
    (copied : Copied (regionAt dest) (regionAt src) m 0 (n + 1) m') (inside : n < count.toNat)
    (plain : ∀ j < n, m (regionAt src j) ≠ 0) (zero : m (regionAt src n) = 0) :
    Padded m dest src count
      (strncpyPad (UInt32.ofNat (count.toNat - (n + 1))).toNat (regionAt dest (n + 1)) m') := by
  have small := count.toNat_lt
  have left : (UInt32.ofNat (count.toNat - (n + 1))).toNat = count.toNat - (n + 1) :=
    toNat_ofNat_of_lt (by omega)
  have position (i : ℕ) (here : i < count.toNat) :
      (regionAt dest i - regionAt dest (n + 1)).toNat < count.toNat - (n + 1) ↔ n + 1 ≤ i := by
    rcases Nat.lt_or_ge (n + 1) count.toNat with room | none
    · rw [UInt32.toNat_sub, regionAt_toNat fits here, regionAt_toNat fits room]
      omega
    · omega
  rw [left]
  constructor
  · intro i here
    rw [strncpyPad_apply (by omega)]
    by_cases behind : n + 1 ≤ i
    · rw [if_pos ((position i here).mpr behind), if_pos ⟨n, by omega, zero⟩]
    · rw [if_neg (mt (position i here).mp behind), copied.target i i.zero_le (by omega)]
      split_ifs with ended
      · obtain ⟨j, before, none⟩ := ended
        rcases (show j ≤ n by omega).lt_or_eq with earlier | rfl
        · exact absurd none (plain j earlier)
        · rwa [show i = j by omega]
      · rfl
  · intro a outside
    rw [strncpyPad_apply (by omega), if_neg]
    · exact copied.frame a fun j _ before => outside j (by omega)
    · intro within
      refine outside (n + 1 + (a - regionAt dest (n + 1)).toNat) (by omega) ?_
      rw [regionAt, UInt32.ofNat_add, UInt32.ofNat_toNat, ← UInt32.add_assoc, UInt32.add_comm]
      exact (UInt32.sub_add_cancel _ _).symm

/-- `strncpy` fills its field if and only if the string ends within it; otherwise it writes null
bytes to all of memory, but for the last byte of the field. -/
theorem strncpy_padded_iff (some_byte : 0 < count) (fits : dest.toNat + count.toNat ≤ 2 ^ 32)
    (fits' : src.toNat + count.toNat ≤ 2 ^ 32)
    (apart : dest.toNat + count.toNat ≤ src.toNat ∨ src.toNat + count.toNat ≤ dest.toNat) :
    (Padded m dest src count (strncpy m dest src count).2 ↔
        ∃ j < count.toNat, m (regionAt src j) = 0) ∧
      ((∀ j < count.toNat, m (regionAt src j) ≠ 0) →
        ∀ a, a ≠ dest + (count - 1) → (strncpy m dest src count).2 a = 0) := by
  have positive : 0 < count.toNat := UInt32.lt_iff_toNat_lt.mp some_byte
  have distinct (j l : ℕ) (less : j < l) (inside : l < count.toNat) :
      regionAt dest j ≠ regionAt dest l := by
    rw [Ne, ← UInt32.toNat_inj, regionAt_toNat fits (less.trans inside), regionAt_toNat fits inside]
    omega
  have separate (j : ℕ) (hj : j < count.toNat) (l : ℕ) (hl : l < count.toNat) :
      regionAt src j ≠ regionAt dest l := by
    rw [Ne, ← UInt32.toNat_inj, regionAt_toNat fits' hj, regionAt_toNat fits hl]
    omega
  have zero (b : UInt32) : regionAt b 0 = b := UInt32.add_zero b
  have ends := @copyEnds m m dest src count 0 count.toNat distinct separate (Nat.zero_add _)
    (copied_start _ _ _ _) (fun j before => absurd before j.not_lt_zero)
  rw [zero, zero] at ends
  unfold strncpy
  generalize strncpyCopy count.toNat dest src m = stopped at ends ⊢
  cases ends with
  | full m' left copied plain wrapped =>
    refine ⟨iff_of_false (fun padded => ?_) ?_, fun _ a other => wiped wrapped other⟩
    · -- The string itself has been wiped.
      have kept := padded.frame _ (separate 0 positive)
      have last : regionAt src 0 ≠ dest + (count - 1) := by
        have end_byte := separate 0 positive (count.toNat - 1) (by omega)
        have back : UInt32.ofNat (count.toNat - 1) = count - 1 := by
          apply UInt32.toNat_inj.mp
          have bound := count.toNat_lt
          rw [toNat_ofNat_of_lt (by omega), UInt32.toNat_sub,
            UInt32.toNat_one]
          omega
        rwa [regionAt.eq_1 dest, back] at end_byte
      exact plain 0 positive (kept.symm.trans (wiped wrapped last))
    · rintro ⟨j, inside, none⟩
      exact plain j inside none
  | null n m' copied inside plain none =>
    refine ⟨iff_of_true (padded_of_null fits copied inside plain none) ⟨n, inside, none⟩, ?_⟩
    exact fun all => absurd none (all n inside)

/-- A string of more than four characters, and a field of four. -/
theorem strncpy_padded_iff_long :
    ¬ Padded (fun _ => 1) 16 32 4 (strncpy (fun _ => 1) 16 32 4).2 ∧
      (strncpy (fun _ => 1) 16 32 4).2 0xdeadbeef = 0 := by
  have plain : ∀ j < (4 : UInt32).toNat, (1 : UInt8) ≠ 0 := fun _ _ => by decide
  obtain ⟨padded, wiped⟩ := @strncpy_padded_iff (fun _ => 1) 16 32 4 (by decide) (by decide)
    (by decide) (.inl (by decide))
  constructor
  · intro holds
    obtain ⟨j, inside, null⟩ := padded.mp holds
    exact plain j inside null
  · exact wiped plain _ (by decide)

end Gravel
