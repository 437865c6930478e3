import Mathlib.Data.List.Pairwise
import Mathlib.Data.List.Count
import Mathlib.Data.Bool.Basic
import Mathlib.Order.Monotone.Basic
import Mathlib.Tactic.Linarith

/-!
# Bubbling over a range that shrinks at the wrong end

A pass over a list carries one entry along and leaves the larger of two behind, so the
smallest entry ends up last. A bubble sort repeats passes and may leave out the last
entry from then on. The variant studied here leaves out the *first* entry instead, which
need not be the largest. It sorts some lists and not others.

The analysis is by the zero-one principle: the variant commutes with thresholds, and
on a list of bits a pass moves the first zero to the end.

## Main definitions

* `bubble`, `shrinkSort` — one pass, and passes over a shrinking list
* `FewBelow` — no entry has more smaller entries before it than others, but one
* `Balanced` — the same for bits, by a running balance

## Main results

* `shrinkSort_perm` — the result is a permutation
* `shrinkSort_descending_iff` — it descends exactly when `FewBelow` holds
-/

namespace Gravel.Library

variable {α β κ : Type*}

section Passes

variable [LinearOrder κ]

/-- One pass: of the carried entry and the next one, the larger is left behind and the
smaller is carried on. -/
def bubble (key : α → κ) (carry : α) : List α → List α
  | [] => [carry]
  | y :: ys => if key carry < key y then y :: bubble key carry ys else carry :: bubble key y ys

/-- At most `n` passes, each over the list without the first entry the previous one left. -/
def shrinkSort (key : α → κ) : ℕ → List α → List α
  -- The first entry of a pass is never compared again.
  | 0, l => l
  | _ + 1, [] => []
  | n + 1, y :: ys =>
    match bubble key y ys with
    | [] => []
    | z :: zs => z :: shrinkSort key n zs

variable {key : α → κ} {c z : α} {l ys zs : List α} {n : ℕ}

theorem length_bubble (key : α → κ) (c : α) (ys : List α) :
    (bubble key c ys).length = ys.length + 1 := by
  induction ys generalizing c with
  | nil => rfl
  | cons y ys ih =>
    unfold bubble
    split <;> simp [ih]

theorem exists_bubble_eq_cons (key : α → κ) (c : α) (ys : List α) :
    ∃ z zs, bubble key c ys = z :: zs ∧ zs.length = ys.length := by
  have size := length_bubble key c ys
  cases pass : bubble key c ys with
  | nil => simp [pass] at size
  | cons z zs => exact ⟨z, zs, rfl, by simpa [pass] using size⟩

theorem shrinkSort_cons (pass : bubble key c ys = z :: zs) :
    shrinkSort key (n + 1) (c :: ys) = z :: shrinkSort key n zs := by
  simp only [shrinkSort, pass]

theorem bubble_perm : (bubble key c ys).Perm (c :: ys) := by
  induction ys generalizing c with
  | nil => exact .refl _
  | cons y ys ih =>
    unfold bubble
    split
    · exact (ih.cons y).trans (.swap c y ys)
    · exact ih.cons c

theorem shrinkSort_perm (size : l.length = n) : (shrinkSort key n l).Perm l := by
  induction n generalizing l with
  | zero => exact .refl _
  | succ n ih =>
    cases l with
    | nil => simp at size
    | cons y ys =>
      obtain ⟨z, zs, pass, length⟩ := exists_bubble_eq_cons key y ys
      rw [shrinkSort_cons pass]
      have rest := ih (l := zs) (by simp at size; omega)
      exact (rest.cons z).trans (pass ▸ bubble_perm)

/-- A pass commutes with a map that only merges keys. -/
theorem bubble_map [LinearOrder β] {f : α → β} (mono : ∀ a b, key a ≤ key b → f a ≤ f b) :
    (bubble key c ys).map f = bubble id (f c) (ys.map f) := by
  induction ys generalizing c with
  | nil => rfl
  | cons y ys ih =>
    simp only [bubble, List.map_cons, id]
    by_cases less : key c < key y
    · rw [if_pos less, List.map_cons, ih]
      rcases lt_or_eq_of_le (mono c y less.le) with strict | same
      · rw [if_pos strict]
      · rw [if_neg (not_lt.mpr same.ge), same]
    · rw [if_neg less, List.map_cons, ih, if_neg (not_lt.mpr (mono y c (not_lt.mp less)))]

theorem shrinkSort_map [LinearOrder β] {f : α → β} (mono : ∀ a b, key a ≤ key b → f a ≤ f b) :
    (shrinkSort key n l).map f = shrinkSort id n (l.map f) := by
  induction n generalizing l with
  | zero => rfl
  | succ n ih =>
    cases l with
    | nil => rfl
    | cons y ys =>
      obtain ⟨z, zs, pass, -⟩ := exists_bubble_eq_cons key y ys
      have pass' : bubble id (f y) (ys.map f) = f z :: zs.map f := by
        rw [← bubble_map mono, pass, List.map_cons]
      rw [shrinkSort_cons pass, List.map_cons, List.map_cons, shrinkSort_cons pass', ih]

end Passes

/-! ### Lists of bits -/

section Bits

/-- At every one, the zeros so far exceed the ones so far by at most one more than `d`. -/
def Balanced : ℤ → List Bool → Prop
  | _, [] => True
  | d, true :: l => -1 ≤ d ∧ Balanced (d + 1) l
  | d, false :: l => Balanced (d - 1) l

/-- Move the first zero to the end. -/
def sink : List Bool → List Bool
  | [] => []
  | true :: l => true :: sink l
  | false :: l => l ++ [false]

variable {d : ℤ} {l : List Bool} {n : ℕ}

theorem bubble_false : bubble id false l = l ++ [false] := by
  induction l with
  | nil => rfl
  | cons b l ih => cases b <;> simp [bubble, ih]

theorem bubble_true : bubble id true l = true :: sink l := by
  induction l with
  | nil => rfl
  | cons b l ih => cases b <;> simp [bubble, sink, ih, bubble_false]

theorem balanced_append_false : Balanced d (l ++ [false]) ↔ Balanced d l := by
  induction l generalizing d with
  | nil => simp [Balanced]
  | cons b l ih => cases b <;> simp [Balanced, ih]

/-- A pass that starts with a one pays for it with the zero it moves. -/
theorem balanced_sink (positive : 0 ≤ d) : Balanced d (sink l) ↔ Balanced (d + 1) l := by
  induction l generalizing d with
  | nil => simp [Balanced, sink]
  | cons b l ih =>
    cases b with
    | false => simp [Balanced, sink, balanced_append_false]
    | true =>
      have low : -1 ≤ d := by omega
      have low' : -1 ≤ d + 1 := by omega
      simp [Balanced, sink, ih (by omega : 0 ≤ d + 1), low, low']

theorem balanced_of_lt (low : d < -1) : Balanced d l ↔ true ∉ l := by
  induction l generalizing d with
  | nil => simp [Balanced]
  | cons b l ih =>
    cases b with
    | false => simp [Balanced, ih (by omega : d - 1 < -1)]
    | true => simp [Balanced, low]

theorem balanced_of_notMem (absent : true ∉ l) : Balanced d l := by
  induction l generalizing d with
  | nil => trivial
  | cons b l ih =>
    cases b with
    | false => exact ih (by simpa using absent)
    | true => simp at absent

/-- On bits the passes sort exactly the balanced lists. -/
theorem shrinkSort_bits_iff (size : l.length = n) :
    (shrinkSort id n l).Pairwise (fun x y => y ≤ x) ↔ Balanced 0 l := by
  induction n generalizing l with
  | zero =>
    obtain rfl := List.eq_nil_of_length_eq_zero size
    simp [shrinkSort, Balanced]
  | succ n ih =>
    -- After a pass the first entry is final, and the rest is sorted by induction.
    have step {b z : Bool} {l zs : List Bool} (pass : bubble id b l = z :: zs)
        (size : zs.length = n) : (shrinkSort id (n + 1) (b :: l)).Pairwise (fun x y => y ≤ x) ↔
          (∀ y ∈ zs, y ≤ z) ∧ Balanced 0 zs := by
      rw [shrinkSort_cons pass, List.pairwise_cons, ih size]
      simp only [(shrinkSort_perm size).mem_iff]
    rcases l with - | ⟨_ | _, l⟩
    · simp at size
    · -- The carried zero goes to the end, and the entry after it is final.
      rcases l with - | ⟨_ | _, l⟩
      · -- A single zero.
        have last : bubble id false [] = false :: [] := rfl
        rw [step last (by simpa [eq_comm] using size)]
        simp [Balanced]
      · -- A zero is left in front: it is in order only if no one follows.
        have pass : bubble id false (false :: l) = false :: (l ++ [false]) := bubble_false
        rw [step pass (by simpa using size), balanced_append_false]
        have low : Balanced (0 - 1 - 1) l ↔ true ∉ l := balanced_of_lt (by omega)
        simp only [Balanced, low]
        constructor
        · rintro ⟨small, -⟩ member
          exact absurd (small true (by simp [member])) (by decide)
        · intro absent
          refine ⟨fun y member => ?_, balanced_of_notMem absent⟩
          cases y with
          | false => exact le_rfl
          | true => simp [absent] at member
      · -- A one is left in front, and the balance of the rest is the old one.
        have pass : bubble id false (true :: l) = true :: (l ++ [false]) := bubble_false
        rw [step pass (by simpa using size), balanced_append_false]
        simp [Balanced, Bool.le_true]
    · -- A carried one meets the first zero, which takes its place to the end.
      rw [step bubble_true, balanced_sink le_rfl]
      · simp [Balanced, Bool.le_true]
      · have length := length_bubble id true l
        rw [bubble_true] at length
        simp at length size
        omega

/-- The running balance, read as counts. -/
theorem balanced_iff : Balanced d l ↔ ∀ u v, l = u ++ true :: v →
    (u.countP (! ·) : ℤ) ≤ 1 + d + u.countP id := by
  induction l generalizing d with
  | nil => simp [Balanced]
  | cons b l ih =>
    constructor
    · intro balanced u v split
      rcases u with - | ⟨a, u⟩
      · obtain ⟨rfl, rfl⟩ := List.cons.inj split
        have low : -1 ≤ d := balanced.1
        simp
        omega
      · obtain ⟨rfl, rest⟩ := List.cons.inj split
        cases b with
        | true =>
          have counts := ih.mp balanced.2 u v rest
          simp at counts ⊢
          omega
        | false =>
          have counts := ih.mp balanced u v rest
          simp at counts ⊢
          omega
    · intro counts
      cases b with
      | true =>
        refine ⟨?_, ih.mpr fun u v rest => ?_⟩
        · have first := counts [] l rfl
          simp at first
          omega
        · have shifted := counts (true :: u) v (by rw [rest]; rfl)
          simp at shifted ⊢
          omega
      | false =>
        refine ih.mpr fun u v rest => ?_
        have shifted := counts (false :: u) v (by rw [rest]; rfl)
        simp at shifted ⊢
        omega

end Bits

/-! ### All lists -/

section Keys

variable [LinearOrder κ]

/-- At every entry, the smaller ones before it are at most one more than the others. -/
def FewBelow (key : α → κ) (l : List α) : Prop :=
  ∀ u x v, l = u ++ x :: v →
    u.countP (fun y => key y < key x) ≤ 1 + u.countP (fun y => key x ≤ key y)

variable {key : α → κ} {l : List α} {n : ℕ}

theorem pairwise_iff_thresholds :
    l.Pairwise (fun x y => key y ≤ key x) ↔
      ∀ θ, (l.map fun x => decide (θ ≤ key x)).Pairwise (fun x y => y ≤ x) := by
  constructor
  · intro descending θ
    refine List.pairwise_map.mpr (descending.imp fun {x y} order => ?_)
    by_cases above : θ ≤ key y
    · simp [above, above.trans order]
    · simp [above]
  · intro thresholds
    rw [List.pairwise_iff_getElem]
    intro i j hi hj less
    have order := List.pairwise_iff_getElem.mp (List.pairwise_map.mp (thresholds (key l[j])))
      i j hi hj less
    rw [decide_eq_true (le_refl (key l[j]))] at order
    exact of_decide_eq_true (Bool.eq_true_of_true_le order)

theorem fewBelow_iff_thresholds :
    FewBelow key l ↔ ∀ θ, Balanced 0 (l.map fun x => decide (θ ≤ key x)) := by
  simp only [balanced_iff]
  constructor
  · intro few θ u v split
    obtain ⟨u, w, rfl, rfl, tail⟩ := List.map_eq_append_iff.mp split
    obtain ⟨x, v, rfl, reached, rfl⟩ := List.map_eq_cons_iff.mp tail
    have above : θ ≤ key x := of_decide_eq_true reached
    have zeros : u.countP (fun y => !decide (θ ≤ key y)) ≤ u.countP (fun y => key y < key x) :=
      List.countP_mono_left fun y _ below => by
        have less : ¬ θ ≤ key y := by simpa using below
        exact decide_eq_true ((not_le.mp less).trans_le above)
    have ones : u.countP (fun y => key x ≤ key y) ≤ u.countP (fun y => decide (θ ≤ key y)) :=
      List.countP_mono_left fun y _ exceeds => by
        exact decide_eq_true (above.trans (of_decide_eq_true exceeds))
    have counts := few u x v rfl
    simp only [List.countP_map, Function.comp_def, id]
    omega
  · rintro balanced u x v rfl
    have counts := balanced (key x) (u.map fun y => decide (key x ≤ key y))
      (v.map fun y => decide (key x ≤ key y)) (by simp)
    simp only [List.countP_map, Function.comp_def, id] at counts
    have zeros : u.countP (fun y => key y < key x) = u.countP (fun y => !decide (key x ≤ key y)) :=
      List.countP_congr fun y _ => by simp
    omega

/-- The passes sort a list exactly when no entry has too many smaller ones before it. -/
theorem shrinkSort_descending_iff (size : l.length = n) :
    (shrinkSort key n l).Pairwise (fun x y => key y ≤ key x) ↔ FewBelow key l := by
  rw [pairwise_iff_thresholds, fewBelow_iff_thresholds]
  refine forall_congr' fun θ => ?_
  have mono (a b : α) (order : key a ≤ key b) : decide (θ ≤ key a) ≤ decide (θ ≤ key b) := by
    by_cases above : θ ≤ key a
    · simp [above, above.trans order]
    · simp [above]
  rw [shrinkSort_map mono, shrinkSort_bits_iff (by simpa using size)]

end Keys

end Gravel.Library
