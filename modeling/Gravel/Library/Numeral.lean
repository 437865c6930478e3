import Mathlib.Data.Nat.Digits.Lemmas

/-!
# Numerals

A number is written as its digits in a base, the most significant one first, and read back by a
scan that goes on as long as it finds digits.

## Main definitions

* `numeral` — the digits of a number
* `horner` — the number of some digits
* `scanDigits` — the scan, over any alphabet

## Main results

* `horner_numeral` — the number is read back
* `numeral_length_le` — how many digits there are
* `scanDigits_map` — the scan of digits that were written
-/

namespace Gravel.Library

variable {α β : Type*} {base u v k : ℕ} {ds : List ℕ}

/-- The digits of a number, the most significant one first. -/
def numeral (base u : ℕ) : List ℕ := if u = 0 then [0] else (base.digits u).reverse

/-- The number of some digits, after those of another number. -/
def horner (base v : ℕ) (ds : List ℕ) : ℕ := ds.foldl (fun v d => v * base + d) v

/-! ### Writing -/

theorem numeral_of_lt (small : u < base) : numeral base u = [u] := by
  rw [numeral]
  split
  · rename_i zero
    rw [zero]
  · rename_i nonzero
    rw [Nat.digits_of_lt base u nonzero small, List.reverse_singleton]

theorem numeral_of_le (two : 1 < base) (large : base ≤ u) :
    numeral base u = numeral base (u / base) ++ [u % base] := by
  have positive : 0 < u := by omega
  have rest : u / base ≠ 0 := (Nat.div_pos large (by omega)).ne'
  rw [numeral, if_neg positive.ne', numeral, if_neg rest, Nat.digits_def' two positive,
    List.reverse_cons]

theorem numeral_ne_nil : numeral base u ≠ [] := by
  rw [numeral]
  split
  · simp
  · rename_i nonzero
    rw [ne_eq, List.reverse_eq_nil_iff]
    exact Nat.digits_ne_nil_iff_ne_zero.mpr nonzero

theorem lt_of_mem_numeral (two : 1 < base) {d : ℕ} (member : d ∈ numeral base u) : d < base := by
  rw [numeral] at member
  split at member
  · obtain rfl := List.mem_singleton.mp member
    omega
  · exact Nat.digits_lt_base two (List.mem_reverse.mp member)

theorem numeral_length_le (two : 1 < base) (positive : 0 < k) :
    (numeral base u).length ≤ k ↔ u < base ^ k := by
  rw [numeral]
  split
  · rename_i zero
    rw [zero]
    simp only [List.length_singleton]
    exact ⟨fun _ => Nat.pow_pos (by omega), fun _ => positive⟩
  · rw [List.length_reverse, Nat.digits_length_le_iff two]

/-! ### Reading -/

theorem horner_append {es : List ℕ} :
    horner base v (ds ++ es) = horner base (horner base v ds) es :=
  List.foldl_append

theorem horner_reverse : horner base 0 ds.reverse = Nat.ofDigits base ds := by
  induction ds with
  | nil => rfl
  | cons d ds ih =>
    rw [List.reverse_cons, horner_append, ih, Nat.ofDigits_cons, Nat.add_comm, Nat.mul_comm base]
    rfl

theorem horner_numeral : horner base 0 (numeral base u) = u := by
  rw [numeral]
  split
  · rename_i zero
    simp [horner, zero]
  · rw [horner_reverse, Nat.ofDigits_digits]

/-- Zeros in front. -/
theorem horner_replicate : horner base 0 (List.replicate k 0 ++ ds) = horner base 0 ds := by
  rw [horner_append]
  congr 1
  induction k with
  | zero => rfl
  | succ k ih =>
    rw [List.replicate_succ', horner_append, ih]
    simp [horner]

/-- Read digits, as long as there are any. -/
def scanDigits (digit : α → Option ℕ) (step : β → ℕ → β) : β → List α → β × List α
  | v, [] => (v, [])
  | v, c :: text =>
    match digit c with
    | some d => scanDigits digit step (step v d) text
    | none => (v, c :: text)

variable {digit : α → Option ℕ} {step : β → ℕ → β} {char : ℕ → α} {rest : List α} {x : β}

/-- The scan of digits that were written. -/
theorem scanDigits_map (read : ∀ d ∈ ds, digit (char d) = some d) :
    scanDigits digit step x (ds.map char ++ rest) =
      scanDigits digit step (ds.foldl step x) rest := by
  induction ds generalizing x with
  | nil => rfl
  | cons d ds ih =>
    obtain ⟨first, read⟩ := List.forall_mem_cons.mp read
    rw [List.map_cons, List.cons_append, scanDigits, first]
    exact ih read

/-- The scan ends where no digit comes next. -/
theorem scanDigits_stop (stop : ∀ c ∈ rest.head?, digit c = none) :
    scanDigits digit step x rest = (x, rest) := by
  cases rest with
  | nil => rfl
  | cons c rest => rw [scanDigits, stop c rfl]

end Gravel.Library
