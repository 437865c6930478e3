import Mathlib.Data.List.Basic
import Mathlib.Logic.Function.Basic
import Mathlib.Order.Bounds.Basic

/-!
# Data refinement, and maps keyed by an order

An abstract data type is a step function that answers an operation with a result
and a new state, or fails. One step function refines another when related states
give the same answer, or the same failure, and related states again. The second
part is the data type most priority queues refine: a partial map whose keys are
ordered, with the least key singled out.

## Main definitions

* `Outcome R` — two results of a step agree up to `R`
* `Refines R exec spec` — every operation preserves `R` and gives the same answer
* `execList` — a sequence of operations, up to the first failure
* `keys` — the keys of a partial map

## Main results

* `Refines.execList` — refinement of operations is refinement of sequences
* `keys_update_some`, `keys_update_none` — what an update does to the keys
-/

namespace Gravel.Library

section Refinement

variable {σ τ α ρ ε : Type*} {R : σ → τ → Prop} {exec : σ → α → Except ε (ρ × σ)}
  {spec : τ → α → Except ε (ρ × τ)} {s : σ} {t : τ}

/-- The same failure, or the same answer and related states. -/
inductive Outcome (R : σ → τ → Prop) : Except ε (ρ × σ) → Except ε (ρ × τ) → Prop
  | error (e : ε) : Outcome R (.error e) (.error e)
  | ok {s : σ} {t : τ} (r : ρ) (related : R s t) : Outcome R (.ok (r, s)) (.ok (r, t))

theorem Outcome.mono {R' : σ → τ → Prop} {left : Except ε (ρ × σ)} {right : Except ε (ρ × τ)}
    (outcome : Outcome R left right) (weaker : ∀ s t, R s t → R' s t) :
    Outcome R' left right := by
  cases outcome with
  | error e => exact .error e
  | ok r related => exact .ok r (weaker _ _ related)

/-- Operations on related states have agreeing outcomes. -/
def Refines (R : σ → τ → Prop) (exec : σ → α → Except ε (ρ × σ))
    (spec : τ → α → Except ε (ρ × τ)) : Prop :=
  ∀ s t a, R s t → Outcome R (exec s a) (spec t a)

/-- Perform the listed operations, up to the first failure, and collect the answers. -/
def execList (exec : σ → α → Except ε (ρ × σ)) : List α → σ → Except ε (List ρ × σ)
  | [], s => .ok ([], s)
  | a :: rest, s =>
    match exec s a with
    | .error e => .error e
    | .ok (r, s) =>
      match execList exec rest s with
      | .error e => .error e
      | .ok (rs, s) => .ok (r :: rs, s)

/-- Sequences of operations on related states have agreeing outcomes. -/
theorem Refines.execList (refines : Refines R exec spec) (ops : List α) (start : R s t) :
    Outcome R (execList exec ops s) (execList spec ops t) := by
  induction ops generalizing s t with
  | nil => exact .ok [] start
  | cons a rest ih =>
    have first := refines s t a start
    simp only [Library.execList]
    generalize exec s a = left at first ⊢
    generalize spec t a = right at first ⊢
    -- Both sides fail at this operation, or both go on from related states.
    cases first with
    | error e => exact .error e
    | @ok s' t' r related =>
      have others := ih related
      dsimp only
      generalize Library.execList exec rest s' = left at others ⊢
      generalize Library.execList spec rest t' = right at others ⊢
      cases others with
      | error e => exact .error e
      | ok rs related => exact .ok (r :: rs) related

end Refinement

section Keys

variable {κ β : Type*} {Q : κ → Option β} {k m : κ} {b : β}

/-- The keys of a partial map. -/
def keys (Q : κ → Option β) : Set κ := {k | ∃ b, Q k = some b}

theorem mem_keys : k ∈ keys Q ↔ ∃ b, Q k = some b := Iff.rfl

theorem mem_keys_of_eq_some (found : Q k = some b) : k ∈ keys Q := ⟨b, found⟩

theorem notMem_keys : k ∉ keys Q ↔ Q k = none := by
  rw [mem_keys, Option.eq_none_iff_forall_ne_some, not_exists]

@[simp] theorem keys_empty : keys (fun _ : κ => (none : Option β)) = ∅ := by
  ext k
  simp [keys]

variable [DecidableEq κ]

@[simp] theorem keys_update_some : keys (Function.update Q k (some b)) = insert k (keys Q) := by
  ext k'
  by_cases same : k' = k
  · subst same
    simp [keys]
  · simp [keys, same]

@[simp] theorem keys_update_none : keys (Function.update Q k none) = keys Q \ {k} := by
  ext k'
  by_cases same : k' = k
  · subst same
    simp [keys]
  · simp [keys, same]

end Keys

end Gravel.Library
