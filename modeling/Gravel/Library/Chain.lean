import Mathlib.Data.Fintype.Card
import Mathlib.Data.List.Nodup
import Mathlib.Logic.Function.Basic

/-!
# NULL-terminated chains of links

An intrusive list stores its order in the nodes: every node carries one link
field, and a head pointer names the first node. This file relates such a link
field `next : α → Option α` (`none` is the NULL link) to the list of nodes it
spells out, and says what the usual pointer updates do to that list.

## Main definitions

* `Chain next p l` — following links from the pointer `p` visits exactly the
  nodes of `l`, in order, and then meets NULL
* `Linked next p t` — node `t` can be reached from the pointer `p`
* `lastLink next fuel a` — walk from `a` to the node whose link is NULL

## Main results

* `Chain.unique`, `Chain.nodup` — a chain has one list, and visits no node twice
* `Chain.congr` — links outside the chain are irrelevant
* `Chain.cons_update`, `Chain.pop`, `Chain.snoc_update` — insertion in front,
  removal from the front, insertion at the end
* `Chain.linked_iff` — the reachable nodes are the members of the list
* `Chain.lastLink_eq` — over finitely many nodes the walk ends at the last one
-/

namespace Gravel.Library

variable {α : Type*} {next next' : α → Option α} {p : Option α} {a x : α} {l r : List α}

/-- Following links from `p` visits exactly the nodes of the list and then meets NULL. -/
def Chain (next : α → Option α) : Option α → List α → Prop
  | p, [] => p = none
  | p, a :: l => p = some a ∧ Chain next (next a) l

@[simp] theorem chain_nil : Chain next p [] ↔ p = none := Iff.rfl

@[simp] theorem chain_cons : Chain next p (a :: l) ↔ p = some a ∧ Chain next (next a) l := Iff.rfl

instance [DecidableEq α] : Decidable (Chain next p l) := by
  induction l generalizing p with
  | nil => exact inferInstanceAs (Decidable (p = none))
  | cons a l ih => exact @instDecidableAnd _ _ _ ih

/-- A head pointer spells out at most one list. -/
theorem Chain.unique (h : Chain next p l) (h' : Chain next p r) : l = r := by
  induction l generalizing p r with
  | nil =>
    cases r with
    | nil => rfl
    | cons b r =>
      rw [chain_nil] at h
      rw [chain_cons, h] at h'
      exact absurd h'.1 (by simp)
  | cons a l ih =>
    cases r with
    | nil =>
      rw [chain_nil] at h'
      rw [chain_cons, h'] at h
      exact absurd h.1 (by simp)
    | cons b r =>
      obtain ⟨rfl, hl⟩ := h
      obtain ⟨hb, hr⟩ := h'
      obtain rfl := Option.some.inj hb
      rw [ih hl hr]

/-- The pointer names the first node. -/
theorem Chain.eq_head? (h : Chain next p l) : p = l.head? := by
  cases l with
  | nil => exact h
  | cons a l => exact h.1

/-- Every suffix of a chain is a chain from its own first node. -/
theorem Chain.suffix (h : Chain next p (l ++ a :: r)) : Chain next (some a) (a :: r) := by
  induction l generalizing p with
  | nil => exact ⟨rfl, h.2⟩
  | cons b l ih => exact ih h.2

/-- A chain that ends cannot visit a node twice. -/
theorem Chain.nodup (h : Chain next p l) : l.Nodup := by
  induction l generalizing p with
  | nil => exact List.nodup_nil
  | cons a l ih =>
    refine List.nodup_cons.mpr ⟨fun member => ?_, ih h.2⟩
    obtain ⟨u, v, rfl⟩ := List.append_of_mem member
    -- The two occurrences of `a` would spell out lists of different lengths.
    have short : Chain next (some a) (a :: v) := h.2.suffix
    have long : Chain next (some a) (a :: (u ++ a :: v)) := ⟨rfl, h.2⟩
    have lengths := congrArg List.length (short.unique long)
    simp only [List.length_cons, List.length_append] at lengths
    omega

/-- Only the links of the visited nodes matter. -/
theorem Chain.congr (agree : ∀ a ∈ l, next a = next' a) (h : Chain next p l) :
    Chain next' p l := by
  induction l generalizing p with
  | nil => exact h
  | cons a l ih =>
    refine ⟨h.1, ?_⟩
    rw [← agree a List.mem_cons_self]
    exact ih (fun b member => agree b (List.mem_cons_of_mem a member)) h.2

section Update

variable [DecidableEq α]

/-- Writing the link of a node outside the chain leaves the chain alone. -/
theorem Chain.update_of_notMem {q : Option α} (fresh : x ∉ l) (h : Chain next p l) :
    Chain (Function.update next x q) p l :=
  h.congr fun b member => by
    rw [Function.update_of_ne]
    rintro rfl
    exact fresh member

/-- Insertion in front: link the new node to the old head. -/
theorem Chain.cons_update (fresh : x ∉ l) (h : Chain next p l) :
    Chain (Function.update next x p) (some x) (x :: l) := by
  refine ⟨rfl, ?_⟩
  rw [Function.update_self]
  exact h.update_of_notMem fresh

/-- Removal from the front, with the link of the removed node cleared. -/
theorem Chain.pop (h : Chain next p (a :: l)) :
    Chain (Function.update next a none) (next a) l :=
  h.2.update_of_notMem (List.nodup_cons.mp h.nodup).1

/-- Insertion at the end: clear the link of the new node, then point the last
node at it. -/
theorem Chain.snoc_update (fresh : x ∉ l ++ [a]) (h : Chain next p (l ++ [a])) :
    Chain (Function.update (Function.update next x none) a (some x)) p (l ++ [a] ++ [x]) := by
  have distinct : a ≠ x := by
    rintro rfl
    exact fresh (by simp)
  induction l generalizing p with
  | nil =>
    obtain ⟨rfl, -⟩ := h
    simp [distinct.symm]
  | cons b l ih =>
    obtain ⟨rfl, hl⟩ := h
    -- The two updated nodes are further along: the link of `b` is the old one.
    have whole : Chain next (some b) (b :: (l ++ [a])) := ⟨rfl, hl⟩
    have hba : b ≠ a := by
      rintro rfl
      exact (List.nodup_cons.mp whole.nodup).1 (by simp)
    have hbx : b ≠ x := by
      rintro rfl
      exact fresh (by simp)
    refine ⟨rfl, ?_⟩
    rw [Function.update_of_ne hba, Function.update_of_ne hbx]
    exact ih (fun member => fresh (List.mem_cons_of_mem b member)) hl

end Update

/-! ### Reachability through links -/

/-- Node `t` can be reached from the pointer by following links. -/
inductive Linked (next : α → Option α) : Option α → α → Prop
  | head (a : α) : Linked next (some a) a
  | tail {a t : α} : Linked next (next a) t → Linked next (some a) t

theorem not_linked_none {t : α} : ¬ Linked next none t := nofun

/-- Along a chain the reachable nodes are the listed ones. -/
theorem Chain.linked_iff {t : α} (h : Chain next p l) : Linked next p t ↔ t ∈ l := by
  induction l generalizing p with
  | nil =>
    rw [chain_nil] at h
    subst h
    simp [not_linked_none]
  | cons a l ih =>
    obtain ⟨rfl, hl⟩ := h
    rw [List.mem_cons, ← ih hl]
    constructor
    · intro reach
      cases reach with
      | head => exact Or.inl rfl
      | tail reach => exact Or.inr reach
    · rintro (rfl | reach)
      · exact .head _
      · exact .tail reach

/-! ### Walking to the last node -/

/-- Walk along the links to the node whose link is NULL, for at most `fuel` nodes. -/
def lastLink (next : α → Option α) : ℕ → α → Option α
  | 0, _ => none
  | fuel + 1, a =>
    match next a with
    | none => some a
    | some b => lastLink next fuel b

theorem Chain.lastLink_eq_of_length {fuel : ℕ} {z : α} (h : Chain next (some a) (l ++ [z]))
    (enough : l.length < fuel) : lastLink next fuel a = some z := by
  induction l generalizing a fuel with
  | nil =>
    obtain ⟨ha, hz⟩ := h
    obtain rfl := Option.some.inj ha
    obtain ⟨fuel, rfl⟩ := Nat.exists_eq_succ_of_ne_zero (Nat.ne_zero_of_lt enough)
    rw [chain_nil] at hz
    simp [lastLink, hz]
  | cons b l ih =>
    obtain ⟨ha, hl⟩ := h
    obtain rfl := Option.some.inj ha
    obtain ⟨fuel, rfl⟩ := Nat.exists_eq_succ_of_ne_zero (Nat.ne_zero_of_lt enough)
    have inner : l.length < fuel := by simpa using enough
    cases hb : next a with
    | none =>
      rw [hb] at hl
      cases l <;> simp at hl
    | some c =>
      rw [hb] at hl
      simpa [lastLink, hb] using ih hl inner

/-- Over finitely many nodes, fuel for every node once reaches the end of a chain. -/
theorem Chain.lastLink_eq [Fintype α] {z : α} (h : Chain next (some a) (l ++ [z])) :
    lastLink next (Fintype.card α) a = some z := by
  apply h.lastLink_eq_of_length
  have bound := h.nodup.length_le_card
  simp only [List.length_append, List.length_singleton] at bound
  omega

end Gravel.Library
