import Mathlib.Data.List.Basic

/-!
# Straight-line code that is interrupted

Code is a list of instructions, and before each of them any number of interrupts can be
taken. An interrupt is a relation between the state it is taken in and the state in which the
code goes on. The schedule lists the states that the interrupts before each instruction
leave.

## Main definitions

* `Resumes`, `Runs` — a series of interrupts, and code with the interrupts of a schedule
* `Triple` — what the code makes of an assertion, wherever it is interrupted

## Main results

* `Runs.append_iff`, `Runs.cons_iff` — where the runs of a longer piece of code come from
* `Resumes.keeps` — an assertion that interrupts do not break
* `Triple.cons` — an instruction in front
* `Runs.straight` — the code comes to its end
-/

namespace Gravel.Library

variable {σ ι : Type*} {exec : ι → σ → σ} {irq : σ → σ → Prop} {s t u : σ} {ts : List σ}
  {c d : List ι} {i : ι} {w : List (List σ)} {P Q R : σ → Prop}

/-- The interrupts lead through the listed states to the last one. -/
inductive Resumes (irq : σ → σ → Prop) : σ → List σ → σ → Prop
  | nil (s : σ) : Resumes irq s [] s
  | cons {s t u : σ} {ts : List σ} : irq s t → Resumes irq t ts u → Resumes irq s (t :: ts) u

/-- The code leads from the first state to the second when it is interrupted as the schedule
says. -/
inductive Runs (exec : ι → σ → σ) (irq : σ → σ → Prop) : List ι → σ → List (List σ) → σ → Prop
  | nil (s : σ) : Runs exec irq [] s [] s
  | cons {i : ι} {c : List ι} {s t u : σ} {ts : List σ} {w : List (List σ)} :
      Resumes irq s ts t → Runs exec irq c (exec i t) w u → Runs exec irq (i :: c) s (ts :: w) u

/-- The code without an interrupt. -/
def straight (exec : ι → σ → σ) (c : List ι) (s : σ) : σ := c.foldl (fun s i => exec i s) s

/-- No interrupt breaks the assertion. -/
def Stable (irq : σ → σ → Prop) (P : σ → Prop) : Prop := ∀ s t, irq s t → P s → P t

/-- The code, interrupted anywhere, leads from states with the first property to states with
the second. -/
def Triple (exec : ι → σ → σ) (irq : σ → σ → Prop) (P : σ → Prop) (c : List ι) (Q : σ → Prop) :
    Prop :=
  ∀ s w t, Runs exec irq c s w t → P s → Q t

/-! ### Interrupts -/

theorem Resumes.keeps (resumed : Resumes irq s ts t) (stable : Stable irq P) (holds : P s) :
    P t := by
  induction resumed with
  | nil => exact holds
  | cons taken _ ih => exact ih (stable _ _ taken holds)

/-- The last interrupt decides. -/
theorem Resumes.getLast? (resumed : Resumes irq s ts t) : ts.getLast?.getD s = t := by
  induction resumed with
  | nil => rfl
  | @cons s u t ts _ _ ih =>
    rw [← ih]
    cases ts with
    | nil => rfl
    | cons v vs => simp [List.getLast?_cons]

/-- An assertion that every interrupt establishes, and keeps. -/
theorem Resumes.establishes (resumed : Resumes irq s ts t) (some : ts ≠ []) (holds : P s)
    (stable : Stable irq P) (set : ∀ s t, irq s t → P s → Q t) : Q t := by
  induction resumed with
  | nil => exact absurd rfl some
  | @cons s u t ts taken rest ih =>
    cases ts with
    | nil =>
      cases rest
      exact set _ _ taken holds
    | cons v vs => exact ih (List.cons_ne_nil v vs) (stable _ _ taken holds)

/-! ### Code -/

theorem runs_nil_iff : Runs exec irq [] s w t ↔ w = [] ∧ t = s := by
  constructor
  · rintro ⟨⟩
    exact ⟨rfl, rfl⟩
  · rintro ⟨rfl, rfl⟩
    exact .nil t

theorem Runs.cons_iff : Runs exec irq (i :: c) s w u ↔
    ∃ ts v t, w = ts :: v ∧ Resumes irq s ts t ∧ Runs exec irq c (exec i t) v u := by
  constructor
  · rintro ⟨⟩
    exact ⟨_, _, _, rfl, ‹_›, ‹_›⟩
  · rintro ⟨ts, v, t, rfl, resumed, run⟩
    exact .cons resumed run

theorem Runs.append_iff : Runs exec irq (c ++ d) s w u ↔
    ∃ v v' t, w = v ++ v' ∧ Runs exec irq c s v t ∧ Runs exec irq d t v' u := by
  induction c generalizing s w with
  | nil =>
    constructor
    · intro run
      exact ⟨[], w, s, rfl, .nil s, run⟩
    · rintro ⟨v, v', t, rfl, first, run⟩
      obtain ⟨rfl, rfl⟩ := runs_nil_iff.mp first
      exact run
  | cons i c ih =>
    constructor
    · intro run
      obtain ⟨ts, v, t, rfl, resumed, rest⟩ := Runs.cons_iff.mp run
      obtain ⟨v, v', t', rfl, first, second⟩ := ih.mp rest
      exact ⟨ts :: v, v', t', rfl, .cons resumed first, second⟩
    · rintro ⟨v, v', t, rfl, first, second⟩
      obtain ⟨ts, v, t', rfl, resumed, rest⟩ := Runs.cons_iff.mp first
      exact .cons resumed (ih.mpr ⟨v, v', t, rfl, rest, second⟩)

theorem Runs.length (run : Runs exec irq c s w t) : w.length = c.length := by
  induction run with
  | nil => rfl
  | cons _ _ ih => simp [ih]

theorem straight_cons : straight exec (i :: c) s = straight exec c (exec i s) := rfl

theorem straight_append : straight exec (c ++ d) s = straight exec d (straight exec c s) :=
  List.foldl_append

/-- The code always comes to its end. -/
theorem Runs.straight (c : List ι) (s : σ) :
    Runs exec irq c s (c.map fun _ => []) (Library.straight exec c s) := by
  induction c generalizing s with
  | nil => exact .nil s
  | cons i c ih => exact .cons (.nil s) (ih (exec i s))

/-- Interrupts that promise more are interrupts. -/
theorem Resumes.mono {irq' : σ → σ → Prop} (weaker : ∀ s t, irq s t → irq' s t)
    (resumed : Resumes irq s ts t) : Resumes irq' s ts t := by
  induction resumed with
  | nil => exact .nil _
  | cons taken _ ih => exact .cons (weaker _ _ taken) ih

theorem Runs.mono {irq' : σ → σ → Prop} (weaker : ∀ s t, irq s t → irq' s t)
    (run : Runs exec irq c s w t) : Runs exec irq' c s w t := by
  induction run with
  | nil => exact .nil _
  | cons resumed _ ih => exact .cons (resumed.mono weaker) ih

/-! ### Assertions -/

theorem Stable.mono {irq' : σ → σ → Prop} (weaker : ∀ s t, irq s t → irq' s t)
    (stable : Stable irq' P) : Stable irq P :=
  fun s t taken holds => stable s t (weaker s t taken) holds

theorem Stable.and (first : Stable irq P) (second : Stable irq Q) :
    Stable irq fun s => P s ∧ Q s :=
  fun s t taken both => ⟨first s t taken both.1, second s t taken both.2⟩

theorem Triple.nil : Triple exec irq P [] P := by
  intro s w t run holds
  obtain ⟨-, rfl⟩ := runs_nil_iff.mp run
  exact holds

theorem Triple.cons (stable : Stable irq P) (step : ∀ s, P s → Q (exec i s))
    (rest : Triple exec irq Q c R) : Triple exec irq P (i :: c) R := by
  intro s w u run holds
  obtain ⟨ts, v, t, rfl, resumed, run⟩ := Runs.cons_iff.mp run
  exact rest _ _ _ run (step t (resumed.keeps stable holds))

theorem Triple.append (first : Triple exec irq P c Q) (second : Triple exec irq Q d R) :
    Triple exec irq P (c ++ d) R := by
  intro s w u run holds
  obtain ⟨v, v', t, rfl, run, run'⟩ := Runs.append_iff.mp run
  exact second _ _ _ run' (first _ _ _ run holds)

end Gravel.Library
