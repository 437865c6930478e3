import Gravel.Library.HyperbolicBound

/-!
# Fixed-priority schedules

Tasks are the elements of a linear order, smaller ones more urgent. Work arrives at
instants, and in every unit of time the most urgent task that has work is served one unit of
it. For the tasks up to a level the processor is a queue that serves one unit at a time. If
the work that arrives for them in any `t` units is at most `t`, the queue is empty again
within `t` units after every instant.

A task whose arrivals are at least its period apart, each of at most its cost, brings at most
its demand to a window, wherever the window starts. So the demand criterion for a release of
all tasks at once is good for all releases, and no job is left at its deadline.

## Main definitions

* `Serves` — one unit of time
* `UrgentFirst` — a schedule
* `Sporadic` — arrivals that keep the period and the cost of their task

## Main results

* `exists_empty_queue` — a queue that is not overloaded in a window empties in it
* `Sporadic.sum_le` — the demand criterion covers every window
* `UrgentFirst.done_by` — no work is left at a deadline
-/

namespace Gravel.Library

open Finset

variable {τ : Type*} [LinearOrder τ] {live : Finset τ} {i j : τ} {N a r t x y D : ℕ}

/-- One unit of time: the most urgent task with pending work is served. -/
inductive Serves (live : Finset τ) (pending pending' : τ → ℕ) : Prop
  | idle : (∀ j ∈ live, pending j = 0) → (∀ j ∈ live, pending' j = 0) →
      Serves live pending pending'
  | task (c : τ) : c ∈ live → pending c = pending' c + 1 → (∀ j ∈ live, j < c → pending j = 0) →
      (∀ j ∈ live, j ≠ c → pending' j = pending j) → Serves live pending pending'

/-- What is left before the arrivals of each instant, up to a horizon. -/
structure UrgentFirst (live : Finset τ) (arrive left : ℕ → τ → ℕ) (N : ℕ) : Prop where
  start : ∀ j ∈ live, left 0 j = 0
  serves : ∀ x < N, Serves live (fun j => left x j + arrive x j) (left (x + 1))

/-- Arrivals that are at least a period apart, each of at most the cost. -/
structure Sporadic (arrive : ℕ → ℕ) (T C : ℕ) : Prop where
  apart : ∀ x y, x < y → arrive x ≠ 0 → arrive y ≠ 0 → x + T ≤ y
  cost : ∀ x, arrive x ≤ C

/-- Work left for the tasks up to a level. -/
def backlog (live : Finset τ) (i : τ) (left : τ → ℕ) : ℕ := ∑ j ∈ live with j ≤ i, left j

theorem backlog_eq_zero_iff {left : τ → ℕ} :
    backlog live i left = 0 ↔ ∀ j ∈ live, j ≤ i → left j = 0 := by
  simp [backlog]

/-! ### One unit of time -/

section Serves

variable {pending pending' work : τ → ℕ}

/-- Only the work of the live tasks counts. -/
theorem Serves.of_agree (serves : Serves live pending pending')
    (agree : ∀ j ∈ live, work j = pending j) : Serves live work pending' := by
  cases serves with
  | idle none none' => exact .idle (fun j member => (agree j member).trans (none j member)) none'
  | task c member served urgent others =>
    refine .task c member ((agree c member).trans served) (fun j inside more => ?_)
      fun j inside different => ?_
    · rw [agree j inside, urgent j inside more]
    · rw [agree j inside, others j inside different]

theorem Serves.le (serves : Serves live pending pending') (member : j ∈ live) :
    pending' j ≤ pending j := by
  cases serves with
  | idle none none' => rw [none' j member]; exact Nat.zero_le _
  | task c _ served _ others =>
    by_cases same : j = c
    · subst same
      omega
    · exact (others j member same).le

/-- For the tasks up to a level a unit of time is a unit of work, if there is any. -/
theorem Serves.backlog (serves : Serves live pending pending') (i : τ) :
    backlog live i pending' = backlog live i pending - 1 := by
  cases serves with
  | idle none none' =>
    rw [backlog_eq_zero_iff.mpr fun j member _ => none j member,
      backlog_eq_zero_iff.mpr fun j member _ => none' j member]
  | task c member served urgent others =>
    by_cases level : c ≤ i
    · have inside : c ∈ live.filter (· ≤ i) := mem_filter.mpr ⟨member, level⟩
      have rest : ∑ j ∈ (live.filter (· ≤ i)).erase c, pending' j =
          ∑ j ∈ (live.filter (· ≤ i)).erase c, pending j := by
        apply sum_congr rfl
        intro j inside
        obtain ⟨different, inside⟩ := mem_erase.mp inside
        exact others j (mem_filter.mp inside).1 different
      rw [Library.backlog, Library.backlog, ← add_sum_erase _ pending inside,
        ← add_sum_erase _ pending' inside, rest, served]
      omega
    · have below (j : τ) (_ : j ∈ live) (within : j ≤ i) : j < c :=
        lt_of_le_of_lt within (not_le.mp level)
      rw [backlog_eq_zero_iff.mpr fun j member within => urgent j member (below j member within),
        backlog_eq_zero_iff.mpr]
      intro j member within
      rw [others j member (below j member within).ne, urgent j member (below j member within)]

end Serves

/-! ### A queue that serves one unit at a time -/

section Queue

variable {L A : ℕ → ℕ}

/-- A queue that is empty at the start of a window, and not overloaded in it, empties in it. -/
theorem exists_empty_of_empty (step : ∀ x < N, L (x + 1) = L x + A x - 1) (inside : a + t ≤ N)
    (positive : 0 < t) (empty : L a = 0) (light : ∑ x ∈ Ico a (a + t), A x ≤ t) :
    ∃ b, a < b ∧ b ≤ a + t ∧ L b = 0 := by
  by_contra busy
  -- While the queue is busy every unit of time takes a unit of work.
  have served (y : ℕ) (within : y ≤ t) : L (a + y) + y = ∑ x ∈ Ico a (a + y), A x := by
    induction y with
    | zero => simpa using empty
    | succ y ih =>
      have before := ih (by omega)
      have next := step (a + y) (by omega)
      have some_left : L (a + y + 1) ≠ 0 := fun gone => busy ⟨a + y + 1, by omega, by omega, gone⟩
      have longer : ∑ x ∈ Ico a (a + (y + 1)), A x = ∑ x ∈ Ico a (a + y), A x + A (a + y) :=
        sum_Ico_succ_top (Nat.le_add_right a y) A
      rw [longer, ← before]
      change L (a + y + 1) + (y + 1) = _
      omega
  have total := served t le_rfl
  exact busy ⟨a + t, by omega, le_rfl, by omega⟩

theorem exists_empty_queue (step : ∀ x < N, L (x + 1) = L x + A x - 1) (positive : 0 < t)
    (start : L 0 = 0) (light : ∀ a, a + t ≤ N → ∑ x ∈ Ico a (a + t), A x ≤ t)
    (inside : r + t ≤ N) : ∃ b, r < b ∧ b ≤ r + t ∧ L b = 0 := by
  induction r with
  | zero => exact exists_empty_of_empty step inside positive start (light 0 inside)
  | succ r ih =>
    obtain ⟨b, after, within, empty⟩ := ih (by omega)
    by_cases next : b = r + 1
    · subst next
      exact exists_empty_of_empty step inside positive empty (light _ inside)
    · exact ⟨b, by omega, by omega, empty⟩

end Queue

/-! ### Arrivals in a window -/

theorem Sporadic.sum_le {arrive : ℕ → ℕ} {T C : ℕ} (sporadic : Sporadic arrive T C)
    (positive : 0 < T) (a t : ℕ) : ∑ x ∈ Ico a (a + t), arrive x ≤ (t ⌈/⌉ T) * C := by
  induction t using Nat.strong_induction_on generalizing a with
  | _ t ih =>
    rcases Nat.eq_zero_or_pos t with rfl | some_time
    · simp
    have first : ∑ x ∈ Ico a (a + t), arrive x =
        arrive a + ∑ x ∈ Ico (a + 1) (a + t), arrive x := by
      rw [sum_eq_sum_Ico_succ_bot (by omega)]
    rw [first]
    by_cases quiet : arrive a = 0
    · have later := ih (t - 1) (by omega) (a + 1)
      rw [show a + 1 + (t - 1) = a + t by omega] at later
      have fewer : (t - 1) ⌈/⌉ T ≤ t ⌈/⌉ T := by
        rw [ceilDiv_le_iff_le_mul positive]
        exact (Nat.sub_le t 1).trans ((ceilDiv_le_iff_le_mul positive).mp le_rfl)
      rw [quiet, Nat.zero_add]
      exact later.trans (Nat.mul_le_mul_right C fewer)
    · -- The next arrival comes a period later at the earliest.
      have gap (x : ℕ) (after : a < x) (soon : x < a + T) : arrive x = 0 := by
        by_contra another
        have := sporadic.apart a x after quiet another
        omega
      by_cases short : t ≤ T
      · have none : ∑ x ∈ Ico (a + 1) (a + t), arrive x = 0 := by
          apply sum_eq_zero
          intro x inside
          obtain ⟨lower, upper⟩ := mem_Ico.mp inside
          exact gap x (by omega) (by omega)
        have once : 1 ≤ t ⌈/⌉ T := by
          by_contra never
          have := (ceilDiv_le_iff_le_mul positive).mp (Nat.lt_succ_iff.mp (not_le.mp never))
          omega
        calc
          arrive a + ∑ x ∈ Ico (a + 1) (a + t), arrive x = arrive a := by rw [none, Nat.add_zero]
          _ ≤ 1 * C := by rw [Nat.one_mul]; exact sporadic.cost a
          _ ≤ (t ⌈/⌉ T) * C := Nat.mul_le_mul_right C once
      · have none : ∑ x ∈ Ico (a + 1) (a + T), arrive x = 0 := by
          apply sum_eq_zero
          intro x inside
          obtain ⟨lower, upper⟩ := mem_Ico.mp inside
          exact gap x (by omega) upper
        have rest := ih (t - T) (by omega) (a + T)
        rw [show a + T + (t - T) = a + t by omega] at rest
        have count : (t - T) ⌈/⌉ T + 1 ≤ t ⌈/⌉ T := by
          by_contra fewer
          have fits := (ceilDiv_le_iff_le_mul positive).mp (le_refl (t ⌈/⌉ T))
          have : (t - T) ⌈/⌉ T ≤ t ⌈/⌉ T - 1 := by
            rw [ceilDiv_le_iff_le_mul positive, Nat.mul_sub, Nat.mul_one]
            omega
          have some_periods : t ⌈/⌉ T ≠ 0 := by
            intro zero
            rw [zero] at fits
            omega
          omega
        calc
          arrive a + ∑ x ∈ Ico (a + 1) (a + t), arrive x
              = arrive a + ∑ x ∈ Ico (a + T) (a + t), arrive x := by
                rw [← sum_Ico_consecutive arrive (by omega : a + 1 ≤ a + T) (by omega), none,
                  Nat.zero_add]
          _ ≤ C + ((t - T) ⌈/⌉ T) * C := Nat.add_le_add (sporadic.cost a) rest
          _ = ((t - T) ⌈/⌉ T + 1) * C := by rw [Nat.add_mul, Nat.one_mul, Nat.add_comm]
          _ ≤ (t ⌈/⌉ T) * C := Nat.mul_le_mul_right C count

/-! ### Deadlines -/

namespace UrgentFirst

variable {arrive left : ℕ → τ → ℕ} {T C : τ → ℕ}

/-- The demand criterion of a level bounds how long its tasks keep the processor busy. -/
theorem exists_idle (schedule : UrgentFirst live arrive left N)
    (periods : ∀ j ∈ live, j ≤ i → 0 < T j)
    (sporadic : ∀ j ∈ live, j ≤ i → Sporadic (fun x => arrive x j) (T j) (C j)) (positive : 0 < t)
    (fits : demand (live.filter (· ≤ i)) T C t ≤ t) (inside : r + t ≤ N) :
    ∃ b, r < b ∧ b ≤ r + t ∧ ∀ j ∈ live, j ≤ i → left b j = 0 := by
  have step (x : ℕ) (before : x < N) : backlog live i (left (x + 1)) =
      backlog live i (left x) + backlog live i (arrive x) - 1 := by
    rw [(schedule.serves x before).backlog i, backlog, backlog, backlog, ← sum_add_distrib]
  have light (a : ℕ) (_ : a + t ≤ N) : ∑ x ∈ Ico a (a + t), backlog live i (arrive x) ≤ t := by
    calc
      ∑ x ∈ Ico a (a + t), backlog live i (arrive x)
          = ∑ j ∈ live with j ≤ i, ∑ x ∈ Ico a (a + t), arrive x j := sum_comm
      _ ≤ demand (live.filter (· ≤ i)) T C t := by
          apply sum_le_sum
          intro j inside
          obtain ⟨member, within⟩ := mem_filter.mp inside
          exact (sporadic j member within).sum_le (periods j member within) a t
      _ ≤ t := fits
  have start : backlog live i (left 0) = 0 :=
    backlog_eq_zero_iff.mpr fun j member _ => schedule.start j member
  obtain ⟨b, after, within, empty⟩ := exists_empty_queue (L := fun x => backlog live i (left x))
    step positive start light inside
  exact ⟨b, after, within, backlog_eq_zero_iff.mp empty⟩

/-- Without new arrivals a task that has nothing left stays so. -/
theorem left_eq_zero_of_quiet (schedule : UrgentFirst live arrive left N) (member : j ∈ live)
    (empty : left a j = 0) (later : a ≤ x) (inside : x ≤ N)
    (quiet : ∀ y, a ≤ y → y < x → arrive y j = 0) : left x j = 0 := by
  induction x, later using Nat.le_induction with
  | base => exact empty
  | succ x later ih =>
    have before := ih (by omega) fun y lower upper => quiet y lower (by omega)
    have served := (schedule.serves x (by omega)).le member
    rw [before, quiet x later (by omega)] at served
    exact Nat.le_zero.mp served

/-- If the demand criterion of a task holds at a time within its deadline, then all its work
that has arrived by some instant is done when the deadline of that instant comes, whatever
work the less urgent tasks have. -/
theorem done_by (schedule : UrgentFirst live arrive left N)
    (periods : ∀ j ∈ live, j ≤ i → 0 < T j)
    (sporadic : ∀ j ∈ live, j ≤ i → Sporadic (fun x => arrive x j) (T j) (C j))
    (positive : 0 < t) (early : t ≤ D) (fits : demand (live.filter (· ≤ i)) T C t ≤ t)
    (member : i ∈ live) (inside : r + D ≤ N) (quiet : ∀ x, r < x → x < r + D → arrive x i = 0) :
    left (r + D) i = 0 := by
  obtain ⟨b, after, within, empty⟩ :=
    schedule.exists_idle periods sporadic positive fits (by omega : r + t ≤ N)
  apply schedule.left_eq_zero_of_quiet member (empty i member le_rfl) (by omega) inside
  intro x lower upper
  exact quiet x (by omega) upper

end UrgentFirst

end Gravel.Library
