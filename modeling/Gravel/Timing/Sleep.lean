import Gravel.Kernel.State
import Gravel.Library.WrappedTimer

/-!
# `sleep`

`sleep_syscall` of `time.c` reads the clock once for its deadline and then until the deadline
is not above the clock. Both wrap around, and are compared as they are.

## Main definitions

* `sleepLoop`, `sleepSyscall` — with the readings of the clock as a sequence
* `readings` — the clock as the timer interrupts advance it
* `SleepsExactly` — sleep ends with the first reading at which the time has passed
* `WrapsSafely` — where the clock and the deadline lie around the ends of a turn

## Main results

* `sleepLoop_eq_some_iff` — where the loop ends
* `sleepsExactly_iff` — sleep is exact if and only if they wrap safely
-/

namespace Gravel

open Library

/-- The `while` loop of `sleep_syscall`, with so many readings left; `j` is the index of the
reading in `now`. -/
def sleepLoop (clock : ℕ → UInt32) (deadline : UInt32) : ℕ → ℕ → Option ℕ
  | 0, _ => none
  | fuel + 1, j =>
    if deadline > clock j then sleepLoop clock deadline fuel (j + 1) else some j

/-- The index of the reading after which the call returns. The first reading is for the
deadline. -/
def sleepSyscall (clock : ℕ → UInt32) (millis : UInt32) (fuel : ℕ) : Option ℕ :=
  sleepLoop clock (clock 0 + millis) fuel 1

/-- The value of `sys_time` at each reading, with so many interrupts before it. -/
def readings (s : UInt32) (k : ℕ → ℕ) (j : ℕ) : UInt32 :=
  s + UInt32.ofNat (Config.timeResolution.toNat * k j)

/-- The call returns after reading `j`. -/
def Returns (clock : ℕ → UInt32) (millis : UInt32) (j : ℕ) : Prop :=
  ∃ fuel, sleepSyscall clock millis fuel = some j

/-- Reading `j` of the loop is the first at which the time has passed. -/
def FirstPassed (millis : UInt32) (k : ℕ → ℕ) (j : ℕ) : Prop :=
  1 ≤ j ∧ millis.toNat ≤ 5 * k j ∧ ∀ i, 1 ≤ i → i < j → 5 * k i < millis.toNat

/-- Sleep does not return early, and it ends with the first reading that allows it. -/
structure SleepsExactly (s millis : UInt32) (k : ℕ → ℕ) : Prop where
  not_early : ∀ j, Returns (readings s k) millis j → millis.toNat ≤ 5 * k j
  at_first : ∀ j, FirstPassed millis k j → Returns (readings s k) millis j

/-- The first reading of the loop is not before the end of a turn that the deadline has passed,
and the first reading past the deadline is in the deadline's own turn, up to whole turns. -/
structure WrapsSafely (s millis : UInt32) (k : ℕ → ℕ) : Prop where
  before : 5 * k 1 < millis.toNat → s.toNat + 5 * k 1 < 2 ^ 32 →
    s.toNat + millis.toNat < 2 ^ 32
  after : ∀ j, FirstPassed millis k j →
    (5 * k j - millis.toNat) % 2 ^ 32 < 2 ^ 32 - (s.toNat + millis.toNat) % 2 ^ 32

variable {clock : ℕ → UInt32} {deadline s millis : UInt32} {k : ℕ → ℕ} {fuel i j : ℕ}

/-! ### The loop -/

theorem sleepLoop_eq_some_iff : sleepLoop clock deadline fuel i = some j ↔
    i ≤ j ∧ j < i + fuel ∧ deadline ≤ clock j ∧ ∀ l, i ≤ l → l < j → clock l < deadline := by
  induction fuel generalizing i with
  | zero =>
    rw [sleepLoop]
    exact ⟨nofun, fun ⟨low, high, _⟩ => absurd high (by omega)⟩
  | succ fuel ih =>
    rw [sleepLoop]
    by_cases waits : deadline > clock i
    · rw [if_pos waits, ih]
      constructor
      · rintro ⟨low, high, done, waited⟩
        refine ⟨by omega, by omega, done, fun l hl hj => ?_⟩
        rcases hl.eq_or_lt with rfl | later
        · exact waits
        · exact waited l later hj
      · rintro ⟨low, high, done, waited⟩
        have other : i ≠ j := fun same => absurd (same ▸ done) (UInt32.not_le.mpr waits)
        exact ⟨by omega, by omega, done, fun l hl hj => waited l (by omega) hj⟩
    · rw [if_neg waits]
      constructor
      · rintro ⟨⟩
        exact ⟨le_rfl, by omega, UInt32.not_lt.mp waits, fun l hl hj => absurd hj (by omega)⟩
      · rintro ⟨low, -, -, waited⟩
        rcases low.eq_or_lt with rfl | later
        · rfl
        · exact absurd (waited i le_rfl later) waits

theorem returns_iff : Returns clock millis j ↔ 1 ≤ j ∧ clock 0 + millis ≤ clock j ∧
    ∀ i, 1 ≤ i → i < j → clock i < clock 0 + millis := by
  constructor
  · rintro ⟨fuel, ends⟩
    obtain ⟨low, -, done, waited⟩ := sleepLoop_eq_some_iff.mp ends
    exact ⟨low, done, waited⟩
  · rintro ⟨low, done, waited⟩
    exact ⟨j, sleepLoop_eq_some_iff.mpr ⟨low, by omega, done, waited⟩⟩

/-! ### The clock and the deadline -/

theorem readings_toNat (s : UInt32) (k : ℕ → ℕ) (j : ℕ) :
    (readings s k j).toNat = (s.toNat + 5 * k j) % 2 ^ 32 := by
  have five : Config.timeResolution.toNat = 5 := rfl
  rw [readings, five, UInt32.toNat_add, UInt32.toNat_ofNat', Nat.add_mod_mod]

theorem deadline_toNat (start : k 0 = 0) :
    (readings s k 0 + millis).toNat = (s.toNat + millis.toNat) % 2 ^ 32 := by
  rw [UInt32.toNat_add, readings_toNat, start, Nat.mul_zero, Nat.add_zero, Nat.mod_add_mod]

/-- Before its end a wait goes on, unless the deadline alone has wrapped. -/
theorem readings_lt_deadline_iff (start : k 0 = 0) (waiting : 5 * k j < millis.toNat) :
    readings s k j < readings s k 0 + millis ↔
      (s.toNat + 5 * k j < 2 ^ 32 → s.toNat + millis.toNat < 2 ^ 32) := by
  have hs := s.toNat_lt
  have hm := millis.toNat_lt
  rw [UInt32.lt_iff_toNat_lt, readings_toNat, deadline_toNat start,
    mod_lt_mod_iff_of_lt (by omega) (by omega)]
  omega

/-- Past its end the wait is over up to the end of the deadline's turn. -/
theorem deadline_le_readings_iff (start : k 0 = 0) (passed : millis.toNat ≤ 5 * k j) :
    readings s k 0 + millis ≤ readings s k j ↔
      (5 * k j - millis.toNat) % 2 ^ 32 < 2 ^ 32 - (s.toNat + millis.toNat) % 2 ^ 32 := by
  have split : s.toNat + 5 * k j = s.toNat + millis.toNat + (5 * k j - millis.toNat) := by omega
  rw [UInt32.le_iff_toNat_le, readings_toNat, deadline_toNat start, split,
    mod_le_add_mod_iff (by decide)]

/-- If the loop waits at its first reading, it waits at every reading before the time has
passed. -/
theorem WrapsSafely.waits (safe : WrapsSafely s millis k) (start : k 0 = 0) (mono : Monotone k)
    (low : 1 ≤ j) (waiting : 5 * k j < millis.toNat) :
    readings s k j < readings s k 0 + millis := by
  have first := mono low
  refine (readings_lt_deadline_iff start waiting).mpr fun kept => ?_
  exact safe.before (by omega) (by omega)

/-- Sleep is exact if and only if the clock and the deadline wrap safely. -/
theorem sleepsExactly_iff (s millis : UInt32) (k : ℕ → ℕ) (start : k 0 = 0)
    (mono : Monotone k) : SleepsExactly s millis k ↔ WrapsSafely s millis k := by
  constructor
  · intro exact
    refine ⟨fun waiting kept => ?_, fun j first => ?_⟩
    · by_contra wrapped
      have ends : Returns (readings s k) millis 1 := by
        refine returns_iff.mpr ⟨le_rfl, ?_, fun i low high => absurd high (by omega)⟩
        rw [← UInt32.not_lt, readings_lt_deadline_iff start waiting]
        exact fun waits => wrapped (waits kept)
      exact absurd (exact.not_early 1 ends) (by omega)
    · obtain ⟨-, done, -⟩ := returns_iff.mp (exact.at_first j first)
      exact (deadline_le_readings_iff start first.2.1).mp done
  · intro safe
    refine ⟨fun j ends => ?_, fun j first => ?_⟩
    · obtain ⟨low, done, -⟩ := returns_iff.mp ends
      by_contra early
      exact absurd (safe.waits start mono low (by omega)) (UInt32.not_lt.mpr done)
    · obtain ⟨low, passed, earlier⟩ := first
      refine returns_iff.mpr ⟨low, ?_, fun i hi hj => ?_⟩
      · exact (deadline_le_readings_iff start passed).mpr (safe.after j ⟨low, passed, earlier⟩)
      · exact safe.waits start mono hi (earlier i hi hj)

/-- Ten milliseconds from the start of the clock. -/
theorem sleepsExactly_ten : SleepsExactly 0 10 id := by
  refine (sleepsExactly_iff 0 10 id rfl monotone_id).mpr ⟨fun _ _ => by decide, ?_⟩
  rintro j ⟨low, passed, earlier⟩
  have second : j = 2 := by
    have first := earlier 1 le_rfl
    have ten : (10 : UInt32).toNat = 10 := rfl
    have next := earlier 2 (by omega)
    simp only [ten, id] at passed first next
    omega
  subst second
  decide

/-- A sleep of 100 ms that ends at once: only its deadline has wrapped. -/
theorem not_sleepsExactly_wrapped : ¬ SleepsExactly 0xfffffff0 100 (fun _ => 0) := by
  intro exact
  have ends : Returns (readings 0xfffffff0 fun _ => 0) 100 1 := ⟨1, by decide⟩
  exact absurd (exact.not_early 1 ends) (by decide)

end Gravel
