import Gravel.Locking.Untouched

/-!
# Creating mutexes concurrently

Any tasks call `mutex_create` in any interleaving. The update of the counter is one
step, as interrupts are disabled; the return, which looks at the counter again, is
another. Whatever else runs in between creates no mutex.

## Main definitions

* `Creators`, `CreateStep` — who is inside a call, and the steps
* `created`, `codes` — the mutexes made available and the codes returned in a run
* `Exclusive` — no call updates the counter while another one is about to read it
* `HandsOutOnce` — what callers may expect of the codes

## Main results

* `HandOut.step` — one exclusive step
* `Machine.Effect.sameCreated` — the other steps of the machine create no mutex
* `handsOutOnce_of_run` — every run of exclusive steps hands out each mutex once
* `returnsOther_of_not_exclusive` — a step that is not exclusive makes another call return
  a mutex that is not its own
-/

namespace Gravel

open Library

variable {τ : Type*}

/-- The kernel, and the calls that are between `enable_interrupts()` and their return,
each with the mutex it has made available, if any. -/
structure Creators (τ : Type*) where
  kernel : Kernel
  pending : τ → Option (Option ℕ)

inductive CreateLabel (τ : Type*)
  | enter (task : τ) (mutex : Option ℕ)
  | return (task : τ) (mutex : Option ℕ) (code : ℤ)
  /-- An interrupt, or another system call. -/
  | other
  deriving DecidableEq

/-- No mutex is created. -/
def Kernel.SameCreated (k k' : Kernel) : Prop :=
  k'.curMutexNum = k.curMutexNum ∧ ∀ m, (k'.gtMutex m).bAvailable = (k.gtMutex m).bAvailable

inductive CreateStep [DecidableEq τ] : Creators τ → CreateLabel τ → Creators τ → Prop
  | enter {s : Creators τ} (t : τ) : s.pending t = none →
      CreateStep s (.enter t (mutexCreateEnter s.kernel).1)
        { kernel := (mutexCreateEnter s.kernel).2
          pending := Function.update s.pending t (some (mutexCreateEnter s.kernel).1) }
  | return {s : Creators τ} (t : τ) (own : Option ℕ) : s.pending t = some own →
      CreateStep s (.return t own (mutexCreateReturn s.kernel own))
        { s with pending := Function.update s.pending t none }
  | other {s : Creators τ} {k : Kernel} : s.kernel.SameCreated k →
      CreateStep s .other { s with kernel := k }

/-- After `mutex_init`, with nobody in a call. -/
def Creators.init (τ : Type*) (k : Kernel) : Creators τ :=
  { kernel := mutexInit k, pending := fun _ => none }

/-- The mutexes made available, in order. -/
def created (w : List (CreateLabel τ)) : List ℕ :=
  w.filterMap fun
    | .enter _ own => own
    | _ => none

/-- The codes returned by the calls that have made a mutex available, in order. -/
def codes (w : List (CreateLabel τ)) : List ℤ :=
  w.filterMap fun
    | .return _ (some _) code => some code
    | _ => none

/-- The step makes no mutex available while another call that has done so is still to look
at the counter. -/
def Exclusive (s : Creators τ) : CreateLabel τ → Prop
  | .enter _ (some _) => ∀ u own, s.pending u ≠ some (some own)
  | _ => True

/-- The successful calls return different numbers, each the number of the mutex the call
has made available, and failure means that all mutexes exist. -/
structure HandsOutOnce (w : List (CreateLabel τ)) : Prop where
  distinct : (codes w).Nodup
  own : ∀ t (m : ℕ) (code : ℤ), .return t (some m) code ∈ w → code = m ∧ m < Config.osNumMutex
  full : ∀ u t own v, w = u ++ .return t own (-Config.enomem) :: v →
    (created u).length = Config.osNumMutex

variable {w : List (CreateLabel τ)} {s s' : Creators τ} {l : CreateLabel τ} {k : Kernel} {t u : τ}
  {own m : ℕ}

/-! ### The two parts of the call -/

theorem mutexCreateEnter_of_full (full : k.curMutexNum = Config.osNumMutex) :
    mutexCreateEnter k = (none, k) := by
  simp [mutexCreateEnter, full]

/-- The next mutex is made available, and no other one is touched. -/
theorem mutexCreateEnter_of_room (room : k.curMutexNum ≠ Config.osNumMutex) :
    ∃ k', mutexCreateEnter k = (some k.curMutexNum, k') ∧ k'.curMutexNum = k.curMutexNum + 1 ∧
      ∀ m : MutexPtr, (k'.gtMutex m).bAvailable =
        if m.val = k.curMutexNum then false else (k.gtMutex m).bAvailable := by
  refine ⟨_, by rw [mutexCreateEnter, if_neg room], ?_, fun m => ?_⟩
  · simp [mutexCreate, room]
  · simp only [mutexCreate, room, if_false]
    split <;> rfl

/-! ### The other steps create no mutex -/

section Other

variable {k' : Kernel}

theorem Kernel.SameMutexes.sameCreated (same : k.SameMutexes k') : k.SameCreated k' :=
  ⟨same.2, fun _ => by rw [same.1]⟩

theorem Kernel.OnlyLocks.sameCreated (only : k.OnlyLocks k') : k.SameCreated k' :=
  ⟨only.curMutexNum, only.bAvailable⟩

/-- A step of the machine that is no call of `mutex_create` creates no mutex. -/
theorem Machine.Effect.sameCreated {pf : Platform} {s : Machine} {e : Event} {r : Option Return}
    (effect : s.Effect pf e r k) (other : e ≠ .mutexCreate) : s.kernel.SameCreated k := by
  cases effect with
  | mutexCreate => exact absurd rfl other
  | mutexLock called => exact (mutexLock_onlyLocks called).sameCreated
  | asleep called => exact (mutexLock_onlyLocks called).sameCreated
  | mutexUnlock called => exact (mutexUnlock_onlyLocks called).sameCreated
  | eventWait called => exact (eventWait_mutexes called).sameCreated
  | taskCreate called => exact (taskCreate_mutexes called).sameCreated
  | user => exact ⟨rfl, fun _ => rfl⟩
  | devWait _ slept => exact (dispatchSleep_mutexes slept).sameCreated
  | lockTail => exact mutexLockTail_onlyLocks.sameCreated
  | tick handled => exact (cIrqHandler_mutexes handled).sameCreated

end Other

/-! ### The history -/

theorem created_concat : created (w ++ [l]) = created w ++ created [l] := List.filterMap_append

theorem codes_concat : codes (w ++ [l]) = codes w ++ codes [l] := List.filterMap_append

theorem created_of_quiet (quiet : created [l] = []) : created (w ++ [l]) = created w := by
  rw [created_concat, quiet, List.append_nil]

theorem codes_of_quiet (quiet : codes [l] = []) : codes (w ++ [l]) = codes w := by
  rw [codes_concat, quiet, List.append_nil]

/-- What one more label has to satisfy. -/
theorem HandsOutOnce.snoc (once : HandsOutOnce w) (fresh : ∀ code ∈ codes [l], code ∉ codes w)
    (own : ∀ t (m : ℕ) (code : ℤ), l = .return t (some m) code →
      code = m ∧ m < Config.osNumMutex)
    (full : ∀ t own, l = .return t own (-Config.enomem) →
      (created w).length = Config.osNumMutex) :
    HandsOutOnce (w ++ [l]) where
  distinct := by
    rw [codes_concat]
    refine List.Nodup.append once.distinct ?_ fun code before now => fresh code now before
    rcases l with _ | ⟨t, _ | m, code⟩ | _ <;> simp [codes]
  own t m code member := by
    rcases List.mem_append.mp member with before | now
    · exact once.own t m code before
    · exact own t m code (List.mem_singleton.mp now).symm
  full u t own v split := by
    rcases List.eq_nil_or_concat v with rfl | ⟨v, c, rfl⟩
    · obtain ⟨rfl, same⟩ := List.append_inj' split rfl
      exact full t own (List.singleton_inj.mp same)
    · have earlier : w ++ [l] = (u ++ .return t own (-Config.enomem) :: v) ++ [c] := by
        simpa using split
      obtain ⟨rfl, -⟩ := List.append_inj' earlier rfl
      exact once.full u t own v rfl

theorem handsOutOnce_nil : HandsOutOnce ([] : List (CreateLabel τ)) where
  distinct := List.nodup_nil
  own := by simp
  full u t own v split := by simp at split

/-! ### Exclusive steps -/

/-- The mutexes below the counter exist, and the only call that may be about to look at the
counter is the one that has updated it last. -/
structure HandOut (w : List (CreateLabel τ)) (s : Creators τ) : Prop where
  created : created w = List.range s.kernel.curMutexNum
  bound : s.kernel.curMutexNum ≤ Config.osNumMutex
  available : ∀ m : MutexPtr,
    (s.kernel.gtMutex m).bAvailable = false ↔ m.val < s.kernel.curMutexNum
  last : ∀ t own, s.pending t = some (some own) → own + 1 = s.kernel.curMutexNum
  sole : ∀ t u a b, s.pending t = some (some a) → s.pending u = some (some b) → t = u
  failed : ∀ t, s.pending t = some none → s.kernel.curMutexNum = Config.osNumMutex
  unused : ∀ t own, s.pending t = some (some own) → (own : ℤ) ∉ codes w
  below : ∀ code ∈ codes w, code < (s.kernel.curMutexNum : ℤ)
  once : HandsOutOnce w

theorem HandOut.init (k : Kernel) : HandOut [] (Creators.init τ k) where
  created := rfl
  bound := Nat.zero_le _
  available m := by simp [Creators.init, mutexInit]
  last t own pending := by simp [Creators.init] at pending
  sole t u a b pending := by simp [Creators.init] at pending
  failed t pending := by simp [Creators.init] at pending
  unused t own pending := by simp [Creators.init] at pending
  below code member := by simp [codes] at member
  once := handsOutOnce_nil

/-- Other activity creates no mutex. -/
theorem HandOut.other {k : Kernel} (inv : HandOut w s) (same : s.kernel.SameCreated k) :
    HandOut (w ++ [.other]) { s with kernel := k } := by
  obtain ⟨count, available⟩ := same
  have same_created : Gravel.created (w ++ [CreateLabel.other]) = Gravel.created w :=
    created_of_quiet rfl
  have same_codes : codes (w ++ [CreateLabel.other]) = codes w := codes_of_quiet rfl
  exact
    { created := by rw [same_created, inv.created, count]
      bound := count ▸ inv.bound
      available := fun m => by rw [available, count, inv.available]
      last := fun u own pending => count ▸ inv.last u own pending
      sole := inv.sole
      failed := fun u pending => count ▸ inv.failed u pending
      unused := same_codes ▸ inv.unused
      below := by rw [same_codes, count]; exact inv.below
      once := inv.once.snoc (by simp [codes]) (by simp) (by simp) }

section Steps

variable [DecidableEq τ]

/-- A call that finds all mutexes created. -/
theorem HandOut.enter_full (inv : HandOut w s) (t : τ)
    (full : s.kernel.curMutexNum = Config.osNumMutex) :
    HandOut (w ++ [.enter t none])
      { s with pending := Function.update s.pending t (some none) } := by
  have kept : ∀ u own, Function.update s.pending t (some none) u = some (some own) →
      s.pending u = some (some own) := by
    intro u own pending
    by_cases same : u = t
    · subst same
      simp at pending
    · rwa [Function.update_of_ne same] at pending
  have same_created : Gravel.created (w ++ [.enter t none]) = Gravel.created w :=
    created_of_quiet rfl
  have same_codes : codes (w ++ [.enter t none]) = codes w := codes_of_quiet rfl
  exact
    { created := same_created.trans inv.created
      bound := inv.bound
      available := inv.available
      last := fun u own pending => inv.last u own (kept u own pending)
      sole := fun u v a b pending pending' =>
        inv.sole u v a b (kept u a pending) (kept v b pending')
      failed := fun _ _ => full
      unused := fun u own pending => same_codes ▸ inv.unused u own (kept u own pending)
      below := same_codes ▸ inv.below
      once := inv.once.snoc (by simp [codes]) (by simp) (by simp) }

/-- A call that makes the next mutex available, with no other call about to return one. -/
theorem HandOut.enter_room {k : Kernel} (inv : HandOut w s) (t : τ)
    (room : s.kernel.curMutexNum ≠ Config.osNumMutex)
    (alone : ∀ u own, s.pending u ≠ some (some own))
    (count : k.curMutexNum = s.kernel.curMutexNum + 1)
    (available : ∀ m : MutexPtr, (k.gtMutex m).bAvailable =
      if m.val = s.kernel.curMutexNum then false else (s.kernel.gtMutex m).bAvailable) :
    HandOut (w ++ [.enter t (some s.kernel.curMutexNum)])
      { kernel := k
        pending := Function.update s.pending t (some (some s.kernel.curMutexNum)) } := by
  -- The call is the only one that is to return a mutex.
  have only : ∀ u own, Function.update s.pending t (some (some s.kernel.curMutexNum)) u =
      some (some own) → u = t ∧ own = s.kernel.curMutexNum := by
    intro u own pending
    by_cases same : u = t
    · subst same
      rw [Function.update_self, Option.some.injEq, Option.some.injEq] at pending
      exact ⟨rfl, pending.symm⟩
    · rw [Function.update_of_ne same] at pending
      exact absurd pending (alone u own)
  have one_more : Gravel.created (w ++ [.enter t (some s.kernel.curMutexNum)]) =
      Gravel.created w ++ [s.kernel.curMutexNum] := created_concat
  have same_codes : codes (w ++ [.enter t (some s.kernel.curMutexNum)]) = codes w :=
    codes_of_quiet rfl
  exact
    { created := by rw [one_more, inv.created, count, List.range_succ]
      bound := count ▸ lt_of_le_of_ne inv.bound room
      available := by
        intro m
        rw [available m, count]
        split
        · rename_i own
          simp [own]
        · rename_i other
          rw [inv.available m]
          omega
      last := fun u own pending => by rw [(only u own pending).2, count]
      sole := fun u v a b pending pending' =>
        (only u a pending).1.trans (only v b pending').1.symm
      failed := by
        intro u pending
        by_cases same : u = t
        · subst same
          simp at pending
        · simp only [Function.update_of_ne same] at pending
          exact absurd (inv.failed u pending) room
      unused := by
        intro u own pending member
        rw [same_codes] at member
        have := inv.below _ member
        rw [(only u own pending).2] at this
        exact absurd this (lt_irrefl _)
      below := by
        intro code member
        rw [same_codes] at member
        have := inv.below code member
        rw [count]
        omega
      once := inv.once.snoc (by simp [codes]) (by simp) (by simp) }

/-- Once a call has returned only the others are pending. -/
theorem pending_of_update {f : τ → Option (Option ℕ)} {own : Option ℕ}
    (pending : Function.update f t none u = some own) : u ≠ t ∧ f u = some own := by
  by_cases same : u = t
  · subst same
    simp at pending
  · rw [Function.update_of_ne same] at pending
    exact ⟨same, pending⟩

/-- A call that found all mutexes created fails. -/
theorem HandOut.return_none (inv : HandOut w s) (pending : s.pending t = some none) :
    HandOut (w ++ [.return t none (-Config.enomem)])
      { s with pending := Function.update s.pending t none } := by
  have same_created : Gravel.created (w ++ [.return t none (-Config.enomem)]) =
      Gravel.created w :=
    created_of_quiet rfl
  have same_codes : codes (w ++ [.return t none (-Config.enomem)]) = codes w :=
    codes_of_quiet rfl
  exact
    { created := same_created.trans inv.created
      bound := inv.bound
      available := inv.available
      last := fun u own still => inv.last u own (pending_of_update still).2
      sole := fun u v a b still still' =>
        inv.sole u v a b (pending_of_update still).2 (pending_of_update still').2
      failed := fun u still => inv.failed u (pending_of_update still).2
      unused := fun u own still => same_codes ▸ inv.unused u own (pending_of_update still).2
      below := same_codes ▸ inv.below
      once := by
        refine inv.once.snoc (by simp [codes]) (by simp) fun _ _ _ => ?_
        rw [inv.created, List.length_range]
        exact inv.failed t pending }

/-- A call that has made a mutex available returns its number. -/
theorem HandOut.return_some (inv : HandOut w s) (pending : s.pending t = some (some own)) :
    HandOut (w ++ [.return t (some own) (mutexCreateReturn s.kernel (some own))])
      { s with pending := Function.update s.pending t none } := by
  have own_last := inv.last t own pending
  have number : mutexCreateReturn s.kernel (some own) = (own : ℤ) := by
    simp only [mutexCreateReturn]
    omega
  rw [number]
  have same_created : Gravel.created (w ++ [.return t (some own) (own : ℤ)]) =
      Gravel.created w :=
    created_of_quiet rfl
  have one_more : codes (w ++ [.return t (some own) (own : ℤ)]) = codes w ++ [(own : ℤ)] :=
    codes_concat
  exact
    { created := same_created.trans inv.created
      bound := inv.bound
      available := inv.available
      last := fun u m still => inv.last u m (pending_of_update still).2
      sole := fun u v a b still still' =>
        inv.sole u v a b (pending_of_update still).2 (pending_of_update still').2
      failed := fun u still => inv.failed u (pending_of_update still).2
      unused := by
        intro u m still
        obtain ⟨other, still⟩ := pending_of_update still
        exact absurd (inv.sole u t m own still pending) other
      below := by
        intro code member
        rw [one_more, List.mem_append, List.mem_singleton] at member
        rcases member with before | rfl
        · exact inv.below code before
        · dsimp only
          omega
      once := by
        refine inv.once.snoc ?_ ?_ ?_
        · intro code member
          obtain rfl : code = own := List.mem_singleton.mp member
          exact inv.unused t own pending
        · rintro u m code same
          obtain ⟨-, rfl, rfl⟩ : t = u ∧ own = m ∧ (own : ℤ) = code := by simpa using same
          have := inv.bound
          exact ⟨rfl, by omega⟩
        · intro u m same
          obtain ⟨-, -, negative⟩ : t = u ∧ some own = m ∧ (own : ℤ) = -Config.enomem := by
            simpa using same
          simp only [Config.enomem] at negative
          omega }

theorem HandOut.step (inv : HandOut w s) (step : CreateStep s l s') (exclusive : Exclusive s l) :
    HandOut (w ++ [l]) s' := by
  cases step with
  | enter t idle =>
    by_cases full : s.kernel.curMutexNum = Config.osNumMutex
    · rw [mutexCreateEnter_of_full full]
      exact inv.enter_full t full
    · obtain ⟨k, entered, count, available⟩ := mutexCreateEnter_of_room full
      rw [entered] at exclusive ⊢
      exact inv.enter_room t full exclusive count available
  | «return» t own pending =>
    cases own with
    | none => exact inv.return_none pending
    | some own => exact inv.return_some pending
  | other same => exact inv.other same

/-- In every run whose steps are all exclusive, from `mutex_init` on and with any number of
tasks, each mutex is handed out once. -/
theorem handsOutOnce_of_run
    (run : Run (fun s l s' => CreateStep s l s' ∧ Exclusive s l) (Creators.init τ k) w s) :
    HandsOutOnce w := by
  have inv : HandOut w s := by
    apply Run.invariant_trace HandOut run
    · rintro w s l s' inv ⟨step, exclusive⟩
      exact inv.step step exclusive
    · exact HandOut.init k
  exact inv.once

/-- Two tasks create a mutex, one after the other. -/
theorem handsOutOnce_of_run_twice :
    HandsOutOnce [CreateLabel.enter 1 (some 0), .return 1 (some 0) 0, .enter 2 (some 1),
      .return 2 (some 1) (1 : ℤ)] := by
  have run : Run (fun s l s' => CreateStep s l s' ∧ Exclusive s l) (Creators.init ℕ bssKernel)
      [.enter 1 (some 0), .return 1 (some 0) 0, .enter 2 (some 1), .return 2 (some 1) 1] _ :=
    .snoc (.snoc (.snoc (.snoc (.nil _)
      ⟨.enter 1 rfl, by simp [Exclusive, Creators.init]⟩)
      ⟨.return 1 (some 0) rfl, trivial⟩)
      ⟨.enter 2 rfl, fun u own pending => by
        simp [Creators.init, Function.update_apply] at pending
        exact absurd pending.2.1 pending.1⟩)
      ⟨.return 2 (some 1) rfl, trivial⟩
  exact handsOutOnce_of_run run

/-- The first task is interrupted after `enable_interrupts()`, and another one creates a mutex:
both calls return 1. -/
theorem mutexCreate_returns_twice :
    ∃ w s, Run CreateStep (Creators.init ℕ bssKernel) w s ∧ codes w = [1, 1] ∧
      ¬ HandsOutOnce w := by
  have run : Run CreateStep (Creators.init ℕ bssKernel)
      [.enter 1 (some 0), .enter 2 (some 1), .return 1 (some 0) 1, .return 2 (some 1) 1] _ :=
    .snoc (.snoc (.snoc (.snoc (.nil _) (.enter 1 rfl)) (.enter 2 rfl))
      (.return 1 (some 0) rfl)) (.return 2 (some 1) rfl)
  exact ⟨_, _, run, rfl, fun once => absurd once.distinct (by decide)⟩

/-! ### Steps that are not exclusive -/

/-- Another call has made a mutex available since this one did. -/
def Overtaken (s : Creators τ) (t : τ) (m : ℕ) : Prop :=
  s.pending t = some (some m) ∧ m + 1 < s.kernel.curMutexNum

theorem mutexCreateEnter_count : k.curMutexNum ≤ (mutexCreateEnter k).2.curMutexNum := by
  by_cases full : k.curMutexNum = Config.osNumMutex
  · rw [mutexCreateEnter_of_full full]
  · obtain ⟨k', entered, count, -⟩ := mutexCreateEnter_of_room full
    rw [entered, count]
    exact Nat.le_succ _

/-- An overtaken call stays overtaken, or returns the number of another mutex. -/
theorem Overtaken.step (overtaken : Overtaken s t m) (step : CreateStep s l s') :
    Overtaken s' t m ∨ ∃ code : ℤ, l = .return t (some m) code ∧ code ≠ m := by
  obtain ⟨pending, count⟩ := overtaken
  cases step with
  | enter u idle =>
    have other : t ≠ u := by
      rintro rfl
      simp [idle] at pending
    left
    refine ⟨?_, lt_of_lt_of_le count mutexCreateEnter_count⟩
    simpa only [Function.update_of_ne other] using pending
  | «return» u own same =>
    by_cases caller : t = u
    · subst caller
      obtain rfl : some m = own := Option.some.inj (pending.symm.trans same)
      right
      refine ⟨_, rfl, ?_⟩
      simp only [mutexCreateReturn]
      omega
    · left
      refine ⟨?_, count⟩
      simpa only [Function.update_of_ne caller] using pending
  | other same =>
    left
    exact ⟨pending, lt_of_lt_of_eq count same.1.symm⟩

theorem Overtaken.run (overtaken : Overtaken s t m) (run : Run CreateStep s w s') :
    Overtaken s' t m ∨ ∃ code : ℤ, .return t (some m) code ∈ w ∧ code ≠ m := by
  induction run with
  | nil => exact .inl overtaken
  | snoc _ step ih =>
    rcases ih with still | ⟨code, member, other⟩
    · rcases still.step step with still | ⟨code, rfl, other⟩
      · exact .inl still
      · exact .inr ⟨code, by simp, other⟩
    · exact .inr ⟨code, List.mem_append_left _ member, other⟩

/-- A call still to return has its mutex below the counter. -/
def Creators.Below (s : Creators τ) : Prop :=
  ∀ t m, s.pending t = some (some m) → m < s.kernel.curMutexNum

theorem Creators.Below.step (below : s.Below) (step : CreateStep s l s') : s'.Below := by
  intro t m pending
  cases step with
  | enter u idle =>
    by_cases caller : t = u
    · subst caller
      simp only [Function.update_self, Option.some.injEq] at pending
      by_cases full : s.kernel.curMutexNum = Config.osNumMutex
      · simp [mutexCreateEnter_of_full full] at pending
      · obtain ⟨k', entered, count, -⟩ := mutexCreateEnter_of_room full
        simp only [entered, Option.some.injEq] at pending ⊢
        omega
    · simp only [Function.update_of_ne caller] at pending
      exact lt_of_lt_of_le (below t m pending) mutexCreateEnter_count
  | «return» u own same => exact below t m (pending_of_update pending).2
  | other same => exact lt_of_lt_of_eq (below t m pending) same.1.symm

theorem Creators.below_of_run (run : Run CreateStep (Creators.init τ k) w s) : s.Below := by
  apply Run.invariant (fun _ _ _ below step => Creators.Below.step below step) run
  intro t m pending
  simp [Creators.init] at pending

/-- A step that is not exclusive overtakes a call, which then never returns its own mutex. -/
theorem returnsOther_of_not_exclusive (run : Run CreateStep (Creators.init τ k) w s)
    (step : CreateStep s l s') (shared : ¬ Exclusive s l) :
    ∃ t m, s'.pending t = some (some m) ∧ ∀ v s'', Run CreateStep s' v s'' →
      s''.pending t = some (some m) ∨ ¬ HandsOutOnce (w ++ l :: v) := by
  cases step with
  | enter u idle =>
    by_cases full : s.kernel.curMutexNum = Config.osNumMutex
    · simp [mutexCreateEnter_of_full full, Exclusive] at shared
    · obtain ⟨k', entered, count, -⟩ := mutexCreateEnter_of_room full
      simp only [entered, Exclusive, not_forall, not_not] at shared ⊢
      obtain ⟨t, m, pending⟩ := shared
      have other : t ≠ u := by
        rintro rfl
        simp [idle] at pending
      have overtaken : Overtaken
          { kernel := k'
            pending := Function.update s.pending u (some (some s.kernel.curMutexNum)) } t m := by
        refine ⟨by simpa only [Function.update_of_ne other] using pending, ?_⟩
        have := Creators.below_of_run run t m pending
        simp only [count]
        omega
      refine ⟨t, m, overtaken.1, fun v s'' rest => ?_⟩
      rcases overtaken.run rest with still | ⟨code, member, wrong⟩
      · exact .inl still.1
      · right
        intro once
        apply wrong
        exact (once.own t m code (List.mem_append_right _ (List.mem_cons_of_mem _ member))).1
  | «return» u own same => exact absurd trivial shared
  | other same => exact absurd trivial shared

end Steps

end Gravel
