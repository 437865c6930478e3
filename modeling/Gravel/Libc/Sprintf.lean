import Gravel.Io.LineEditing
import Gravel.Libc.Doprnt

/-!
# `sprintf` and `snprintf`

The text of a format is stored character by character, until `max` of them are there. The format
and the strings among the arguments are taken not to lie in the buffer.

## Main definitions

* `SprintfState`, `savechar`
* `vsprintf`, `vsnprintf`
* `SavedText` — the invariant: what has been stored

## Main results

* `vsnprintf_writes` — the buffer receives as much of the text as it has room for, and a null
  byte, which may be one byte too many
-/

namespace Gravel

open Library

/-- `struct sprintf_state`, and the memory it stores to. -/
structure SprintfState where
  mem : Memory
  buf : UInt32
  len : Int32
  max : Int32

/-- `SPRINTF_UNLIMITED` -/
def sprintfUnlimited : Int32 := -1

def savechar (state : SprintfState) (c : UInt8) : SprintfState :=
  if state.max ≠ sprintfUnlimited ∧ state.len = state.max then state
  else
    { state with
      len := state.len + 1
      mem := Function.update state.mem state.buf c
      buf := state.buf + 1 }

/-- What the call returns, and the memory it leaves. -/
def vsprintf (m : Memory) (s : UInt32) (fmt : List UInt8) (args : List Arg) :
    Except Undefined (Int32 × Memory) := do
  let text ← doprnt 0 fmt args
  let state := text.foldl savechar { mem := m, buf := s, len := 0, max := sprintfUnlimited }
  return (state.len, Function.update state.mem state.buf 0)

def vsnprintf (m : Memory) (s size : UInt32) (fmt : List UInt8) (args : List Arg) :
    Except Undefined (Int32 × Memory) := do
  let text ← doprnt 0 fmt args
  let state := text.foldl savechar { mem := m, buf := s, len := 0, max := size.toInt32 }
  return (state.len, Function.update state.mem state.buf 0)

variable {m : Memory} {a s size : UInt32} {c : UInt8} {text done fmt : List UInt8}
  {args : List Arg} {state : SprintfState} {n : ℕ}

/-- The largest size is no limit. -/
theorem vsprintf_eq : vsprintf m s fmt args = vsnprintf m s 0xffffffff fmt args := rfl

/-- The text has been stored, and nothing else. -/
structure SavedText (m : Memory) (s : UInt32) (text : List UInt8) (state : SprintfState) :
    Prop where
  buf : state.buf = s + .ofNat text.length
  len : state.len = .ofNat text.length
  stored : bytesAt state.mem s text.length = text
  frame : ∀ a, (∀ i < text.length, a ≠ s + .ofNat i) → state.mem a = m a

theorem savedText_init {max : Int32} :
    SavedText m s [] { mem := m, buf := s, len := 0, max := max } where
  buf := (UInt32.add_zero s).symm
  len := rfl
  stored := rfl
  frame _ _ := rfl

/-- One more byte behind the text. -/
theorem SavedText.update (saved : SavedText m s text state) (short : text.length < 2 ^ 32) :
    bytesAt (Function.update state.mem state.buf c) s (text.length + 1) = text ++ [c] ∧
      ∀ a, (∀ i < text.length + 1, a ≠ s + .ofNat i) →
        Function.update state.mem state.buf c a = m a := by
  rw [saved.buf]
  constructor
  · have typed := @bytesAt_typed s text c state.mem short saved.stored
    rwa [List.length_append] at typed
  · intro a outside
    rw [Function.update_of_ne (outside _ (Nat.lt_succ_self _))]
    exact saved.frame a fun i inside => outside i (Nat.lt_succ_of_lt inside)

/-- The limit is met when the length is the size, as long as no length is negative. -/
theorem full_iff (short : n < 2 ^ 31) :
    (size.toInt32 ≠ sprintfUnlimited ∧ Int32.ofNat n = size.toInt32) ↔ n = size.toNat := by
  have same : Int32.ofNat n = size.toInt32 ↔ n = size.toNat := by
    constructor
    · intro equal
      have words := congrArg Int32.toUInt32 equal
      rw [Int32.toUInt32_ofNat', UInt32.toUInt32_toInt32] at words
      rw [← words, toNat_ofNat_of_lt (by omega)]
    · rintro rfl
      rw [← UInt32.toInt32_ofNat', UInt32.ofNat_toNat]
  constructor
  · exact fun full => same.mp full.2
  · intro equal
    refine ⟨fun unlimited => ?_, same.mpr equal⟩
    have words : size = 0xffffffff := congrArg Int32.toUInt32 unlimited
    rw [equal, words] at short
    revert short
    decide

theorem SavedText.savechar (saved : SavedText m s text state) (limit : state.max = size.toInt32)
    (short : text.length < 2 ^ 31) :
    SavedText m s (if text.length = size.toNat then text else text ++ [c]) (savechar state c) := by
  unfold Gravel.savechar
  rw [limit, saved.len]
  by_cases full : text.length = size.toNat
  · rw [if_pos full, if_pos ((full_iff short).mpr full)]
    exact saved
  · rw [if_neg full, if_neg (mt (full_iff short).mp full)]
    obtain ⟨stored, frame⟩ := @SavedText.update m s c text state saved (by omega)
    constructor
    · dsimp only
      rw [saved.buf, List.length_append, UInt32.ofNat_add, UInt32.add_assoc]
      rfl
    · dsimp only
      rw [List.length_append, Int32.ofNat_add]
      rfl
    · dsimp only
      rwa [List.length_append]
    · dsimp only
      rwa [List.length_append]

@[simp] theorem savechar_max : (savechar state c).max = state.max := by
  unfold savechar
  split_ifs <;> rfl

/-- By induction on the text still to come, after the characters done. -/
theorem savedText_foldl (saved : SavedText m s (done.take size.toNat) state)
    (limit : state.max = size.toInt32) (short : (done ++ text).length < 2 ^ 31) :
    SavedText m s ((done ++ text).take size.toNat) (text.foldl savechar state) := by
  induction text generalizing done state with
  | nil => rwa [List.append_nil]
  | cons c text ih =>
    rw [List.append_cons, List.foldl_cons]
    rw [List.append_cons] at short
    refine ih ?_ (by rw [savechar_max, limit]) short
    have small : (done.take size.toNat).length < 2 ^ 31 := by
      simp only [List.length_append, List.length_cons, List.length_take] at short ⊢
      omega
    have step := @SavedText.savechar m s size c _ state saved limit small
    rw [List.length_take] at step
    by_cases room : done.length < size.toNat
    · rw [if_neg (by omega), List.take_of_length_le room.le] at step
      rwa [List.take_of_length_le (by simpa using room)]
    · rw [if_pos (by omega)] at step
      rwa [List.take_append_of_le_length (not_lt.mp room)]

theorem vsnprintf_stores (printed : doprnt 0 fmt args = .ok text)
    (short : text.length < 2 ^ 31) :
    ∃ m', vsnprintf m s size fmt args = .ok (.ofNat (min size.toNat text.length), m') ∧
      bytesAt m' s (min size.toNat text.length + 1) = text.take size.toNat ++ [0] ∧
      ∀ a, (∀ i ≤ min size.toNat text.length, a ≠ s + .ofNat i) → m' a = m a := by
  have start : SavedText m s (([] : List UInt8).take size.toNat)
      { mem := m, buf := s, len := 0, max := size.toInt32 } := by
    rw [List.take_nil]
    exact savedText_init
  have saved : SavedText m s (text.take size.toNat) _ :=
    @savedText_foldl m s size text [] _ start rfl short
  have stored := @SavedText.update m s 0 _ _ saved (by rw [List.length_take]; omega)
  rw [List.length_take] at stored
  obtain ⟨bytes, frame⟩ := stored
  refine ⟨_, ?_, bytes, fun a outside => frame a fun i inside => ?_⟩
  · rw [vsnprintf, printed]
    dsimp only [bind, Except.bind, pure, Except.pure]
    rw [saved.len, List.length_take]
  · exact outside i (Nat.lt_succ_iff.mp inside)

/-- A null byte behind as many bytes as a buffer has is seen outside the buffer, unless there was
one before. -/
theorem confined_iff {m' : Memory} {line : List UInt8} (fits : line.length ≤ size.toNat)
    (stored : bytesAt m' s (line.length + 1) = line ++ [0])
    (frame : ∀ a, (∀ i ≤ line.length, a ≠ s + .ofNat i) → m' a = m a) :
    (∀ a, (∀ i < size.toNat, a ≠ s + .ofNat i) → m' a = m a) ↔
      line.length < size.toNat ∨ m (s + size) = 0 := by
  rcases fits.lt_or_eq with room | full
  · refine iff_of_true (fun a outside => frame a fun i inside => ?_) (.inl room)
    exact outside i (inside.trans_lt room)
  · have null : m' (s + size) = 0 := by
      have last := (List.append_inj (bytesAt_succ.symm.trans stored) length_bytesAt).2
      rwa [full, UInt32.ofNat_toNat, List.singleton_inj] at last
    constructor
    · intro within
      refine .inr ((within (s + size) fun i inside same => ?_).symm.trans null)
      have offset := congrArg UInt32.toNat ((UInt32.add_right_inj s).mp same)
      have bound := size.toNat_lt
      rw [toNat_ofNat_of_lt (by omega)] at offset
      omega
    · rintro (room | already) a outside
      · exact absurd full room.ne
      · by_cases behind : a = s + size
        · rw [behind, null, already]
        · refine frame a fun i inside => ?_
          rcases inside.lt_or_eq with before | rfl
          · exact outside i (before.trans_eq full)
          · rwa [full, UInt32.ofNat_toNat]

/-- What `vsnprintf` stores: so much of the text as the size says, and a null byte behind it. It
stays within its buffer if the text is shorter than that, or if there was a null byte behind the
buffer already. -/
theorem vsnprintf_writes (printed : doprnt 0 fmt args = .ok text) (short : text.length < 2 ^ 31) :
    ∃ m', vsnprintf m s size fmt args = .ok (.ofNat (min size.toNat text.length), m') ∧
      bytesAt m' s (min size.toNat text.length + 1) = text.take size.toNat ++ [0] ∧
      (∀ a, (∀ i ≤ min size.toNat text.length, a ≠ s + .ofNat i) → m' a = m a) ∧
      ((∀ a, (∀ i < size.toNat, a ≠ s + .ofNat i) → m' a = m a) ↔
        text.length < size.toNat ∨ m (s + size) = 0) := by
  obtain ⟨m', returned, stored, frame⟩ :=
    @vsnprintf_stores m s size text fmt args printed short
  refine ⟨m', returned, stored, frame, ?_⟩
  rw [← List.length_take] at stored frame
  rw [confined_iff (List.length_take_le _ _) stored frame, List.length_take, min_lt_iff]
  exact or_congr_left (or_iff_right (lt_irrefl _))

/-- Five characters in a buffer of three: the null byte falls behind it. -/
theorem vsnprintf_writes_overrun : ∃ m',
    vsnprintf (fun _ => 1) 16 3 (chars "gravl") [] = .ok (3, m') ∧ m' 19 = 0 := by
  obtain ⟨m', returned, stored, -⟩ := @vsnprintf_writes (fun _ => 1) 16 3 (chars "gravl")
    (chars "gravl") [] (doprnt_plain (by decide)) (by decide)
  refine ⟨m', returned, ?_⟩
  have bytes := congrArg (fun l => l[3]?) stored
  simpa [bytesAt, chars] using bytes

end Gravel
