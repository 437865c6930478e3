import Gravel.Libc.Doprnt
import Mathlib.Data.List.Infix

/-!
# `printf`

The characters of a line are collected, and written to the console when the line ends or when
there is no room for more. A character without room goes through `putchar`, which writes the four
bytes of an `int`, the lowest one first; `char` has no sign.

## Main definitions

* `PrintfState`, `printfChar` — the buffer, and the calls of `write` that have been made
* `vprintf` — the bytes of these calls
* `withSpills` — what the console receives for a text
* `LinesFit` — no line is longer than the buffer

## Main results

* `vprintf_writes` — the console receives the text among null bytes, and exactly the text if its
  lines fit in the buffer
-/

namespace Gravel

/-- `PRINTF_BUFMAX` -/
abbrev printfBufMax : ℕ := 128

/-- `struct printf_state`: the characters below the index, and the bytes that have been
written. -/
structure PrintfState where
  buf : List UInt8
  console : List (List UInt8)
  fits : buf.length < printfBufMax

def PrintfState.init : PrintfState where
  buf := []
  console := []
  fits := by decide

/-- `write(STDOUT_FILENO, ...)` -/
def PrintfState.write (state : PrintfState) (bytes : List UInt8) : PrintfState :=
  { state with console := state.console ++ [bytes] }

/-- `index = 0` -/
def PrintfState.clear (state : PrintfState) : PrintfState where
  buf := []
  console := state.console
  fits := by decide

def puts (s : List UInt8) (state : PrintfState) : PrintfState :=
  (state.write (s.takeWhile (· ≠ 0))).write ['\n'.toUInt8]

def putchar (c : UInt8) (state : PrintfState) : PrintfState := state.write [c, 0, 0, 0]

def flush (state : PrintfState) : PrintfState := (state.write state.buf).clear

def printfChar (state : PrintfState) (c : UInt8) : PrintfState :=
  if c = '\n'.toUInt8 then (puts state.buf state).clear
  else if room : c = 0 ∨ state.buf.length ≥ printfBufMax - 1 then putchar c (flush state)
  else
    { state with
      buf := state.buf ++ [c]
      fits := by
        rw [List.length_append, List.length_singleton]
        omega }

/-- The calls of `write`. -/
def vprintf (fmt : List UInt8) (args : List Arg) : Except Undefined (List (List UInt8)) := do
  let text ← doprnt 0 fmt args
  let state := text.foldl printfChar .init
  return (if state.buf.length ≠ 0 then flush state else state).console

variable {c : UInt8} {text done fmt : List UInt8} {args : List Arg} {state : PrintfState} {k : ℕ}

/-! ### What reaches the console -/

/-- What the console has received, and will receive from the buffer. -/
def PrintfState.output (state : PrintfState) : List UInt8 := state.console.flatten ++ state.buf

/-- What the console receives for a text, with `k` characters in the buffer: a character that is
spilled brings three null bytes with it. -/
def withSpills (k : ℕ) : List UInt8 → List UInt8
  | [] => []
  | c :: text =>
    if c = '\n'.toUInt8 then c :: withSpills 0 text
    else if c = 0 ∨ k ≥ printfBufMax - 1 then [c, 0, 0, 0] ++ withSpills 0 text
    else c :: withSpills (k + 1) text

/-- A string without null bytes is written whole. -/
theorem takeWhile_of_notMem {s : List UInt8} (nonzero : 0 ∉ s) : s.takeWhile (· ≠ 0) = s := by
  rw [List.takeWhile_eq_self_iff]
  intro b member
  simpa using ne_of_mem_of_not_mem member nonzero

/-- The buffer holds no null byte. -/
theorem output_printfChar (nonzero : 0 ∉ state.buf) :
    (printfChar state c).output ++ withSpills (printfChar state c).buf.length text =
        state.output ++ withSpills state.buf.length (c :: text) ∧
      0 ∉ (printfChar state c).buf := by
  rw [printfChar, withSpills]
  by_cases newline : c = '\n'.toUInt8
  · rw [if_pos newline, if_pos newline]
    refine ⟨?_, List.not_mem_nil⟩
    simp only [puts, takeWhile_of_notMem nonzero]
    simp [PrintfState.output, PrintfState.clear, PrintfState.write, newline]
  · rw [if_neg newline, if_neg newline]
    by_cases spill : c = 0 ∨ state.buf.length ≥ printfBufMax - 1
    · rw [dif_pos spill, if_pos spill]
      refine ⟨?_, List.not_mem_nil⟩
      simp [PrintfState.output, putchar, flush, PrintfState.clear, PrintfState.write]
    · rw [dif_neg spill, if_neg spill]
      constructor
      · simp [PrintfState.output]
      · have other : c ≠ 0 := fun zero => spill (.inl zero)
        simpa [nonzero] using other.symm

theorem output_foldl (nonzero : 0 ∉ state.buf) :
    (text.foldl printfChar state).output = state.output ++ withSpills state.buf.length text := by
  induction text generalizing state with
  | nil => exact (List.append_nil _).symm
  | cons c text ih =>
    obtain ⟨step, kept⟩ := @output_printfChar c text state nonzero
    rw [List.foldl_cons, ih kept, step]

/-- The flush at the end. -/
theorem vprintf_eq (printed : doprnt 0 fmt args = .ok text) :
    ∃ calls, vprintf fmt args = .ok calls ∧ calls.flatten = withSpills 0 text := by
  have output := @output_foldl text .init List.not_mem_nil
  refine ⟨_, by rw [vprintf, printed]; rfl, ?_⟩
  refine Eq.trans ?_ output
  split_ifs with empty
  · simp [flush, PrintfState.write, PrintfState.clear, PrintfState.output]
  · have nothing : (text.foldl printfChar .init).buf = [] :=
      List.length_eq_zero_iff.mp (not_not.mp empty)
    rw [PrintfState.output, nothing, List.append_nil]

/-! ### Spills -/

theorem filter_withSpills : (withSpills k text).filter (· ≠ 0) = text.filter (· ≠ 0) := by
  induction text generalizing k with
  | nil => rfl
  | cons c text ih =>
    rw [withSpills]
    split_ifs
    · rw [List.filter_cons, List.filter_cons, ih]
    · rw [List.filter_append, ih, List.filter_cons]
      by_cases zero : c = 0
      · simp [zero]
      · simp [zero]
    · rw [List.filter_cons, List.filter_cons, ih]

theorem length_withSpills : text.length ≤ (withSpills k text).length := by
  induction text generalizing k with
  | nil => exact le_rfl
  | cons c text ih =>
    rw [withSpills]
    split_ifs
    · exact Nat.succ_le_succ ih
    · have rest := @ih 0
      simp only [List.length_append, List.length_cons] at rest ⊢
      omega
    · exact Nat.succ_le_succ ih

/-- The lines of a text fit in the buffer, the first one behind the `k` characters there. -/
structure LinesFit (k : ℕ) (text : List UInt8) : Prop where
  start : ∀ line, line <+: text → '\n'.toUInt8 ∉ line → k + line.length < printfBufMax
  inside : ∀ line, line <:+: text → '\n'.toUInt8 ∉ line → line.length < printfBufMax

theorem linesFit_nil (room : k < printfBufMax) : LinesFit k [] where
  start line first _ := by
    rw [List.prefix_nil.mp first]
    exact room
  inside line within _ := by
    rw [List.infix_nil.mp within]
    decide

/-- A line is no longer at the start of a text than anywhere else. -/
theorem linesFit_zero_iff : LinesFit 0 text ↔
    ∀ line, line <:+: text → '\n'.toUInt8 ∉ line → line.length < printfBufMax := by
  constructor
  · exact LinesFit.inside
  · intro inside
    refine ⟨fun line first plain => ?_, inside⟩
    rw [Nat.zero_add]
    exact inside line first.isInfix plain

theorem linesFit_newline (room : k < printfBufMax) :
    LinesFit k ('\n'.toUInt8 :: text) ↔ LinesFit 0 text := by
  have empty {line : List UInt8} (first : line <+: '\n'.toUInt8 :: text)
      (plain : '\n'.toUInt8 ∉ line) : line = [] := by
    rcases List.prefix_cons_iff.mp first with none | ⟨rest, rfl, -⟩
    · exact none
    · exact absurd List.mem_cons_self plain
  rw [linesFit_zero_iff]
  constructor
  · exact fun fit line within => fit.inside line (List.infix_cons_iff.mpr (.inr within))
  · intro inside
    refine ⟨fun line first plain => ?_, fun line within plain => ?_⟩
    · rw [empty first plain]
      exact room
    · rcases List.infix_cons_iff.mp within with first | later
      · rw [empty first plain]
        decide
      · exact inside line later plain

theorem linesFit_cons (room : k < printfBufMax) (other : c ≠ '\n'.toUInt8) :
    LinesFit k (c :: text) ↔ LinesFit (k + 1) text := by
  constructor
  · intro fit
    refine ⟨fun line first plain => ?_, fun line within => ?_⟩
    · have longer := fit.start (c :: line) (List.cons_prefix_cons.mpr ⟨rfl, first⟩)
        (List.not_mem_cons_of_ne_of_not_mem other.symm plain)
      rw [List.length_cons] at longer
      omega
    · exact fit.inside line (List.infix_cons_iff.mpr (.inr within))
  · intro fit
    have start : ∀ line, line <+: c :: text → '\n'.toUInt8 ∉ line →
        k + line.length < printfBufMax := by
      intro line first plain
      rcases List.prefix_cons_iff.mp first with rfl | ⟨rest, rfl, later⟩
      · exact room
      · have shorter := fit.start rest later (List.not_mem_of_not_mem_cons plain)
        rw [List.length_cons]
        omega
    refine ⟨start, fun line within plain => ?_⟩
    rcases List.infix_cons_iff.mp within with first | later
    · exact (Nat.le_add_left _ k).trans_lt (start line first plain)
    · exact fit.inside line later plain

/-- Nothing is spilled from a text without null bytes whose lines fit in the buffer. -/
theorem withSpills_eq_iff (room : k < printfBufMax) :
    withSpills k text = text ↔ 0 ∉ text ∧ LinesFit k text := by
  induction text generalizing k with
  | nil => exact iff_of_true rfl ⟨List.not_mem_nil, linesFit_nil room⟩
  | cons c text ih =>
    rw [withSpills, List.mem_cons, not_or]
    by_cases newline : c = '\n'.toUInt8
    · subst newline
      have nonzero : (0 : UInt8) ≠ '\n'.toUInt8 := by decide
      rw [if_pos rfl, List.cons_inj_right, ih (by decide), linesFit_newline room]
      exact and_congr_left fun _ => (and_iff_right nonzero).symm
    rw [if_neg newline, linesFit_cons room newline]
    by_cases spill : c = 0 ∨ k ≥ printfBufMax - 1
    · rw [if_pos spill]
      refine iff_of_false (fun same => ?_) ?_
      · have lengths := congrArg List.length same
        have more := @length_withSpills text 0
        simp only [List.length_append, List.length_cons] at lengths more
        omega
      · rintro ⟨⟨nonzero, -⟩, fit⟩
        rcases spill with zero | full
        · exact nonzero zero.symm
        · have start := fit.start [] List.nil_prefix List.not_mem_nil
          rw [List.length_nil] at start
          omega
    · obtain ⟨nonzero, more⟩ := not_or.mp spill
      rw [if_neg spill, List.cons_inj_right, ih (by omega)]
      exact and_congr_left fun _ => (and_iff_right (Ne.symm nonzero)).symm

/-- `printf` writes the characters of its text, in order, among null bytes; it writes exactly the
text if that has no null byte and no line longer than its buffer has room for. -/
theorem vprintf_writes (printed : doprnt 0 fmt args = .ok text) :
    ∃ calls, vprintf fmt args = .ok calls ∧
      calls.flatten.filter (· ≠ 0) = text.filter (· ≠ 0) ∧
      (calls.flatten = text ↔ 0 ∉ text ∧
        ∀ line, line <:+: text → '\n'.toUInt8 ∉ line → line.length < printfBufMax) := by
  obtain ⟨calls, made, output⟩ := vprintf_eq printed
  refine ⟨calls, made, by rw [output, filter_withSpills], ?_⟩
  rw [output, withSpills_eq_iff (by decide), linesFit_zero_iff]

/-- The last character of a line of 128 is spilled. -/
theorem vprintf_writes_longLine : ∃ calls,
    vprintf (List.replicate 128 'a'.toUInt8) [] = .ok calls ∧
      calls.flatten ≠ List.replicate 128 'a'.toUInt8 := by
  have other {c : Char} (differ : c.toUInt8 ≠ 'a'.toUInt8) :
      c.toUInt8 ∉ List.replicate 128 'a'.toUInt8 := fun member =>
    differ (List.eq_of_mem_replicate member)
  obtain ⟨calls, made, -, whole⟩ :=
    @vprintf_writes _ (List.replicate 128 'a'.toUInt8) [] (doprnt_plain (other (by decide)))
  refine ⟨calls, made, fun same => ?_⟩
  have short := (whole.mp same).2 _ List.infix_rfl (other (by decide))
  simp at short

end Gravel
