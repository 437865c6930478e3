import Gravel.Io.LineEditing
import Gravel.Libc.Memmove
import Gravel.Libc.Printf

/-!
# `printf` in memory

The buffer of `printf`, the argument of `putchar` and the string of `puts` lie in the memory of the
program, and `write` is a system call that reads them there. The format and the strings among the
arguments are taken not to lie in the first two.

## Main definitions

* `Layout` — where these are
* `PrintfRun` — the memory, the index, and the console behind `write_syscall`
* `strlen`, `printfOn`
* `Realises` — the memory holds the state of `Gravel.Libc.Printf`

## Main results

* `printfOn_refines` — the console receives the bytes that `vprintf` writes
-/

namespace Gravel

open Library

/-- The addresses of `state.buf`, of `c` in `putchar`, and of the string `"\n"`. -/
structure Layout where
  buf : UInt32
  arg : UInt32
  newline : UInt32

/-- All of it is in RAM, and the three are apart. -/
structure Layout.Valid (l : Layout) : Prop where
  buf : ValidBuffer l.buf 128
  arg : ValidBuffer l.arg 4
  newline : ValidBuffer l.newline 1
  bufArg : l.buf.toNat + 128 ≤ l.arg.toNat ∨ l.arg.toNat + 4 ≤ l.buf.toNat
  bufNewline : l.buf.toNat + 128 ≤ l.newline.toNat ∨ l.newline.toNat + 1 ≤ l.buf.toNat
  argNewline : l.arg.toNat + 4 ≤ l.newline.toNat ∨ l.newline.toNat + 1 ≤ l.arg.toNat

structure PrintfRun where
  mem : Memory
  index : UInt32
  console : List UInt8

/-- The loop of `strlen`, for so many rounds: where it leaves `string`. -/
def strlenLoop (m : Memory) : ℕ → UInt32 → UInt32
  | 0, string => string
  | rounds + 1, string =>
    if m string ≠ 0 then strlenLoop m rounds (string + 1) else string + 1

/-- All addresses have been seen after `2 ^ 32` rounds. -/
def strlen (m : Memory) (string : UInt32) : UInt32 :=
  strlenLoop m (2 ^ 32) string - 1 - string

namespace PrintfRun

/-- `write(STDOUT_FILENO, buf, count)` -/
def write (buf count : UInt32) (p : PrintfRun) : PrintfRun :=
  { p with console := p.console ++ (writeSyscall p.mem Config.stdoutFileno buf count).echo }

def puts (l : Layout) (s : UInt32) (p : PrintfRun) : PrintfRun :=
  (p.write s (strlen p.mem s)).write l.newline 1

def putchar (l : Layout) (c : UInt8) (p : PrintfRun) : PrintfRun :=
  { p with mem := storeWord p.mem l.arg c.toUInt32 }.write l.arg 4

/-- `state->buf[state->index] = c` -/
def store (l : Layout) (c : UInt8) (p : PrintfRun) : PrintfRun :=
  { p with mem := Function.update p.mem (l.buf + p.index) c }

def flush (l : Layout) (p : PrintfRun) : PrintfRun :=
  { (p.store l 0).write l.buf p.index with index := 0 }

def printfChar (l : Layout) (p : PrintfRun) (c : UInt8) : PrintfRun :=
  if c = '\n'.toUInt8 then { (p.store l 0).puts l l.buf with index := 0 }
  else if c = 0 ∨ p.index ≥ 127 then (p.flush l).putchar l c
  else { p.store l c with index := p.index + 1 }

end PrintfRun

/-- `vprintf`, with the memory it starts in. -/
def printfOn (l : Layout) (m : Memory) (fmt : List UInt8) (args : List Arg) :
    Except Undefined PrintfRun := do
  let text ← doprnt 0 fmt args
  let p := text.foldl (PrintfRun.printfChar l) { mem := m, index := 0, console := [] }
  return if p.index ≠ 0 then p.flush l else p

variable {l : Layout} {m : Memory} {a b s buf count : UInt32} {c : UInt8} {n k i j rounds : ℕ}
  {text fmt line : List UInt8} {args : List Arg} {p : PrintfRun} {state : PrintfState}

/-! ### Regions -/

theorem ValidBuffer.regionAt_ne (first : ValidBuffer a (.ofNat n))
    (second : ValidBuffer b (.ofNat k)) (small : n < 2 ^ 32 ∧ k < 2 ^ 32)
    (apart : a.toNat + n ≤ b.toNat ∨ b.toNat + k ≤ a.toNat) (hi : i < n) (hj : j < k) :
    a + .ofNat i ≠ b + .ofNat j := by
  have last : Config.ramEndAddr.toNat + 1 ≤ 2 ^ 32 := by decide
  have hn := first.2
  have hk := second.2
  rw [UInt32.toNat_ofNat_of_lt' small.1] at hn
  rw [UInt32.toNat_ofNat_of_lt' small.2] at hk
  intro same
  have addresses : (regionAt a i).toNat = (regionAt b j).toNat := congrArg UInt32.toNat same
  rw [@regionAt_toNat a n i (by omega) hi, @regionAt_toNat b k j (by omega) hj] at addresses
  omega

/-- What `write` puts on the console. -/
theorem echo_writeSyscall (valid : ValidBuffer buf count) :
    (writeSyscall m Config.stdoutFileno buf count).echo = bytesAt m buf count.toNat := by
  have loads (rounds : ℕ) (nwritten : UInt32) : writeLoop buf rounds nwritten =
      (List.range rounds).map fun i => buf + (nwritten + .ofNat i) := by
    induction rounds generalizing nwritten with
    | zero => rfl
    | succ rounds ih =>
      rw [writeLoop, ih, List.range_succ_eq_map, List.map_cons, List.map_map]
      congr 1
      · exact congrArg (buf + ·) (UInt32.add_zero nwritten).symm
      · refine List.map_congr_left fun i _ => ?_
        rw [Function.comp_apply, Nat.succ_eq_add_one, UInt32.ofNat_add, UInt32.add_assoc,
          UInt32.add_comm (UInt32.ofNat i)]
        rfl
  have range : ¬ ((buf < Config.ramStartAddr ∨ buf + count - 1 > Config.ramEndAddr) ∧
      buf + count - 1 > Config.flashEndAddr) := by
    obtain ⟨low, high⟩ := valid
    rintro ⟨below | above, -⟩
    · exact absurd low (UInt32.not_le.mpr below)
    · have start : Config.ramStartAddr.toNat = 0xa0000000 := rfl
      have stop : Config.ramEndAddr.toNat = 0xa4000000 := rfl
      rw [UInt32.le_iff_toNat_le] at low
      rw [gt_iff_lt, UInt32.lt_iff_toNat_lt, UInt32.toNat_sub, UInt32.toNat_add,
        UInt32.toNat_one] at above
      omega
  rw [writeSyscall, if_neg range, if_neg (not_not.mpr rfl)]
  dsimp only
  rw [loads, List.map_map, bytesAt]
  refine List.map_congr_left fun i _ => ?_
  rw [Function.comp_apply, UInt32.zero_add]

theorem mem_bytesAt (inside : i < n) : m (a + .ofNat i) ∈ bytesAt m a n :=
  List.mem_map.mpr ⟨i, List.mem_range.mpr inside, rfl⟩

/-! ### `strlen` -/

theorem strlenLoop_eq (plain : ∀ i < n, m (s + .ofNat i) ≠ 0) (null : m (s + .ofNat n) = 0)
    (enough : n < rounds) : strlenLoop m rounds s = s + .ofNat n + 1 := by
  induction n generalizing s rounds with
  | zero =>
    obtain ⟨rounds, rfl⟩ := Nat.exists_eq_succ_of_ne_zero enough.ne'
    have first : m s = 0 := by simpa using null
    rw [strlenLoop, if_neg (not_not.mpr first)]
    simp
  | succ n ih =>
    obtain ⟨rounds, rfl⟩ := Nat.exists_eq_succ_of_ne_zero (Nat.zero_lt_of_lt enough).ne'
    have first : m s ≠ 0 := by simpa using plain 0 n.succ_pos
    have next (i : ℕ) : s + 1 + UInt32.ofNat i = s + .ofNat (i + 1) := by
      rw [UInt32.ofNat_add, UInt32.add_comm (UInt32.ofNat i), UInt32.add_assoc]
      rfl
    rw [strlenLoop, if_pos first, ih, next]
    · intro i inside
      rw [next]
      exact plain (i + 1) (Nat.succ_lt_succ inside)
    · rw [next]
      exact null
    · exact Nat.lt_of_succ_lt_succ enough

/-- The string in a buffer, up to its null byte. -/
theorem strlen_eq (held : bytesAt m s line.length = line) (nonzero : 0 ∉ line)
    (null : m (s + .ofNat line.length) = 0) (short : line.length < 2 ^ 32) :
    strlen m s = .ofNat line.length := by
  have plain : ∀ i < line.length, m (s + .ofNat i) ≠ 0 := fun i inside =>
    ne_of_mem_of_not_mem (held ▸ mem_bytesAt inside) nonzero
  rw [strlen, strlenLoop_eq plain null short, UInt32.add_sub_cancel, UInt32.add_comm,
    UInt32.add_sub_cancel]

/-! ### The two levels -/

/-- The buffer holds the characters below the index, the console has received what was written, and
memory outside the buffer and the argument is what it was. -/
structure Realises (l : Layout) (m : Memory) (p : PrintfRun) (state : PrintfState) : Prop where
  index : p.index = .ofNat state.buf.length
  held : bytesAt p.mem l.buf state.buf.length = state.buf
  nonzero : 0 ∉ state.buf
  console : p.console = state.console.flatten
  frame : ∀ a, (∀ i < 128, a ≠ l.buf + .ofNat i) → (∀ j < 4, a ≠ l.arg + .ofNat j) →
    p.mem a = m a

theorem realises_init : Realises l m { mem := m, index := 0, console := [] } .init where
  index := rfl
  held := rfl
  nonzero := List.not_mem_nil
  console := rfl
  frame _ _ _ := rfl

/-- A part of the buffer. -/
theorem Layout.Valid.part (valid : l.Valid) (bound : n ≤ 128) : ValidBuffer l.buf (.ofNat n) := by
  refine ⟨valid.buf.1, le_trans ?_ valid.buf.2⟩
  rw [toNat_ofNat_of_lt (by omega)]
  exact Nat.add_le_add_left bound _

/-- The null byte behind the line is within the buffer. -/
theorem Realises.store_null (realised : Realises l m p state) :
    Realises l m (p.store l 0) state ∧
      (p.store l 0).mem (l.buf + .ofNat state.buf.length) = 0 := by
  have fits : state.buf.length < 128 := state.fits
  have stored : (p.store l 0).mem =
      Function.update p.mem (l.buf + .ofNat state.buf.length) 0 := by
    rw [PrintfRun.store, realised.index]
  refine ⟨⟨realised.index, ?_, realised.nonzero, realised.console, ?_⟩, ?_⟩
  · rw [stored]
    exact (bytesAt_update (by omega) le_rfl).trans realised.held
  · intro a outside apart
    rw [stored, Function.update_of_ne (outside _ fits)]
    exact realised.frame a outside apart
  · rw [stored, Function.update_self]

/-- What `write` puts on the console for the line. -/
theorem Realises.echo (realised : Realises l m p state) (valid : l.Valid) :
    (writeSyscall p.mem Config.stdoutFileno l.buf (.ofNat state.buf.length)).echo = state.buf := by
  have fits : state.buf.length < 128 := state.fits
  rw [echo_writeSyscall (valid.part fits.le), toNat_ofNat_of_lt (by omega), realised.held]

theorem Realises.flush (realised : Realises l m p state) (valid : l.Valid) :
    Realises l m (p.flush l) (flush state) := by
  obtain ⟨stored, -⟩ := realised.store_null
  refine ⟨rfl, rfl, List.not_mem_nil, ?_, stored.frame⟩
  simp only [PrintfRun.flush, PrintfRun.write, Gravel.flush, PrintfState.clear,
    PrintfState.write, List.flatten_append, List.flatten_singleton]
  rw [realised.index, stored.echo valid]
  exact congrArg (· ++ state.buf) realised.console

/-- The four bytes of an `int`. -/
theorem bytesAt_storeWord : bytesAt (storeWord m a c.toUInt32) a 4 = [c, 0, 0, 0] := by
  have small := c.toNat_lt
  have byte (j : ℕ) (inside : j < 4) :
      storeWord m a c.toUInt32 (a + .ofNat j) = .ofNat (c.toNat / 2 ^ (8 * j)) := by
    have value : (UInt32.ofNat j).toNat = j :=
      toNat_ofNat_of_lt (by omega)
    rw [storeWord_of_lt, offset_sub, value, byteOf, UInt8.toNat_toUInt32]
    rw [offset_sub, UInt32.lt_iff_toNat_lt, value]
    exact inside
  have high (j : ℕ) (inside : j < 3) : c.toNat / 2 ^ (8 * (j + 1)) = 0 :=
    Nat.div_eq_of_lt (small.trans_le (Nat.pow_le_pow_right (by decide) (by omega)))
  have range : List.range 4 = [0, 1, 2, 3] := rfl
  rw [bytesAt, range]
  simp only [List.map_cons, List.map_nil]
  rw [byte 0 (by decide), byte 1 (by decide), byte 2 (by decide), byte 3 (by decide),
    high 0 (by decide), high 1 (by decide), high 2 (by decide)]
  simp

theorem Realises.putchar (realised : Realises l m p state) (valid : l.Valid) :
    Realises l m (p.putchar l c) (putchar c state) := by
  have fits : state.buf.length < 128 := state.fits
  have elsewhere (a : UInt32) (apart : ∀ j < 4, a ≠ l.arg + .ofNat j) :
      storeWord p.mem l.arg c.toUInt32 a = p.mem a := by
    refine storeWord_of_not_lt fun inside => ?_
    have position : a = l.arg + .ofNat (a - l.arg).toNat := by
      rw [UInt32.ofNat_toNat, UInt32.add_comm, UInt32.sub_add_cancel]
    exact apart _ inside position
  refine ⟨realised.index, ?_, realised.nonzero, ?_, ?_⟩
  · refine (List.map_congr_left fun i inside => elsewhere _ fun j small => ?_).trans realised.held
    have within := (List.mem_range.mp inside).trans fits
    exact @ValidBuffer.regionAt_ne l.buf l.arg 128 4 i j valid.buf valid.arg (by decide)
      valid.bufArg within small
  · simp only [PrintfRun.putchar, PrintfRun.write, Gravel.putchar, PrintfState.write,
      List.flatten_append, List.flatten_singleton]
    rw [echo_writeSyscall valid.arg]
    exact congrArg₂ (· ++ ·) realised.console bytesAt_storeWord
  · intro a outside apart
    exact (elsewhere a apart).trans (realised.frame a outside apart)

/-- The line is a string in memory, and `puts` writes all of it. -/
theorem Realises.puts (realised : Realises l m p state) (valid : l.Valid)
    (literal : m l.newline = '\n'.toUInt8) :
    Realises l m { (p.store l 0).puts l l.buf with index := 0 } (puts state.buf state).clear := by
  have fits : state.buf.length < 128 := state.fits
  obtain ⟨stored, null⟩ := realised.store_null
  have ending : bytesAt (p.store l 0).mem l.newline 1 = ['\n'.toUInt8] := by
    have first (x : UInt32) : bytesAt (p.store l 0).mem x 1 = [(p.store l 0).mem (x + 0)] := rfl
    rw [first, stored.frame]
    · rw [UInt32.add_zero, literal]
    · exact fun i inside => (@ValidBuffer.regionAt_ne l.buf l.newline 128 1 i 0 valid.buf
        valid.newline (by decide) valid.bufNewline inside Nat.one_pos).symm
    · exact fun j inside => (@ValidBuffer.regionAt_ne l.arg l.newline 4 1 j 0 valid.arg
        valid.newline (by decide) valid.argNewline inside Nat.one_pos).symm
  refine ⟨rfl, rfl, List.not_mem_nil, ?_, stored.frame⟩
  simp only [PrintfRun.puts, PrintfRun.write, Gravel.puts, PrintfState.clear, PrintfState.write,
    List.flatten_append, List.flatten_singleton, takeWhile_of_notMem realised.nonzero]
  rw [strlen_eq stored.held realised.nonzero null (by omega), stored.echo valid,
    echo_writeSyscall valid.newline]
  exact congrArg₂ (· ++ ·) (congrArg (· ++ state.buf) realised.console) ending

theorem Realises.printfChar (realised : Realises l m p state) (valid : l.Valid)
    (literal : m l.newline = '\n'.toUInt8) :
    Realises l m (p.printfChar l c) (printfChar state c) := by
  have fits : state.buf.length < 128 := state.fits
  have full : p.index ≥ 127 ↔ state.buf.length ≥ printfBufMax - 1 := by
    rw [realised.index, ge_iff_le, UInt32.le_iff_toNat_le,
      toNat_ofNat_of_lt (by omega)]
    rfl
  rw [PrintfRun.printfChar, Gravel.printfChar]
  by_cases newline : c = '\n'.toUInt8
  · rw [if_pos newline, if_pos newline]
    exact realised.puts valid literal
  rw [if_neg newline, if_neg newline]
  by_cases spill : c = 0 ∨ state.buf.length ≥ printfBufMax - 1
  · rw [if_pos (spill.imp_right full.mpr), dif_pos spill]
    exact (realised.flush valid).putchar valid
  · rw [if_neg (mt (Or.imp_right full.mp) spill), dif_neg spill]
    have longer : (state.buf ++ [c]).length = state.buf.length + 1 := by
      rw [List.length_append, List.length_singleton]
    constructor
    · dsimp only
      rw [realised.index, longer, UInt32.ofNat_add]
      rfl
    · dsimp only
      rw [PrintfRun.store, realised.index]
      exact bytesAt_typed (by omega) realised.held
    · dsimp only
      rw [List.mem_append, not_or, List.mem_singleton]
      exact ⟨realised.nonzero, fun zero => spill (.inl zero.symm)⟩
    · exact realised.console
    · intro a outside apart
      refine (Function.update_of_ne ?_ _ _).trans (realised.frame a outside apart)
      rw [realised.index]
      exact outside _ fits

theorem realises_foldl (realised : Realises l m p state) (valid : l.Valid)
    (literal : m l.newline = '\n'.toUInt8) :
    Realises l m (text.foldl (PrintfRun.printfChar l) p) (text.foldl printfChar state) := by
  induction text generalizing p state with
  | nil => exact realised
  | cons c text ih => exact ih (realised.printfChar valid literal)

/-- In memory, and through `write_syscall`, `vprintf` puts on the console what its calls of `write`
say, and changes nothing but its buffer and the argument of `putchar`. -/
theorem printfOn_refines (valid : l.Valid) (literal : m l.newline = '\n'.toUInt8)
    (printed : doprnt 0 fmt args = .ok text) :
    ∃ calls p, vprintf fmt args = .ok calls ∧ printfOn l m fmt args = .ok p ∧
      p.console = calls.flatten ∧
      ∀ a, (∀ i < 128, a ≠ l.buf + .ofNat i) → (∀ j < 4, a ≠ l.arg + .ofNat j) →
        p.mem a = m a := by
  have realised := @realises_foldl l m text _ _ realises_init valid literal
  have index : (text.foldl (PrintfRun.printfChar l) { mem := m, index := 0, console := [] }).index
      ≠ 0 ↔ (text.foldl Gravel.printfChar .init).buf.length ≠ 0 := by
    have fits : _ < 128 := (text.foldl Gravel.printfChar .init).fits
    rw [realised.index, Ne, ← UInt32.toNat_inj,
      toNat_ofNat_of_lt (by omega)]
    rfl
  refine ⟨_, _, by rw [vprintf, printed]; rfl, by rw [printfOn, printed]; rfl, ?_⟩
  by_cases pending : (text.foldl Gravel.printfChar .init).buf.length ≠ 0
  · rw [if_pos pending, if_pos (index.mpr pending)]
    exact ⟨(realised.flush valid).console, (realised.flush valid).frame⟩
  · rw [if_neg pending, if_neg (mt index.mp pending)]
    exact ⟨realised.console, realised.frame⟩

theorem printfOn_refines_hello : ∃ calls p,
    vprintf (chars "hello\n") [] = .ok calls ∧
      printfOn ⟨0xa2000000, 0xa2000100, 0xa1000000⟩ (fun _ => 10) (chars "hello\n") [] = .ok p ∧
      p.console = calls.flatten := by
  have valid : Layout.Valid ⟨0xa2000000, 0xa2000100, 0xa1000000⟩ :=
    { buf := by decide
      arg := by decide
      newline := by decide
      bufArg := by decide
      bufNewline := by decide
      argNewline := by decide }
  obtain ⟨calls, p, written, run, same, -⟩ :=
    @printfOn_refines _ (fun _ => 10) _ (chars "hello\n") [] valid rfl
      (doprnt_plain (by decide))
  exact ⟨calls, p, written, run, same⟩

end Gravel
