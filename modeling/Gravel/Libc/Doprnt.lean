import Gravel.Library.Numeral
import Mathlib.Data.UInt
import Mathlib.Data.Int.Order.Basic
import Mathlib.Data.List.TakeWhile

/-!
# `_doprnt`

The formatter under `printf` and `sprintf`. It hands every character to `putc` in order, so the
model is the text of these characters. A string is the list of its bytes, without the null byte at
its end; a use of `va_arg` with the wrong type, a read past the end of a string, a division by
zero, a store outside the digit buffer and a width or a precision that overflows an `int` have no
defined result. The negation of the least `long long` is taken to wrap around. Nothing sets
`_doprnt_truncates`, so `truncate` is always `FALSE`, and it is left out.

## Main definitions

* `Arg`, `Undefined` — the arguments, and what is not defined
* `Directive`, `directive` — what stands between `%` and the conversion
* `printnum`, `printNum`, `convert` — the conversions
* `doprnt` — the text of a format
-/

namespace Gravel

open Library

/-- An argument of `printf`. -/
inductive Arg
  /-- An `int`, a `long`, or one without sign. -/
  | word (w : UInt32)
  /-- A `long long`, or one without sign. -/
  | wide (w : UInt64)
  /-- A string, or `NULL`. -/
  | str (s : Option (List UInt8))
  /-- The two words of a thread id. -/
  | tid (high low : UInt32)
  deriving DecidableEq, Repr

inductive Undefined
  | badArg
  | pastEnd
  | badShift
  | divideByZero
  | overrun
  | overflow
  deriving DecidableEq, Repr

/-- The characters of a string literal. -/
def chars (s : String) : List UInt8 := s.toList.map Char.toUInt8

/-- The array has a null byte after the digits. -/
def digs : List UInt8 := chars "0123456789abcdef" ++ [0]

def digitChar (d : ℕ) : UInt8 := digs.getD d 0

/-- `MAXBUF`: enough for a binary `long`. -/
def maxBuf : ℕ := 32

def isdigit (c : UInt8) : Bool := '0'.toUInt8 ≤ c && c ≤ '9'.toUInt8

/-- The `do` loop that builds a number from the end of its buffer, with so much room left. -/
def buildNumber (base : ℕ) : ℕ → ℕ → List UInt8 → Except Undefined (List UInt8)
  | 0, _, _ => .error .overrun
  | room + 1, u, buf =>
    if base = 0 then .error .divideByZero
    else match digs[u % base]? with
      | none => .error .pastEnd
      | some d =>
        if u / base = 0 then .ok (d :: buf) else buildNumber base room (u / base) (d :: buf)

def printnum (u base : ℕ) : Except Undefined (List UInt8) := buildNumber base maxBuf u []

/-- The eight hexadecimal digits of a word. -/
def printnum16 (u : UInt32) : List UInt8 :=
  (List.range 8).reverse.map fun i => digitChar (u.toNat / 16 ^ i % 16)

/-! ### Directives -/

/-- What stands between `%` and the conversion; `plusSign` is 0 when there is none, and `prec` is
-1. -/
structure Directive where
  altfmt : Bool
  ladjust : Bool
  plusSign : UInt8
  padc : UInt8
  length : ℤ
  prec : ℤ
  longopt : ℕ
  deriving DecidableEq, Repr

def Directive.init : Directive where
  altfmt := false
  ladjust := false
  plusSign := 0
  padc := ' '.toUInt8
  length := 0
  prec := -1
  longopt := 0

/-- `#`, `-`, `+` and blank, in any order. -/
def flags (s : Directive) : List UInt8 → Directive × List UInt8
  | [] => (s, [])
  | c :: fmt =>
    if c = '#'.toUInt8 then flags { s with altfmt := true } fmt
    else if c = '-'.toUInt8 then flags { s with ladjust := true } fmt
    else if c = '+'.toUInt8 then flags { s with plusSign := '+'.toUInt8 } fmt
    else if c = ' '.toUInt8 then
      flags (if s.plusSign = 0 then { s with plusSign := ' '.toUInt8 } else s) fmt
    else (s, c :: fmt)

def zeroPad (s : Directive) : List UInt8 → Directive × List UInt8
  | [] => (s, [])
  | c :: fmt => if c = '0'.toUInt8 then ({ s with padc := '0'.toUInt8 }, fmt) else (s, c :: fmt)

/-- The result of an operation on `int`. -/
def checkInt (n : ℤ) : Except Undefined ℤ :=
  if -2147483648 ≤ n ∧ n ≤ 2147483647 then .ok n else .error .overflow

/-- The digits of a width or of a precision. -/
def decimal (fmt : List UInt8) : Except Undefined ℤ × List UInt8 :=
  scanDigits (fun c => if isdigit c then some (c.toNat - 48) else none)
    (fun (length : Except Undefined ℤ) d => length.bind fun n => checkInt (10 * n + d)) (.ok 0) fmt

/-- A number, or the argument for a `*`, if there is one. -/
def count (fmt : List UInt8) (args : List Arg) :
    Except Undefined (Option ℤ × List UInt8 × List Arg) :=
  match fmt with
  | [] => .ok (none, [], args)
  | c :: rest =>
    if isdigit c then (decimal fmt).1.map (some ·, (decimal fmt).2, args)
    else if c = '*'.toUInt8 then
      match args with
      | .word w :: args => .ok (some w.toInt32.toInt, rest, args)
      | _ => .error .badArg
    else .ok (none, fmt, args)

/-- The width of the field; a negative argument also turns the adjustment round. -/
def Directive.setLength (s : Directive) : Option ℤ → Except Undefined Directive
  | none => .ok s
  | some length =>
    if length < 0 then
      (checkInt (-length)).map fun length => { s with ladjust := !s.ladjust, length := length }
    else .ok { s with length := length }

/-- What follows the point. -/
def Directive.setPrec (s : Directive) : Option ℤ → Directive
  | none => s
  | some prec => { s with prec := prec }

/-- Memory has no room for as many as would make `longopt` overflow. -/
def longs (s : Directive) : List UInt8 → Directive × List UInt8
  | [] => (s, [])
  | c :: fmt =>
    if c = 'l'.toUInt8 then longs { s with longopt := s.longopt + 1 } fmt else (s, c :: fmt)

/-- Everything up to the conversion. -/
def directive (fmt : List UInt8) (args : List Arg) :
    Except Undefined (Directive × List UInt8 × List Arg) := do
  let (s, fmt) := flags .init fmt
  let (s, fmt) := zeroPad s fmt
  let (length, fmt, args) ← count fmt args
  let s ← s.setLength length
  match fmt with
  | [] => return (s, [], args)
  | c :: rest =>
    if c = '.'.toUInt8 then
      let (prec, fmt, args) ← count rest args
      let (s, fmt) := longs (s.setPrec prec) fmt
      return (s, fmt, args)
    else
      let (s, fmt) := longs s (c :: rest)
      return (s, fmt, args)

/-! ### Numbers -/

/-- `while (--length >= 0)`, with the length it leaves. -/
def padding (c : UInt8) (length : ℤ) : List UInt8 × ℤ :=
  (List.replicate length.toNat c, min length 0 - 1)

/-- The `prefix` of an alternate form. -/
def numberPrefix (s : Directive) (base u : ℕ) : List UInt8 :=
  if u ≠ 0 ∧ s.altfmt = true then
    if base = 8 then chars "0" else if base = 16 then chars "0x" else []
  else []

/-- A `sign_char` of 0 is none. -/
def signText (signChar : UInt8) : List UInt8 := if signChar = 0 then [] else [signChar]

/-- `print_num` -/
def printNum (s : Directive) (base : ℕ) (signChar : UInt8) (u : ℕ) :
    Except Undefined (List UInt8) := do
  let sign := signText signChar
  let pre := numberPrefix s base u
  let digits ← buildNumber base maxBuf u []
  let length := s.length - digits.length - sign.length - pre.length
  -- Blank padding goes before the prefix, zero padding after sign and prefix.
  let (blanks, length) :=
    if s.padc = ' '.toUInt8 ∧ s.ladjust = false then padding ' '.toUInt8 length else ([], length)
  let (zeros, length) :=
    if s.padc = '0'.toUInt8 then padding '0'.toUInt8 length else ([], length)
  let (after, _) := if s.ladjust then padding ' '.toUInt8 length else ([], length)
  return blanks ++ sign ++ pre ++ zeros ++ digits ++ after

/-- The next argument, with and without its sign. -/
def numberArg (s : Directive) : List Arg → Except Undefined ((ℤ × ℕ) × List Arg)
  | .word w :: args =>
    if s.longopt > 1 then .error .badArg else .ok ((w.toInt32.toInt, w.toNat), args)
  | .wide w :: args =>
    if s.longopt > 1 then .ok ((w.toInt64.toInt, w.toNat), args) else .error .badArg
  | _ => .error .badArg

/-- `print_signed` -/
def printSigned (s : Directive) (base : ℕ) (args : List Arg) :
    Except Undefined (List UInt8 × List Arg) := do
  let ((n, _), args) ← numberArg s args
  let text ← printNum s base (if n ≥ 0 then s.plusSign else '-'.toUInt8) n.natAbs
  return (text, args)

/-- `print_unsigned` -/
def printUnsigned (s : Directive) (base : ℕ) (args : List Arg) :
    Except Undefined (List UInt8 × List Arg) := do
  let ((_, u), args) ← numberArg s args
  let text ← printNum s base 0 u
  return (text, args)

/-! ### The other conversions -/

/-- `while (n < length)`, with the `n` it leaves. -/
def fillUp (c : UInt8) (n length : ℤ) : List UInt8 × ℤ :=
  (List.replicate (length - n).toNat c, max n length)

/-- `%s` -/
def printString (s : Directive) (p : List UInt8) : List UInt8 :=
  let prec := if s.prec = -1 then 0x7fffffff else s.prec
  let before :=
    if s.length > 0 ∧ s.ladjust = false then
      (fillUp ' '.toUInt8 (min p.length prec.toNat) s.length).1
    else []
  -- The loop has counted the character it stops at.
  let n : ℤ := if p.length ≤ prec.toNat then p.length else prec.toNat + 1
  let after := if s.ladjust then (fillUp ' '.toUInt8 n s.length).1 else []
  before ++ p.take prec.toNat ++ after

/-- `%t`, on the two words of a thread id. -/
def printThread (s : Directive) (high low : UInt32) : Except Undefined (List UInt8) :=
  let bracket (c : Char) : List UInt8 := if s.altfmt then [c.toUInt8] else []
  let fill (apply : Prop) [Decidable apply] (c : UInt8) (n length : ℤ) : List UInt8 × ℤ :=
    if apply then fillUp c n length else ([], n)
  if s.longopt ≠ 0 then
    let n := if s.altfmt then 19 else 17
    let (before, n) := fill (s.length > 0 ∧ s.ladjust = false) ' '.toUInt8 n s.length
    let (after, _) := fill (s.length > 0 ∧ s.ladjust = true) ' '.toUInt8 n s.length
    .ok (before ++ bracket '[' ++ printnum16 high ++ chars ":" ++ printnum16 low ++ bracket ']' ++
      after)
  else do
    let lthread := high.toNat / 2 ^ 10 % 2 ^ 7
    let task := high.toNat / 2 ^ 17 % 2 ^ 11
    let m := if lthread ≥ 0x10 then 2 else 1
    let n := (if s.altfmt then 4 else 2) + (if task ≥ 0x10 then 1 else 0) +
      (if task ≥ 0x100 then 1 else 0)
    let right := s.length > 0 ∧ s.ladjust = false
    let (blanks, n) := fill (right ∧ s.padc = ' '.toUInt8) ' '.toUInt8 n (s.length - 2)
    let (zeros, n) := fill (right ∧ s.padc = '0'.toUInt8) '0'.toUInt8 n (s.length - 2)
    let taskText ← printnum task 16
    let (between, n) := fill right s.padc n (s.length - m)
    let lthreadText ← printnum lthread 16
    let (after, _) := fill (s.ladjust = true) ' '.toUInt8 n (s.length - m)
    return blanks ++ bracket '[' ++ zeros ++ taskText ++ chars "." ++ between ++ lthreadText ++
      bracket ']' ++ after

/-- The names of the bits that are set, and the bit fields, of `%b`. -/
def bitNames (u base : ℕ) (any : Bool) : List UInt8 → Except Undefined (List UInt8)
  | [] => .ok (if any then chars ">" else [])
  | [_] => .error .pastEnd
  | i :: j :: q =>
    let sep := chars (if any then "," else "<")
    if j ≤ 32 then
      let name := q.takeWhile (32 < ·)
      if 1 ≤ j.toNat ∧ j ≤ i ∧ i.toNat - j.toNat < 30 then do
        let field ← printnum (u / 2 ^ (j.toNat - 1) % 2 ^ (i.toNat - j.toNat + 1)) base
        let rest ← bitNames u base true (q.dropWhile (32 < ·))
        return sep ++ name ++ field ++ rest
      else .error .badShift
    else if 1 ≤ i.toNat ∧ i.toNat ≤ 32 then
      let name := (j :: q).takeWhile (32 < ·)
      if u.testBit (i.toNat - 1) then do
        let rest ← bitNames u base true ((j :: q).dropWhile (32 < ·))
        return sep ++ name ++ rest
      else bitNames u base any ((j :: q).dropWhile (32 < ·))
    else .error .badShift
termination_by p => p.length
decreasing_by
  · have := List.length_dropWhile_le (32 < ·) q
    simp only [List.length_cons]
    omega
  all_goals
    have := List.length_dropWhile_le (32 < ·) (j :: q)
    simp only [List.length_cons] at this ⊢
    omega

/-- `%b` -/
def printBits (u : ℕ) : List UInt8 → Except Undefined (List UInt8)
  | [] => .error .pastEnd
  | base :: p => do
    let number ← printnum u base.toNat
    if u = 0 then return number
    let names ← bitNames u base.toNat false p
    return number ++ names

/-- The conversion, for the character at its end. -/
def convert (radix : ℕ) (s : Directive) (c : UInt8) (args : List Arg) :
    Except Undefined (List UInt8 × List Arg) :=
  match Char.ofUInt8 c with
  | 'b' | 'B' =>
    match args with
    | .word u :: .str (some p) :: args => do return (← printBits u.toNat p, args)
    | _ => .error .badArg
  | 'c' =>
    match args with
    | .word w :: args => .ok ([w.toUInt8], args)
    | _ => .error .badArg
  | 't' =>
    match args with
    | .tid high low :: args => do return (← printThread s high low, args)
    | _ => .error .badArg
  | 's' =>
    match args with
    | .str p :: args => .ok (printString s (p.getD []), args)
    | _ => .error .badArg
  | 'o' | 'O' => printUnsigned s 8 args
  | 'd' | 'D' => printSigned s 10 args
  | 'u' | 'U' => printUnsigned s 10 args
  | 'p' => do
    let (text, args) ← printUnsigned { s with padc := '0'.toUInt8, length := 8 } 16 args
    return (chars "0x" ++ text, args)
  | 'x' | 'X' => printUnsigned s 16 args
  | 'z' | 'Z' => printSigned s 16 args
  | 'r' | 'R' => printSigned s radix args
  | 'n' | 'N' => printUnsigned s radix args
  | _ => .ok ([c], args)

/-! ### The whole format -/

section Length

variable {s s' : Directive} {fmt fmt' : List UInt8} {args args' : List Arg}

theorem flags_length : (flags s fmt).2.length ≤ fmt.length := by
  induction fmt generalizing s with
  | nil => exact le_rfl
  | cons c fmt ih =>
    rw [flags]
    have shorter {s : Directive} : (flags s fmt).2.length ≤ (c :: fmt).length :=
      ih.trans (Nat.le_succ _)
    split_ifs <;> first | exact shorter | exact le_rfl

theorem zeroPad_length : (zeroPad s fmt).2.length ≤ fmt.length := by
  cases fmt with
  | nil => exact le_rfl
  | cons c fmt =>
    rw [zeroPad]
    split_ifs
    · exact Nat.le_succ _
    · exact le_rfl

theorem scanDigits_length {α β : Type*} {digit : α → Option ℕ} {step : β → ℕ → β} {v : β}
    {text : List α} : (scanDigits digit step v text).2.length ≤ text.length := by
  induction text generalizing v with
  | nil => exact le_rfl
  | cons c text ih =>
    rw [scanDigits]
    split
    · exact ih.trans (Nat.le_succ _)
    · exact le_rfl

theorem longs_length : (longs s fmt).2.length ≤ fmt.length := by
  induction fmt generalizing s with
  | nil => exact le_rfl
  | cons c fmt ih =>
    rw [longs]
    split_ifs
    · exact ih.trans (Nat.le_succ _)
    · exact le_rfl

theorem count_length {n : Option ℤ} (ok : count fmt args = .ok (n, fmt', args')) :
    fmt'.length ≤ fmt.length := by
  cases fmt with
  | nil =>
    obtain ⟨-, rfl, -⟩ := by simpa [count] using ok
    exact le_rfl
  | cons c rest =>
    unfold count at ok
    dsimp only at ok
    split at ok
    · cases number : (decimal (c :: rest)).1 with
      | error fault =>
        rw [number] at ok
        cases ok
      | ok length =>
        rw [number] at ok
        obtain ⟨-, rfl, -⟩ := by simpa [Except.map] using ok
        exact scanDigits_length
    · split at ok
      · split at ok
        · obtain ⟨-, rfl, -⟩ := by simpa using ok
          exact Nat.le_succ _
        · simp at ok
      · obtain ⟨-, rfl, -⟩ := by simpa using ok
        exact le_rfl

@[simp] theorem flags_padc : (flags s fmt).1.padc = s.padc := by
  induction fmt generalizing s with
  | nil => rfl
  | cons c fmt ih =>
    rw [flags]
    split_ifs <;> simp [ih]

theorem zeroPad_padc : (zeroPad s fmt).1.padc = s.padc ∨ (zeroPad s fmt).1.padc = '0'.toUInt8 := by
  cases fmt with
  | nil => exact .inl rfl
  | cons c fmt =>
    rw [zeroPad]
    split_ifs
    · exact .inr rfl
    · exact .inl rfl

theorem setLength_keeps {n : Option ℤ} (ok : s.setLength n = .ok s') :
    s'.padc = s.padc ∧ s'.plusSign = s.plusSign := by
  cases n with
  | none =>
    cases ok
    exact ⟨rfl, rfl⟩
  | some n =>
    simp only [Directive.setLength, checkInt] at ok
    split_ifs at ok <;> cases ok <;> exact ⟨rfl, rfl⟩

@[simp] theorem setPrec_padc {n : Option ℤ} : (s.setPrec n).padc = s.padc := by
  cases n <;> rfl

@[simp] theorem longs_padc : (longs s fmt).1.padc = s.padc := by
  induction fmt generalizing s with
  | nil => rfl
  | cons c fmt ih =>
    rw [longs]
    split_ifs
    · exact ih
    · rfl

theorem flags_plusSign
    (known : s.plusSign = 0 ∨ s.plusSign = ' '.toUInt8 ∨ s.plusSign = '+'.toUInt8) :
    (flags s fmt).1.plusSign = 0 ∨ (flags s fmt).1.plusSign = ' '.toUInt8 ∨
      (flags s fmt).1.plusSign = '+'.toUInt8 := by
  induction fmt generalizing s with
  | nil => exact known
  | cons c fmt ih =>
    rw [flags]
    split_ifs
    · exact ih known
    · exact ih known
    · exact ih (.inr (.inr rfl))
    · exact ih (.inr (.inl rfl))
    · exact ih known
    · exact known

@[simp] theorem zeroPad_plusSign : (zeroPad s fmt).1.plusSign = s.plusSign := by
  cases fmt with
  | nil => rfl
  | cons c fmt =>
    rw [zeroPad]
    split_ifs <;> rfl

@[simp] theorem setPrec_plusSign {n : Option ℤ} : (s.setPrec n).plusSign = s.plusSign := by
  cases n <;> rfl

@[simp] theorem longs_plusSign : (longs s fmt).1.plusSign = s.plusSign := by
  induction fmt generalizing s with
  | nil => rfl
  | cons c fmt ih =>
    rw [longs]
    split_ifs
    · exact ih
    · rfl

/-- A directive has its flags, a width, and perhaps a precision. -/
theorem directive_ok (ok : directive fmt args = .ok (s, fmt', args')) :
    ∃ width s₁ fmt₁ args₁,
      count (zeroPad (flags .init fmt).1 (flags .init fmt).2).2 args = .ok (width, fmt₁, args₁) ∧
      (zeroPad (flags .init fmt).1 (flags .init fmt).2).1.setLength width = .ok s₁ ∧
      fmt'.length ≤ fmt₁.length ∧ s.padc = s₁.padc ∧ s.plusSign = s₁.plusSign := by
  simp only [directive, bind, Except.bind, pure, Except.pure] at ok
  split at ok
  · cases ok
  · rename_i number counted
    obtain ⟨width, fmt₁, args₁⟩ := number
    split at ok
    · cases ok
    · rename_i s₁ set
      refine ⟨width, s₁, fmt₁, args₁, counted, set, ?_⟩
      dsimp only at ok
      split at ok
      · cases ok
        exact ⟨le_rfl, rfl, rfl⟩
      · split at ok
        · split at ok
          · cases ok
          · rename_i precision
            cases ok
            refine ⟨longs_length.trans ((count_length precision).trans (Nat.le_succ _)), ?_, ?_⟩
            · rw [longs_padc, setPrec_padc]
            · rw [longs_plusSign, setPrec_plusSign]
        · cases ok
          exact ⟨longs_length, longs_padc, longs_plusSign⟩

/-- The padding is blank or zero, the sign of positive numbers nothing, a blank or a plus. -/
theorem directive_known (ok : directive fmt args = .ok (s, fmt', args')) :
    (s.padc = ' '.toUInt8 ∨ s.padc = '0'.toUInt8) ∧
      (s.plusSign = 0 ∨ s.plusSign = ' '.toUInt8 ∨ s.plusSign = '+'.toUInt8) := by
  obtain ⟨width, s₁, fmt₁, args₁, -, set, -, padc, plusSign⟩ := directive_ok ok
  obtain ⟨same_padc, same_plusSign⟩ := setLength_keeps set
  rw [padc, plusSign, same_padc, same_plusSign, zeroPad_plusSign]
  constructor
  · have kept := @zeroPad_padc (flags .init fmt).1 (flags .init fmt).2
    rwa [flags_padc] at kept
  · exact flags_plusSign (.inl rfl)

/-- What is left after a directive is a part of the format. -/
theorem directive_length (ok : directive fmt args = .ok (s, fmt', args')) :
    fmt'.length ≤ fmt.length := by
  obtain ⟨width, s₁, fmt₁, args₁, counted, -, shorter, -⟩ := directive_ok ok
  exact shorter.trans ((count_length counted).trans (zeroPad_length.trans flags_length))

end Length

/-- The text that is handed to `putc`. -/
def doprnt (radix : ℕ) (fmt : List UInt8) (args : List Arg) : Except Undefined (List UInt8) :=
  match fmt with
  | [] => .ok []
  | c :: fmt =>
    if c ≠ '%'.toUInt8 then do return c :: (← doprnt radix fmt args)
    else
      match _parsed : directive fmt args with
      | .error fault => .error fault
      -- The format ends within the directive.
      | .ok (_, [], _) => .ok []
      | .ok (s, c :: rest, args) => do
        let (text, args) ← convert radix s c args
        return text ++ (← doprnt radix rest args)
termination_by fmt.length
decreasing_by
  · simp
  · have := directive_length _parsed
    simp only [List.length_cons] at this ⊢
    omega

section Format

variable {radix : ℕ} {s : Directive} {c : UInt8} {fmt rest text : List UInt8}
  {args args' args'' : List Arg}

@[simp] theorem doprnt_nil : doprnt radix [] args = .ok [] := by
  rw [doprnt]

theorem doprnt_char (plain : c ≠ '%'.toUInt8) :
    doprnt radix (c :: fmt) args = (doprnt radix fmt args).map (c :: ·) := by
  rw [doprnt, if_pos plain]
  rfl

theorem doprnt_directive (parsed : directive fmt args = .ok (s, c :: rest, args'))
    (converted : convert radix s c args' = .ok (text, args'')) :
    doprnt radix ('%'.toUInt8 :: fmt) args = (doprnt radix rest args'').map (text ++ ·) := by
  rw [doprnt, if_neg (not_not.mpr rfl)]
  split
  · simp_all
  · simp_all
  · rename_i again
    obtain ⟨rfl, ⟨rfl, rfl⟩, rfl⟩ := by simpa using again.symm.trans parsed
    rw [converted]
    rfl

/-- Text without directives is printed as it is. -/
theorem doprnt_literal (plain : '%'.toUInt8 ∉ text) :
    doprnt radix (text ++ fmt) args = (doprnt radix fmt args).map (text ++ ·) := by
  induction text with
  | nil => cases printed : doprnt radix fmt args <;> simp [printed, Except.map]
  | cons c text ih =>
    rw [List.mem_cons, not_or] at plain
    rw [List.cons_append, doprnt_char (Ne.symm plain.1), ih plain.2]
    cases doprnt radix fmt args <;> rfl

theorem doprnt_plain (plain : '%'.toUInt8 ∉ text) : doprnt radix text args = .ok text := by
  have whole := @doprnt_literal radix [] text args plain
  rw [List.append_nil, doprnt_nil] at whole
  rw [whole]
  exact congrArg Except.ok (List.append_nil text)

end Format

/-! ### The digits -/

section Digits

variable {base room u : ℕ} {buf : List UInt8}

theorem digs_getElem? {d : ℕ} (small : d < 16) : digs[d]? = some (digitChar d) := by
  have inside : d < digs.length := small.trans (by decide)
  rw [digitChar, List.getD_eq_getElem?_getD, List.getElem?_eq_getElem inside, Option.getD_some]

/-- The loop writes the numeral, if there is room for it. -/
theorem buildNumber_eq (two : 1 < base) (sixteen : base ≤ 16) :
    buildNumber base room u buf =
      if (numeral base u).length ≤ room then .ok ((numeral base u).map digitChar ++ buf)
      else .error .overrun := by
  induction room generalizing u buf with
  | zero =>
    rw [buildNumber, if_neg]
    simpa using numeral_ne_nil
  | succ room ih =>
    have positive : base ≠ 0 := by omega
    have digit : u % base < base := Nat.mod_lt u (by omega)
    rw [buildNumber, if_neg positive, digs_getElem? (digit.trans_le sixteen)]
    by_cases small : u < base
    · rw [numeral_of_lt small]
      simp [Nat.div_eq_of_lt small, Nat.mod_eq_of_lt small]
    · have large : base ≤ u := not_lt.mp small
      have more : u / base ≠ 0 := (Nat.div_pos large (by omega)).ne'
      dsimp only
      rw [if_neg more, ih, numeral_of_le two large]
      simp

/-- A number in its field: padding stands before it, between the prefix and the digits, or after
it, and fills the width. -/
theorem printNum_eq {s : Directive} {signChar : UInt8} (two : 1 < base) (sixteen : base ≤ 16)
    (fits : u < base ^ maxBuf) (padc : s.padc = ' '.toUInt8 ∨ s.padc = '0'.toUInt8) :
    ∃ blanks zeros after : ℕ,
      printNum s base signChar u = .ok (List.replicate blanks ' '.toUInt8 ++ signText signChar ++
        numberPrefix s base u ++ List.replicate zeros '0'.toUInt8 ++
        (numeral base u).map digitChar ++ List.replicate after ' '.toUInt8) ∧
      (blanks + zeros + after : ℤ) = max (s.length - (numeral base u).length -
        (signText signChar).length - (numberPrefix s base u).length) 0 := by
  have room : (numeral base u).length ≤ maxBuf :=
    (numeral_length_le two (by decide)).mpr fits
  have digits : buildNumber base maxBuf u [] = .ok ((numeral base u).map digitChar) := by
    rw [buildNumber_eq two sixteen, if_pos room, List.append_nil]
  have apart : '0'.toUInt8 ≠ ' '.toUInt8 := by decide
  simp only [printNum, digits, bind, Except.bind, pure, Except.pure, padding, List.length_map]
  generalize s.length - (numeral base u).length - (signText signChar).length -
    (numberPrefix s base u).length = length
  rcases padc with blank | zero
  · rw [blank]
    cases adjust : s.ladjust with
    | false =>
      refine ⟨length.toNat, 0, 0, ?_, ?_⟩
      · simp [apart.symm]
      · simp
    | true =>
      refine ⟨0, 0, length.toNat, ?_, ?_⟩
      · simp [apart.symm]
      · simp
  · rw [zero]
    refine ⟨0, length.toNat, 0, ?_, ?_⟩
    · have none : (min length 0 - 1).toNat = 0 := by omega
      cases adjust : s.ladjust <;> simp [apart, none]
    · simp

end Digits

end Gravel
