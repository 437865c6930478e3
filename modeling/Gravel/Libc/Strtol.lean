import Gravel.Libc.Doprnt
import Mathlib.Data.Int.Lemmas

/-!
# `strtol` and `strtoul`

The conversions from text, and what they make of a number that `_doprnt` has written. A text is
the bytes of a string up to its null byte; the conversions return the rest they have not read. The
arithmetic of `long` is taken to wrap around.

## Main definitions

* `isspace`, `digitOf` — the characters
* `strtoul`, `strtol`

## Main results

* `strtoul_doprnt`, `strtol_doprnt` — numbers that were printed are read back
-/

namespace Gravel

open Library

def isspace (c : UInt8) : Bool :=
  c = ' '.toUInt8 || c = 12 || c = 10 || c = 13 || c = 9 || c = 11

/-- A digit in the base, of either case. -/
def digitOf (base : ℤ) (c : UInt8) : Option ℕ :=
  let value (first : Char) (last : Char) (d : ℕ) : Option ℕ :=
    if first.toUInt8 ≤ c ∧ c ≤ last.toUInt8 ∧ ((c.toNat - first.toNat + d : ℕ) : ℤ) < base then
      some (c.toNat - first.toNat + d)
    else none
  (value '0' '9' 0 <|> value 'a' 'z' 10) <|> value 'A' 'Z' 10

/-- The prefix of a hexadecimal number. -/
def skipHex (base : ℤ) (p : List UInt8) : ℤ × List UInt8 :=
  match p with
  | z :: x :: rest =>
    if (base = 16 ∨ base = 0) ∧ z = '0'.toUInt8 ∧ (x = 'x'.toUInt8 ∨ x = 'X'.toUInt8) then
      (16, rest)
    else (base, p)
  | _ => (base, p)

/-- A base of 0 is chosen by the first digit. -/
def chooseBase (base : ℤ) (p : List UInt8) : ℤ :=
  if base = 0 then if p.head? = some '0'.toUInt8 then 8 else 10 else base

/-- The loop over the digits. -/
def strtoulLoop (base : ℤ) (p : List UInt8) : UInt32 × List UInt8 :=
  scanDigits (digitOf base) (fun v d => v * UInt32.ofInt base + UInt32.ofNat d) 0 p

def strtoul (p : List UInt8) (base : ℤ) : UInt32 × List UInt8 :=
  let p := p.dropWhile isspace
  let (base, p) := skipHex base p
  strtoulLoop (chooseBase base p) p

def strtol (p : List UInt8) (base : ℤ) : Int32 × List UInt8 :=
  let p := p.dropWhile isspace
  -- A `+` is not skipped.
  let (isNeg, p) :=
    match p with
    | [] => (false, p)
    | c :: rest => if c = '-'.toUInt8 then (true, rest) else (false, p)
  let (base, p) := skipHex base p
  let (v, p) := strtoulLoop (chooseBase base p) p
  ((if isNeg then -v else v).toInt32, p)

/-! ### Characters -/

variable {base u k zeros : ℕ} {ds : List ℕ} {c : UInt8} {behind : List UInt8}

theorem digitOf_digitChar {d : ℕ} (sixteen : base ≤ 16) (digit : d < base) :
    digitOf base (digitChar d) = some d := by
  have all : ∀ base ≤ 16, ∀ d < base, digitOf (base : ℕ) (digitChar d) = some d := by decide
  exact all base sixteen d digit

theorem digitOf_blank {base : ℤ} : digitOf base ' '.toUInt8 = none := by
  have zero : ¬ '0'.toUInt8 ≤ ' '.toUInt8 := by decide
  have a : ¬ 'a'.toUInt8 ≤ ' '.toUInt8 := by decide
  have capital : ¬ 'A'.toUInt8 ≤ ' '.toUInt8 := by decide
  simp [digitOf, zero, a, capital]

theorem ofInt_natCast {n : ℕ} : UInt32.ofInt n = UInt32.ofNat n := by
  apply UInt32.toNat_inj.mp
  simp [UInt32.ofInt]
  omega

theorem toInt32_ofInt {n : ℤ} : (UInt32.ofInt n).toInt32 = Int32.ofInt n := by
  have bits : (UInt32.ofInt n).toBitVec = BitVec.ofInt 32 n := by
    apply BitVec.eq_of_toNat_eq
    rw [UInt32.toNat_toBitVec, BitVec.toNat_ofInt, UInt32.ofInt]
    simp
    omega
  apply Int32.toBitVec_inj.mp
  rw [UInt32.toBitVec_toInt32, bits]
  simp

/-- The value wraps around. -/
theorem foldl_digits {v : ℕ} :
    ds.foldl (fun (v : UInt32) d => v * UInt32.ofInt base + UInt32.ofNat d) (UInt32.ofNat v) =
      UInt32.ofNat (horner base v ds) := by
  induction ds generalizing v with
  | nil => rfl
  | cons d ds ih =>
    have step : UInt32.ofNat v * UInt32.ofInt base + UInt32.ofNat d =
        UInt32.ofNat (v * base + d) := by
      rw [UInt32.ofNat_add, UInt32.ofNat_mul, ofInt_natCast]
    rw [List.foldl_cons, step, ih]
    rfl

/-- The digits of a number, after zeros and before a character that is no digit. -/
theorem strtoulLoop_digits (two : 1 < base) (sixteen : base ≤ 16)
    (stop : ∀ c ∈ behind.head?, digitOf base c = none) :
    strtoulLoop base (List.replicate zeros '0'.toUInt8 ++ (numeral base u).map digitChar ++
      behind) = (UInt32.ofNat u, behind) := by
  have digits : List.replicate zeros '0'.toUInt8 ++ (numeral base u).map digitChar =
      (List.replicate zeros 0 ++ numeral base u).map digitChar := by
    rw [List.map_append, List.map_replicate]
    rfl
  have read : ∀ d ∈ List.replicate zeros 0 ++ numeral base u,
      digitOf base (digitChar d) = some d := by
    intro d member
    apply digitOf_digitChar sixteen
    rcases List.mem_append.mp member with zero | digit
    · rw [List.eq_of_mem_replicate zero]
      omega
    · exact lt_of_mem_numeral two digit
  rw [strtoulLoop, digits, scanDigits_map read]
  have start : (0 : UInt32) = UInt32.ofNat 0 := rfl
  rw [start, foldl_digits, horner_replicate, horner_numeral]
  exact scanDigits_stop stop

theorem strtoulLoop_numeral (two : 1 < base) (sixteen : base ≤ 16) :
    strtoulLoop base (List.replicate zeros '0'.toUInt8 ++ (numeral base u).map digitChar ++
      List.replicate k ' '.toUInt8) = (UInt32.ofNat u, List.replicate k ' '.toUInt8) := by
  apply strtoulLoop_digits two sixteen
  intro c first
  cases k with
  | zero => simp at first
  | succ k =>
    obtain rfl : ' '.toUInt8 = c := by simpa [List.replicate_succ] using first
    exact digitOf_blank

/-! ### Numbers that were printed -/

variable {s : Directive} {signChar : UInt8} {blanks after : ℕ}

/-- The prefix and the digits of a number. -/
def body (s : Directive) (base u zeros after : ℕ) : List UInt8 :=
  numberPrefix s base u ++ List.replicate zeros '0'.toUInt8 ++ (numeral base u).map digitChar ++
    List.replicate after ' '.toUInt8

/-- The base in which a number is read back; 0 finds it by the prefix. -/
def ReadsBack (s : Directive) (base : ℕ) (b : ℤ) : Prop :=
  b = base ∨ b = 0 ∧ s.altfmt = true ∧ base ≠ 10

theorem dropWhile_blanks {text : List UInt8} (start : ∀ c ∈ text.head?, isspace c = false) :
    (List.replicate k ' '.toUInt8 ++ text).dropWhile isspace = text := by
  induction k with
  | zero =>
    cases text with
    | nil => rfl
    | cons c text =>
      have first := start c rfl
      simp [first]
  | succ k ih => simpa [List.replicate_succ, isspace] using ih

/-- The characters of a number. -/
theorem body_chars (two : 1 < base) (sixteen : base ≤ 16) {c : UInt8}
    (member : c ∈ numberPrefix s base u ++ List.replicate zeros '0'.toUInt8 ++
      (numeral base u).map digitChar) :
    isspace c = false ∧ c ≠ '-'.toUInt8 ∧ c ≠ '+'.toUInt8 := by
  have zero : isspace '0'.toUInt8 = false ∧ '0'.toUInt8 ≠ '-'.toUInt8 ∧
    '0'.toUInt8 ≠ '+'.toUInt8 := by decide
  rcases List.mem_append.mp member with front | digit
  · rcases List.mem_append.mp front with pre | pad
    · have ex : isspace 'x'.toUInt8 = false ∧ 'x'.toUInt8 ≠ '-'.toUInt8 ∧
        'x'.toUInt8 ≠ '+'.toUInt8 := by decide
      have all : ∀ c ∈ chars "0x", isspace c = false ∧ c ≠ '-'.toUInt8 ∧ c ≠ '+'.toUInt8 :=
        List.forall_mem_cons.mpr ⟨zero, List.forall_mem_singleton.mpr ex⟩
      have first : ∀ c ∈ chars "0", c ∈ chars "0x" :=
        List.forall_mem_singleton.mpr List.mem_cons_self
      rw [numberPrefix] at pre
      split_ifs at pre
      · exact all c (first c pre)
      · exact all c pre
      · simp at pre
      · simp at pre
    · rw [List.eq_of_mem_replicate pad]
      exact zero
  · obtain ⟨d, inside, rfl⟩ := List.mem_map.mp digit
    have all : ∀ d < 16, isspace (digitChar d) = false ∧ digitChar d ≠ '-'.toUInt8 ∧
      digitChar d ≠ '+'.toUInt8 := by decide
    exact all d ((lt_of_mem_numeral two inside).trans_le sixteen)

/-- A number begins with no space and with no sign. -/
theorem body_head (two : 1 < base) (sixteen : base ≤ 16) :
    ∀ c ∈ (body s base u zeros after).head?, isspace c = false ∧ c ≠ '-'.toUInt8 ∧
      c ≠ '+'.toUInt8 := by
  intro c first
  apply body_chars two sixteen
  have some_digit : (numeral base u).map digitChar ≠ [] := by simpa using numeral_ne_nil
  rw [body, List.head?_append_of_ne_nil] at first
  · exact List.mem_of_mem_head? first
  · simp [some_digit]

/-- No `x`, no prefix. -/
theorem skipHex_of_notMem {b : ℤ} {p : List UInt8}
    (none : ∀ c ∈ p, c ≠ 'x'.toUInt8 ∧ c ≠ 'X'.toUInt8) : skipHex b p = (b, p) := by
  match p with
  | [] => rfl
  | [z] => rfl
  | z :: x :: rest =>
    have := none x (by simp)
    rw [skipHex, if_neg]
    tauto

/-- The digits of a number contain no `x`. -/
theorem skipHex_numeral (two : 1 < base) (sixteen : base ≤ 16) {b : ℤ} :
    skipHex b (List.replicate zeros '0'.toUInt8 ++ (numeral base u).map digitChar ++
      List.replicate after ' '.toUInt8) = (b, List.replicate zeros '0'.toUInt8 ++
      (numeral base u).map digitChar ++ List.replicate after ' '.toUInt8) := by
  apply skipHex_of_notMem
  intro c member
  simp only [List.mem_append, List.mem_map] at member
  rcases member with (pad | ⟨d, digit, rfl⟩) | pad
  · rw [List.eq_of_mem_replicate pad]
    decide
  · have all : ∀ d < 16, digitChar d ≠ 'x'.toUInt8 ∧ digitChar d ≠ 'X'.toUInt8 := by decide
    exact all d ((lt_of_mem_numeral two digit).trans_le sixteen)
  · rw [List.eq_of_mem_replicate pad]
    decide

theorem chooseBase_of_ne {b : ℤ} {p : List UInt8} (given : b ≠ 0) : chooseBase b p = b :=
  if_neg given

theorem chooseBase_zero {p : List UInt8} : chooseBase 0 ('0'.toUInt8 :: p) = 8 := rfl

/-- The loop over the digits finds the number. -/
theorem read_body (bases : base = 8 ∨ base = 10 ∨ base = 16) {b : ℤ} (reads : ReadsBack s base b) :
    strtoulLoop (chooseBase (skipHex b (body s base u zeros after)).1
        (skipHex b (body s base u zeros after)).2) (skipHex b (body s base u zeros after)).2 =
      (UInt32.ofNat u, List.replicate after ' '.toUInt8) := by
  have two : 1 < base := by omega
  have sixteen : base ≤ 16 := by omega
  by_cases pre : u ≠ 0 ∧ s.altfmt = true
  · rcases bases with rfl | rfl | rfl
    · -- The prefix is one more zero.
      have octal : body s 8 u zeros after = List.replicate (zeros + 1) '0'.toUInt8 ++
          (numeral 8 u).map digitChar ++ List.replicate after ' '.toUInt8 := by
        rw [body, numberPrefix, if_pos pre, if_pos rfl]
        rfl
      rw [octal, skipHex_numeral two sixteen]
      rcases reads with rfl | ⟨rfl, -⟩
      · dsimp only
        rw [chooseBase_of_ne (by decide)]
        exact strtoulLoop_numeral two sixteen
      · rw [List.replicate_succ, List.cons_append, List.cons_append, chooseBase_zero,
          ← List.cons_append, ← List.cons_append, ← List.replicate_succ]
        exact strtoulLoop_numeral two sixteen
    · have decimal : numberPrefix s 10 u = [] := by
        rw [numberPrefix, if_pos pre, if_neg (by decide), if_neg (by decide)]
      obtain rfl : b = 10 := by
        rcases reads with rfl | ⟨-, -, other⟩
        · rfl
        · exact absurd rfl other
      rw [body, decimal, List.nil_append, skipHex_numeral two sixteen]
      dsimp only
      rw [chooseBase_of_ne (by decide)]
      exact strtoulLoop_numeral two sixteen
    · have hex : skipHex b (body s 16 u zeros after) = (16, List.replicate zeros '0'.toUInt8 ++
          (numeral 16 u).map digitChar ++ List.replicate after ' '.toUInt8) := by
        rw [body, numberPrefix, if_pos pre, if_neg (by decide), if_pos rfl]
        refine if_pos ⟨?_, rfl, .inl rfl⟩
        exact reads.imp id And.left
      rw [hex]
      dsimp only
      rw [chooseBase_of_ne (by decide)]
      exact strtoulLoop_numeral two sixteen
  · have plain : numberPrefix s base u = [] := by rw [numberPrefix, if_neg pre]
    rw [body, plain, List.nil_append, skipHex_numeral two sixteen]
    rcases reads with rfl | ⟨rfl, alt, -⟩
    · rw [chooseBase_of_ne (by omega)]
      exact strtoulLoop_numeral two sixteen
    · -- A zero has no prefix, and is read in base 8.
      obtain rfl : u = 0 := by
        by_contra nonzero
        exact pre ⟨nonzero, alt⟩
      have zero : (numeral base 0).map digitChar = (numeral 8 0).map digitChar := rfl
      have head : chooseBase 0 (List.replicate zeros '0'.toUInt8 ++
          (numeral 8 0).map digitChar ++ List.replicate after ' '.toUInt8) = 8 := by
        cases zeros with
        | zero => rfl
        | succ zeros => rfl
      rw [zero, head]
      exact strtoulLoop_numeral (by decide) (by decide)

/-! ### Numbers in a format -/

/-- The unsigned conversions, with their bases. -/
def unsignedConversions : List (UInt8 × ℕ) :=
  [('o'.toUInt8, 8), ('O'.toUInt8, 8), ('u'.toUInt8, 10), ('U'.toUInt8, 10), ('x'.toUInt8, 16),
    ('X'.toUInt8, 16)]

/-- The signed conversions, with their bases. -/
def signedConversions : List (UInt8 × ℕ) :=
  [('d'.toUInt8, 10), ('D'.toUInt8, 10), ('z'.toUInt8, 16), ('Z'.toUInt8, 16)]

variable {radix : ℕ} {n b : ℤ} {fmt text : List UInt8} {args rest more : List Arg}

theorem convert_unsigned (conversion : (c, base) ∈ unsignedConversions) :
    convert radix s c args = printUnsigned s base args := by
  simp only [unsignedConversions, List.mem_cons, Prod.mk.injEq, List.not_mem_nil,
    or_false] at conversion
  rcases conversion with ⟨rfl, rfl⟩ | ⟨rfl, rfl⟩ | ⟨rfl, rfl⟩ | ⟨rfl, rfl⟩ | ⟨rfl, rfl⟩ |
    ⟨rfl, rfl⟩ <;> rfl

theorem convert_signed (conversion : (c, base) ∈ signedConversions) :
    convert radix s c args = printSigned s base args := by
  simp only [signedConversions, List.mem_cons, Prod.mk.injEq, List.not_mem_nil,
    or_false] at conversion
  rcases conversion with ⟨rfl, rfl⟩ | ⟨rfl, rfl⟩ | ⟨rfl, rfl⟩ | ⟨rfl, rfl⟩ <;> rfl

theorem base_of_conversion
    (conversion : (c, base) ∈ unsignedConversions ∨ (c, base) ∈ signedConversions) :
    base = 8 ∨ base = 10 ∨ base = 16 := by
  simp only [unsignedConversions, signedConversions, List.mem_cons, Prod.mk.injEq,
    List.not_mem_nil] at conversion
  tauto

/-- A format that is one directive. -/
theorem doprnt_single (parsed : directive fmt args = .ok (s, [c], rest))
    (converted : convert radix s c rest = .ok (text, more)) :
    doprnt radix ('%'.toUInt8 :: fmt) args = .ok text := by
  rw [doprnt_directive parsed converted, doprnt_nil]
  exact congrArg Except.ok (List.append_nil text)

theorem numberArg_bound (taken : numberArg s args = .ok ((n, u), rest)) :
    u < 2 ^ 64 ∧ n.natAbs < 2 ^ 64 := by
  unfold numberArg at taken
  split at taken
  · split at taken
    · simp at taken
    · rename_i w _ _
      obtain ⟨⟨rfl, rfl⟩, -⟩ := by simpa using taken
      have word := w.toNat_lt
      have low := w.toInt32.le_toInt
      have high := w.toInt32.toInt_lt
      omega
  · split at taken
    · rename_i w _ _
      obtain ⟨⟨rfl, rfl⟩, -⟩ := by simpa using taken
      have word := w.toNat_lt
      have low := w.toInt64.le_toInt
      have high := w.toInt64.toInt_lt
      omega
    · simp at taken
  · simp at taken

/-- The text of a number: blanks, a sign, and the rest. -/
theorem printNum_body (parsed : directive fmt args = .ok (s, text, rest))
    (bases : base = 8 ∨ base = 10 ∨ base = 16) (bound : u < 2 ^ 64) :
    ∃ blanks zeros after, printNum s base signChar u = .ok (List.replicate blanks ' '.toUInt8 ++
      (signText signChar ++ body s base u zeros after)) := by
  have eight : 8 ≤ base := by omega
  have fits : u < base ^ maxBuf := calc
    u < 2 ^ 64 := bound
    _ ≤ 8 ^ maxBuf := by norm_num [maxBuf]
    _ ≤ base ^ maxBuf := Nat.pow_le_pow_left eight maxBuf
  obtain ⟨blanks, zeros, after, printed, -⟩ := printNum_eq (by omega) (by omega) fits
    (directive_known parsed).1
  refine ⟨blanks, zeros, after, printed.trans ?_⟩
  simp only [body, List.append_assoc]

/-- The text of an unsigned number. -/
theorem doprnt_unsigned (conversion : (c, base) ∈ unsignedConversions)
    (parsed : directive fmt args = .ok (s, [c], rest))
    (taken : numberArg s rest = .ok ((n, u), more)) :
    ∃ blanks zeros after, doprnt radix ('%'.toUInt8 :: fmt) args =
      .ok (List.replicate blanks ' '.toUInt8 ++ body s base u zeros after) := by
  obtain ⟨blanks, zeros, after, printed⟩ := @printNum_body base u s 0 fmt [c] args rest parsed
    (base_of_conversion (.inl conversion)) (numberArg_bound taken).1
  refine ⟨blanks, zeros, after, @doprnt_single c s radix fmt _ args rest more parsed ?_⟩
  rw [convert_unsigned conversion, printUnsigned, taken]
  dsimp only [bind, Except.bind]
  rw [printed]
  rfl

/-- The text of a signed number. -/
theorem doprnt_signed (conversion : (c, base) ∈ signedConversions)
    (parsed : directive fmt args = .ok (s, [c], rest))
    (taken : numberArg s rest = .ok ((n, u), more)) :
    ∃ blanks zeros after, doprnt radix ('%'.toUInt8 :: fmt) args =
      .ok (List.replicate blanks ' '.toUInt8 ++
        (signText (if n ≥ 0 then s.plusSign else '-'.toUInt8) ++
          body s base n.natAbs zeros after)) := by
  obtain ⟨blanks, zeros, after, printed⟩ := @printNum_body base n.natAbs s
    (if n ≥ 0 then s.plusSign else '-'.toUInt8) fmt [c] args rest parsed
    (base_of_conversion (.inr conversion)) (numberArg_bound taken).2
  refine ⟨blanks, zeros, after, @doprnt_single c s radix fmt _ args rest more parsed ?_⟩
  rw [convert_signed conversion, printSigned, taken]
  dsimp only [bind, Except.bind]
  rw [printed]
  rfl

/-- What `strtoul` makes of the text of an unsigned number. -/
theorem strtoul_doprnt (conversion : (c, base) ∈ unsignedConversions)
    (parsed : directive fmt args = .ok (s, [c], rest))
    (taken : numberArg s rest = .ok ((n, u), more)) (reads : ReadsBack s base b) :
    ∃ text after, doprnt radix ('%'.toUInt8 :: fmt) args = .ok text ∧
      strtoul text b = (UInt32.ofNat u, List.replicate after ' '.toUInt8) := by
  have bases := base_of_conversion (.inl conversion)
  obtain ⟨blanks, zeros, after, printed⟩ :=
    @doprnt_unsigned base u c s radix n fmt args rest more conversion parsed taken
  refine ⟨_, after, printed, ?_⟩
  have start : ∀ c ∈ (body s base u zeros after).head?, isspace c = false := fun c first =>
    (body_head (by omega) (by omega) c first).1
  rw [strtoul, dropWhile_blanks start]
  exact read_body bases reads

theorem strtoul_doprnt_hex : ∃ text after,
    doprnt 0 (chars "%#x") [.word 255] = .ok text ∧
      strtoul text 0 = (255, List.replicate after ' '.toUInt8) := by
  have conversion : ('x'.toUInt8, 16) ∈ unsignedConversions := by decide
  have parsed : directive (chars "#x") [.word 255] =
      .ok ({ Directive.init with altfmt := true }, ['x'.toUInt8], [.word 255]) := rfl
  exact strtoul_doprnt conversion parsed rfl (.inr ⟨rfl, rfl, by decide⟩)

/-! ### Signs -/

theorem strtol_of_unsigned {p : List UInt8}
    (start : ∀ c ∈ p.head?, isspace c = false ∧ c ≠ '-'.toUInt8) :
    strtol (List.replicate k ' '.toUInt8 ++ p) b =
      ((strtoulLoop (chooseBase (skipHex b p).1 (skipHex b p).2) (skipHex b p).2).1.toInt32,
        (strtoulLoop (chooseBase (skipHex b p).1 (skipHex b p).2) (skipHex b p).2).2) := by
  rw [strtol, dropWhile_blanks fun c first => (start c first).1]
  cases p with
  | nil => rfl
  | cons c p =>
    dsimp only
    rw [if_neg (start c rfl).2]
    rfl

theorem strtol_minus {p : List UInt8} :
    strtol (List.replicate k ' '.toUInt8 ++ '-'.toUInt8 :: p) b =
      ((-(strtoulLoop (chooseBase (skipHex b p).1 (skipHex b p).2) (skipHex b p).2).1).toInt32,
        (strtoulLoop (chooseBase (skipHex b p).1 (skipHex b p).2) (skipHex b p).2).2) := by
  have start : ∀ c ∈ ('-'.toUInt8 :: p).head?, isspace c = false := by
    intro c first
    obtain rfl : '-'.toUInt8 = c := by simpa using first
    decide
  rw [strtol, dropWhile_blanks start]
  dsimp only
  rw [if_pos rfl]
  rfl

/-- `strtol` stops at a `+`. -/
theorem strtol_plus {p : List UInt8} :
    strtol (List.replicate k ' '.toUInt8 ++ '+'.toUInt8 :: p) b = (0, '+'.toUInt8 :: p) := by
  rw [strtol_of_unsigned]
  · have whole : skipHex b ('+'.toUInt8 :: p) = (b, '+'.toUInt8 :: p) := by
      cases p with
      | nil => rfl
      | cons x p =>
        rw [skipHex, if_neg]
        rintro ⟨-, zero, -⟩
        revert zero
        decide
    have stop : digitOf (chooseBase b ('+'.toUInt8 :: p)) '+'.toUInt8 = none := by
      have zero : ¬ '0'.toUInt8 ≤ '+'.toUInt8 := by decide
      have a : ¬ 'a'.toUInt8 ≤ '+'.toUInt8 := by decide
      have capital : ¬ 'A'.toUInt8 ≤ '+'.toUInt8 := by decide
      simp [digitOf, zero, a, capital]
    rw [whole]
    dsimp only
    rw [strtoulLoop, scanDigits_stop]
    · rfl
    · intro c first
      obtain rfl : '+'.toUInt8 = c := by simpa using first
      exact stop
  · intro c first
    obtain rfl : '+'.toUInt8 = c := by simpa using first
    decide

/-- `strtol` reads back the text of a signed number, but for a `+` before a number that is not
negative. -/
theorem strtol_doprnt (conversion : (c, base) ∈ signedConversions)
    (parsed : directive fmt args = .ok (s, [c], rest))
    (taken : numberArg s rest = .ok ((n, u), more)) (reads : ReadsBack s base b) :
    ∃ text, doprnt radix ('%'.toUInt8 :: fmt) args = .ok text ∧
      ((∃ after, strtol text b = (Int32.ofInt n, List.replicate after ' '.toUInt8)) ↔
        ¬ (s.plusSign = '+'.toUInt8 ∧ 0 ≤ n)) := by
  have bases := base_of_conversion (.inr conversion)
  obtain ⟨blanks, zeros, after, printed⟩ :=
    @doprnt_signed base u c s radix n fmt args rest more conversion parsed taken
  refine ⟨_, printed, ?_⟩
  have read := @read_body base n.natAbs zeros s after bases b reads
  have start := @body_head base n.natAbs zeros s after (by omega) (by omega)
  rcases lt_or_ge n 0 with negative | nonneg
  · have value : -UInt32.ofNat n.natAbs = UInt32.ofInt n := by
      rw [← ofInt_natCast, ← UInt32.ofInt_neg]
      congr 1
      omega
    rw [if_neg (not_le.mpr negative)]
    refine iff_of_true ⟨after, ?_⟩ fun plus => absurd plus.2 (not_le.mpr negative)
    rw [signText, if_neg (by decide), List.singleton_append]
    refine strtol_minus.trans ?_
    rw [read, value, toInt32_ofInt]
  · have value : UInt32.ofNat n.natAbs = UInt32.ofInt n := by
      rw [← ofInt_natCast, Int.natAbs_of_nonneg nonneg]
    rw [if_pos nonneg]
    have unsigned (k : ℕ) : strtol (List.replicate k ' '.toUInt8 ++
        body s base n.natAbs zeros after) b =
        (Int32.ofInt n, List.replicate after ' '.toUInt8) := by
      rw [strtol_of_unsigned fun c first => ⟨(start c first).1, (start c first).2.1⟩, read, value,
        toInt32_ofInt]
    rcases (directive_known parsed).2 with none | blank | plus
    · rw [none]
      refine iff_of_true ⟨after, ?_⟩ fun plus => absurd plus.1 (by decide)
      exact unsigned blanks
    · rw [blank]
      refine iff_of_true ⟨after, ?_⟩ fun plus => absurd plus.1 (by decide)
      -- The blank for a sign is one more blank before the number.
      rw [signText, if_neg (by decide), ← List.append_assoc, ← List.replicate_succ']
      exact unsigned (blanks + 1)
    · rw [plus]
      refine iff_of_false ?_ fun exempt => exempt ⟨rfl, nonneg⟩
      rintro ⟨after', read_back⟩
      rw [signText, if_neg (by decide), List.singleton_append, strtol_plus] at read_back
      have rest : '+'.toUInt8 :: body s base n.natAbs zeros after =
          List.replicate after' ' '.toUInt8 := congrArg Prod.snd read_back
      have first : '+'.toUInt8 ∈ List.replicate after' ' '.toUInt8 := by
        rw [← rest]
        exact List.mem_cons_self
      have differ : '+'.toUInt8 ≠ ' '.toUInt8 := by decide
      exact differ (List.eq_of_mem_replicate first)

theorem strtol_doprnt_minus : ∃ text after,
    doprnt 0 (chars "%+5d") [.word (-42)] = .ok text ∧
      strtol text 10 = (-42, List.replicate after ' '.toUInt8) := by
  have conversion : ('d'.toUInt8, 10) ∈ signedConversions := by decide
  have parsed : directive (chars "+5d") [.word (-42)] =
      .ok ({ Directive.init with plusSign := '+'.toUInt8, length := 5 }, ['d'.toUInt8],
        [.word (-42)]) := rfl
  have taken : numberArg { Directive.init with plusSign := '+'.toUInt8, length := 5 }
      [.word (-42)] = .ok ((-42, 4294967254), []) := rfl
  have reads : ReadsBack { Directive.init with plusSign := '+'.toUInt8, length := 5 } 10 10 :=
    .inl rfl
  obtain ⟨text, printed, reads_back⟩ := strtol_doprnt conversion parsed taken reads
  obtain ⟨after, value⟩ := reads_back.mpr (by decide)
  exact ⟨text, after, printed, value⟩

end Gravel
