import Gravel.Libc.Strtol
import Mathlib.Data.List.DropRight

/-!
# `sscanf`

`_doscan` on a text, the bytes of a string up to its null byte. Like the conversions of `strtol`
its numbers wrap around. A read past the end of the text or of the format has no defined result.

## Main definitions

* `Stored` — what is stored through a pointer
* `doscan` — how many values were read, and the stores
* `Field` — a conversion, and what separates its number from the next one

## Main results

* `doscan_doprnt` — the numbers that a format prints are read back by the same format
-/

namespace Gravel

open Library

inductive Stored
  | int (n : Int32)
  | str (s : List UInt8)
  deriving DecidableEq, Repr

/-- The cases `d` and `x`, which read the digits that `strtoul` reads. -/
def scanNumber (base : ℤ) (text : List UInt8) : Int32 × List UInt8 :=
  let (neg, text) :=
    match text with
    | [] => (false, text)
    | c :: rest => if c = '-'.toUInt8 then (true, rest) else (false, text)
  let (n, rest) := strtoulLoop base text
  ((if neg then -n else n).toInt32, rest)

/-- A conversion counts unless it is discarded. -/
def tally (discard : Bool) (stored : List Stored) (r : ℕ × List Stored) : ℕ × List Stored :=
  if discard then r else (r.1 + 1, stored ++ r.2)

theorem length_of_dropWhile {p : UInt8 → Bool} {fmt rest : List UInt8} {c : UInt8}
    (stars : fmt.dropWhile p = c :: rest) : rest.length < fmt.length := by
  have shorter := List.length_dropWhile_le p fmt
  rwa [stars, List.length_cons] at shorter

def doscan (fmt text : List UInt8) : Except Undefined (ℕ × List Stored) :=
  match fmt with
  | [] => .ok (0, [])
  | c :: fmt =>
    if c ≠ '%'.toUInt8 then
      if isspace c then doscan fmt (text.dropWhile isspace)
      else
        match text with
        | [] => .ok (0, [])
        | d :: rest => if c = d then doscan fmt rest else .ok (0, [])
    else
      let discard : Bool := fmt.head? = some '*'.toUInt8
      match _stars : fmt.dropWhile (· = '*'.toUInt8) with
      -- The null byte of the format is taken for a conversion, and passed.
      | [] => .error .pastEnd
      | c :: fmt =>
        match Char.ofUInt8 c with
        | 'd' => do
          let (n, rest) := scanNumber 10 text
          return tally discard [.int n] (← doscan fmt rest)
        | 'x' => do
          let (n, rest) := scanNumber 16 text
          return tally discard [.int n] (← doscan fmt rest)
        | 's' =>
          -- The loop stops at a space only.
          if text.any isspace then do
            return tally discard [.str (text.takeWhile (!isspace ·))]
              (← doscan fmt (text.dropWhile (!isspace ·)))
          else .error .pastEnd
        | _ => do return tally discard [] (← doscan fmt text)
termination_by fmt.length
decreasing_by
  · simp
  · simp
  all_goals exact Nat.lt_succ_of_lt (length_of_dropWhile _stars)

variable {base u : ℕ} {c : UInt8} {w : UInt32} {fmt text rest lit : List UInt8} {args : List Arg}

/-! ### Directives -/

theorem doscan_nil : doscan [] text = .ok (0, []) := by
  rw [doscan]

theorem doscan_space (space : isspace c = true) :
    doscan (c :: fmt) text = doscan fmt (text.dropWhile isspace) := by
  have other : c ≠ '%'.toUInt8 := by
    rintro rfl
    revert space
    decide
  rw [doscan.eq_def]
  dsimp only
  rw [if_pos other, if_pos space]

theorem doscan_match (plain : c ≠ '%'.toUInt8) (visible : isspace c = false) :
    doscan (c :: fmt) (c :: text) = doscan fmt text := by
  rw [doscan.eq_def]
  dsimp only
  rw [if_pos plain, visible, if_neg Bool.false_ne_true, if_pos rfl]

/-- A space in the format skips all spaces of the text, so the induction needs the same of a text
whose spaces have been skipped. -/
theorem doscan_literal (plain : '%'.toUInt8 ∉ lit) (start : ∀ c ∈ text.head?, isspace c = false) :
    doscan (lit ++ fmt) (lit ++ text) = doscan fmt text ∧
      doscan (lit ++ fmt) ((lit ++ text).dropWhile isspace) = doscan fmt text := by
  induction lit with
  | nil =>
    refine ⟨rfl, ?_⟩
    rw [List.nil_append, List.nil_append]
    cases text with
    | nil => rfl
    | cons c text => rw [List.dropWhile_cons, start c rfl]; rfl
  | cons c lit ih =>
    rw [List.mem_cons, not_or] at plain
    obtain ⟨kept, skipped⟩ := ih plain.2
    cases space : isspace c with
    | true =>
      have drop : (c :: lit ++ text).dropWhile isspace = (lit ++ text).dropWhile isspace := by
        rw [List.cons_append, List.dropWhile_cons, space]
        rfl
      show doscan (c :: (lit ++ fmt)) _ = _ ∧ doscan (c :: (lit ++ fmt)) _ = _
      rw [doscan_space space, doscan_space space, drop, List.dropWhile_idempotent]
      exact ⟨skipped, skipped⟩
    | false =>
      have drop : (c :: lit ++ text).dropWhile isspace = c :: lit ++ text := by
        rw [List.cons_append, List.dropWhile_cons, space]
        rfl
      rw [drop, List.cons_append, List.cons_append, doscan_match (Ne.symm plain.1) space]
      exact ⟨kept, kept⟩

/-- The conversions that read numbers, with their bases. -/
def numberConversions : List (UInt8 × ℕ) := [('d'.toUInt8, 10), ('x'.toUInt8, 16)]

theorem eq_of_mem_numberConversions (known : (c, base) ∈ numberConversions) :
    c = 'd'.toUInt8 ∧ base = 10 ∨ c = 'x'.toUInt8 ∧ base = 16 := by
  simpa [numberConversions] using known

theorem doscan_number (known : (c, base) ∈ numberConversions) :
    doscan ('%'.toUInt8 :: c :: fmt) text =
      (doscan fmt (scanNumber base text).2).map
        (tally false [.int (scanNumber base text).1]) := by
  rcases eq_of_mem_numberConversions known with ⟨rfl, rfl⟩ | ⟨rfl, rfl⟩
  · rw [doscan.eq_def]
    rfl
  · rw [doscan.eq_def]
    rfl

/-! ### Numbers -/

/-- A number as it is printed without flags. -/
def plainNumber (base : ℕ) (minus : Bool) (u : ℕ) : List UInt8 :=
  (if minus then ['-'.toUInt8] else []) ++ (numeral base u).map digitChar

theorem head_digits (two : 1 < base) (sixteen : base ≤ 16) :
    ∀ c ∈ ((numeral base u).map digitChar ++ rest).head?,
      isspace c = false ∧ c ≠ '-'.toUInt8 := by
  intro c first
  have digits : (numeral base u).map digitChar ≠ [] := by simpa using numeral_ne_nil
  rw [List.head?_append_of_ne_nil _ digits] at first
  have member := List.mem_of_mem_head? first
  have checked := @body_chars base u 0 .init two sixteen c
    (List.mem_append_right _ member)
  exact ⟨checked.1, checked.2.1⟩

theorem scanNumber_plain (two : 1 < base) (sixteen : base ≤ 16) {minus : Bool}
    (stop : ∀ c ∈ rest.head?, digitOf base c = none) :
    scanNumber base (plainNumber base minus u ++ rest) =
      ((if minus then -UInt32.ofNat u else UInt32.ofNat u).toInt32, rest) := by
  have digits := @strtoulLoop_digits base u 0 rest two sixteen stop
  rw [List.replicate_zero, List.nil_append] at digits
  cases minus with
  | true =>
    rw [plainNumber, if_pos rfl, List.append_assoc, List.singleton_append, scanNumber]
    dsimp only
    rw [if_pos rfl]
    dsimp only
    rw [digits]
  | false =>
    have first := @head_digits base u rest two sixteen
    rw [plainNumber, if_neg Bool.false_ne_true, List.nil_append, scanNumber.eq_def]
    revert first digits
    cases (numeral base u).map digitChar ++ rest with
    | nil =>
      intro digits _
      dsimp only
      rw [digits]
    | cons c text =>
      intro digits first
      dsimp only
      rw [if_neg (first c rfl).2]
      dsimp only
      rw [digits]

/-- Nothing is padded without a width. -/
theorem printNum_plain (two : 1 < base) (sixteen : base ≤ 16) (fits : u < base ^ maxBuf) :
    printNum .init base c u = .ok (signText c ++ (numeral base u).map digitChar) := by
  obtain ⟨blanks, zeros, after, printed, total⟩ :=
    @printNum_eq base u .init c two sixteen fits (.inl rfl)
  have narrow : (blanks + zeros + after : ℤ) = 0 := by
    rw [total]
    have width : Directive.init.length = 0 := rfl
    omega
  obtain ⟨rfl, rfl, rfl⟩ : blanks = 0 ∧ zeros = 0 ∧ after = 0 := by omega
  have bare : numberPrefix .init base u = [] :=
    if_neg fun alternate => Bool.false_ne_true alternate.2
  rw [printed, bare]
  simp

/-- A word is printed as a number that has its value. -/
theorem convert_number (known : (c, base) ∈ numberConversions) :
    ∃ minus u, convert 0 .init c (.word w :: args) = .ok (plainNumber base minus u, args) ∧
      (if minus then -UInt32.ofNat u else UInt32.ofNat u) = w := by
  rcases eq_of_mem_numberConversions known with ⟨rfl, rfl⟩ | ⟨rfl, rfl⟩
  · have signed : convert 0 .init 'd'.toUInt8 (.word w :: args) =
        (printNum .init 10 (if w.toInt32.toInt ≥ 0 then 0 else '-'.toUInt8)
          w.toInt32.toInt.natAbs).map (·, args) := rfl
    have word : UInt32.ofInt w.toInt32.toInt = w := by
      have back := @toInt32_ofInt w.toInt32.toInt
      rw [Int32.ofInt_toInt] at back
      simpa using congrArg Int32.toUInt32 back
    have fits : w.toInt32.toInt.natAbs < 10 ^ maxBuf := by
      have low := w.toInt32.le_toInt
      have high := w.toInt32.toInt_lt
      have room : 2 ^ 31 < 10 ^ maxBuf := by norm_num [maxBuf]
      omega
    refine ⟨decide (w.toInt32.toInt < 0), w.toInt32.toInt.natAbs, ?_, ?_⟩
    · rw [signed, printNum_plain (by decide) (by decide) fits]
      rcases lt_or_ge w.toInt32.toInt 0 with negative | nonneg
      · rw [if_neg (not_le.mpr negative), decide_eq_true negative]
        rfl
      · rw [if_pos nonneg, decide_eq_false (not_lt.mpr nonneg)]
        rfl
    · rw [← ofInt_natCast, ← UInt32.ofInt_neg]
      refine Eq.trans ?_ word
      split_ifs with negative
      · congr 1
        rw [decide_eq_true_eq] at negative
        omega
      · congr 1
        rw [decide_eq_true_eq] at negative
        omega
  · have unsigned : convert 0 .init 'x'.toUInt8 (.word w :: args) =
        (printNum .init 16 0 w.toNat).map (·, args) := rfl
    have fits : w.toNat < 16 ^ maxBuf :=
      w.toNat_lt.trans (by norm_num [maxBuf])
    refine ⟨false, w.toNat, ?_, ?_⟩
    · rw [unsigned, printNum_plain (by decide) (by decide) fits]
      rfl
    · rw [if_neg Bool.false_ne_true, UInt32.ofNat_toNat]

/-! ### Formats -/

/-- A conversion and the text behind it, which ends its number. -/
structure Field where
  conv : UInt8
  base : ℕ
  sep : List UInt8
  known : (conv, base) ∈ numberConversions
  plain : '%'.toUInt8 ∉ sep
  stops : ∃ c, sep.head? = some c ∧ digitOf base c = none

def Field.format (f : Field) : List UInt8 := '%'.toUInt8 :: f.conv :: f.sep

/-- A format without flags. -/
theorem directive_plain (known : (c, base) ∈ numberConversions) :
    directive (c :: fmt) args = .ok (.init, c :: fmt, args) := by
  rcases eq_of_mem_numberConversions known with ⟨rfl, -⟩ | ⟨rfl, -⟩ <;> rfl

/-- One field: what it prints, and what it makes of that. -/
theorem Field.prints (f : Field) (printed : doprnt 0 fmt args = .ok text)
    (start : ∀ c ∈ text.head?, isspace c = false) :
    ∃ front, doprnt 0 (f.format ++ fmt) (.word w :: args) = .ok (front ++ text) ∧
      (∀ c ∈ (front ++ text).head?, isspace c = false) ∧
      doscan (f.format ++ fmt) (front ++ text) =
        (doscan fmt text).map (tally false [.int w.toInt32]) := by
  obtain ⟨conv, base, sep, known, plain, stop_char, head, stops⟩ := f
  obtain ⟨minus, u, converted, value⟩ := @convert_number base conv w args known
  have bases : 1 < base ∧ base ≤ 16 := by
    have := eq_of_mem_numberConversions known
    omega
  have stop : ∀ c ∈ (sep ++ text).head?, digitOf base c = none := by
    intro c first
    rw [List.head?_append, head] at first
    obtain rfl : stop_char = c := by simpa using first
    exact stops
  refine ⟨plainNumber base minus u ++ sep, ?_, ?_, ?_⟩
  · rw [Field.format, List.cons_append, List.cons_append,
      doprnt_directive (directive_plain known) converted, doprnt_literal plain, printed]
    simp [Except.map]
  · cases minus with
    | true =>
      intro c first
      obtain rfl : '-'.toUInt8 = c := by simpa [plainNumber] using first
      decide
    | false =>
      rw [plainNumber, if_neg Bool.false_ne_true, List.nil_append, List.append_assoc]
      exact fun c first => (head_digits bases.1 bases.2 c first).1
  · rw [List.append_assoc, Field.format, List.cons_append, List.cons_append, doscan_number known,
      scanNumber_plain bases.1 bases.2 stop, value, (doscan_literal plain start).1]

/-- Words that a format prints, as signed decimal or as hexadecimal numbers, are read back by the
same format. -/
theorem doscan_doprnt (fields : List (Field × UInt32)) :
    ∃ text, doprnt 0 (fields.flatMap (·.1.format)) (fields.map (.word ·.2)) = .ok text ∧
      doscan (fields.flatMap (·.1.format)) text =
        .ok (fields.length, fields.map (.int ·.2.toInt32)) := by
  -- By induction on the fields; the text behind a field begins with no space.
  have all : ∃ text, doprnt 0 (fields.flatMap (·.1.format)) (fields.map (.word ·.2)) = .ok text ∧
      (∀ c ∈ text.head?, isspace c = false) ∧ doscan (fields.flatMap (·.1.format)) text =
        .ok (fields.length, fields.map (.int ·.2.toInt32)) := by
    induction fields with
    | nil => exact ⟨[], doprnt_nil, by simp, doscan_nil⟩
    | cons field fields ih =>
      obtain ⟨text, printed, start, read⟩ := ih
      obtain ⟨front, more, first, step⟩ :=
        @Field.prints field.2 _ text _ field.1 printed start
      refine ⟨front ++ text, more, first, ?_⟩
      rw [List.flatMap_cons, step, read]
      rfl
  obtain ⟨text, printed, -, read⟩ := all
  exact ⟨text, printed, read⟩

theorem doscan_doprnt_two : ∃ text,
    doprnt 0 (chars "%d, %x\n") [.word (-5), .word 255] = .ok text ∧
      doscan (chars "%d, %x\n") text = .ok (2, [.int (-5), .int 255]) := by
  let decimal : Field :=
    { conv := 'd'.toUInt8
      base := 10
      sep := chars ", "
      known := by decide
      plain := by decide
      stops := ⟨','.toUInt8, rfl, by decide⟩ }
  let hexadecimal : Field :=
    { conv := 'x'.toUInt8
      base := 16
      sep := chars "\n"
      known := by decide
      plain := by decide
      stops := ⟨'\n'.toUInt8, rfl, by decide⟩ }
  exact doscan_doprnt [(decimal, -5), (hexadecimal, 255)]

end Gravel
