import Gravel.Kernel.Io

/-!
# The memory that I/O calls touch

`read` and `write` check the first address of the buffer and the last one,
`buf + count - 1` in 32-bit arithmetic. A buffer that goes past the top of the
address space has a small last address, so the check lets it through.

## Main definitions

* `InRam`, `InFlash` — the two regions
* `ReadConfined`, `WriteConfined` — a call touches nothing else, and a request for
  more is refused before any access
* `Wraps` — the buffer goes past the top of the address space

## Main results

* `readConfined_iff`, `writeConfined_iff` — exactly the requests that wrap and pass
  the check are not confined
-/

namespace Gravel

def InRam (addr : UInt32) : Prop := Config.ramStartAddr ≤ addr ∧ addr ≤ Config.ramEndAddr

def InFlash (addr : UInt32) : Prop := Config.flashStartAddr ≤ addr ∧ addr ≤ Config.flashEndAddr

instance (addr : UInt32) : Decidable (InRam addr) := inferInstanceAs (Decidable (_ ∧ _))

instance (addr : UInt32) : Decidable (InFlash addr) := inferInstanceAs (Decidable (_ ∧ _))

/-- Every store is in RAM, and a request for more is refused. -/
def ReadConfined (fd : ℤ) (buf count : UInt32) : Prop :=
  ∀ input, (∀ store ∈ (readSyscall fd buf count input).stores, InRam store.1) ∧
    ((∃ k < count, ¬ InRam (buf + k)) →
      readSyscall fd buf count input = .ret (-Config.efault) input ∨
        readSyscall fd buf count input = .ret (-Config.ebadf) input)

/-- Every load is from RAM or flash, and a request for more is refused. -/
def WriteConfined (fd : ℤ) (buf count : UInt32) : Prop :=
  ∀ mem, (∀ addr ∈ (writeSyscall mem fd buf count).loads, InRam addr ∨ InFlash addr) ∧
    ((∃ k < count, ¬ (InRam (buf + k) ∨ InFlash (buf + k))) →
      writeSyscall mem fd buf count = { loads := [], echo := [], result := -Config.efault } ∨
        writeSyscall mem fd buf count = { loads := [], echo := [], result := -Config.ebadf })

/-- The buffer goes past the top of the address space. -/
def Wraps (buf count : UInt32) : Prop := 2 ^ 32 < buf.toNat + count.toNat

variable {fd : ℤ} {buf count offset k : UInt32} {c : UInt8} {input rest : List UInt8}

/-! ### The addresses the loops reach -/

/-- The input loop stores at offsets below `count` only. -/
theorem readLoop_stores (bound : offset ≤ count) :
    ∀ store ∈ (readLoop buf count input offset).stores, ∃ k < count, store.1 = buf + k := by
  induction input generalizing offset with
  | nil =>
    unfold readLoop
    split <;> simp
  | cons c rest ih =>
    by_cases full : offset = count
    · subst full
      simp [readLoop_full]
    · have inside : offset < count := UInt32.lt_of_le_of_ne bound full
      rcases ordinary_or_control c with rfl | erase | newline | ordinary
      · simp [readLoop_eot full]
      · rw [readLoop_erase full erase]
        split
        · exact ih (by grind)
        · exact ih bound
      · rw [readLoop_newline full newline]
        simpa using inside
      · rw [readLoop_ordinary full ordinary, stores_puts, stores_store, List.forall_mem_cons]
        exact ⟨⟨offset, inside, rfl⟩, ih (by grind)⟩

/-- The output loop loads at offsets below `count` only. -/
theorem writeLoop_loads {rounds : ℕ} {nwritten : UInt32}
    (bound : nwritten.toNat + rounds = count.toNat) :
    ∀ addr ∈ writeLoop buf rounds nwritten, ∃ k < count, addr = buf + k := by
  induction rounds generalizing nwritten with
  | zero => simp [writeLoop]
  | succ rounds ih =>
    rw [writeLoop, List.forall_mem_cons]
    have inside : nwritten < count := by
      rw [UInt32.lt_iff_toNat_lt]
      omega
    refine ⟨⟨nwritten, inside, rfl⟩, ih ?_⟩
    have := count.toNat_lt
    rw [UInt32.toNat_add, UInt32.toNat_one]
    omega

/-! ### The check -/

theorem last_toNat (some_byte : 0 < count) (fits : ¬ Wraps buf count) :
    (buf + count - 1).toNat = buf.toNat + count.toNat - 1 := by
  unfold Wraps at fits
  rw [UInt32.lt_iff_toNat_lt] at some_byte
  rw [UInt32.toNat_sub, UInt32.toNat_add, UInt32.toNat_one]
  have : (0 : UInt32).toNat = 0 := rfl
  omega

theorem offset_toNat (inside : k < count) (fits : ¬ Wraps buf count) :
    (buf + k).toNat = buf.toNat + k.toNat := by
  unfold Wraps at fits
  rw [UInt32.lt_iff_toNat_lt] at inside
  rw [UInt32.toNat_add]
  omega

/-- Without a wrap the last address bounds the others. -/
theorem offset_le_last (inside : k < count) (fits : ¬ Wraps buf count) :
    buf ≤ buf + k ∧ buf + k ≤ buf + count - 1 := by
  have some_byte : 0 < count := UInt32.lt_of_le_of_lt (UInt32.zero_le) inside
  rw [UInt32.le_iff_toNat_le, UInt32.le_iff_toNat_le, last_toNat some_byte fits,
    offset_toNat inside fits]
  rw [UInt32.lt_iff_toNat_lt] at inside
  omega

/-- A buffer that wraps has the top address, which is in neither region. -/
theorem exists_outside_of_wraps (wraps : Wraps buf count) :
    ∃ k < count, ¬ (InRam (buf + k) ∨ InFlash (buf + k)) := by
  refine ⟨0xffffffff - buf, ?_, ?_⟩
  · unfold Wraps at wraps
    rw [UInt32.lt_iff_toNat_lt, UInt32.toNat_sub]
    have := buf.toNat_lt
    have := count.toNat_lt
    have : (0xffffffff : UInt32).toNat = 4294967295 := rfl
    omega
  · have top : buf + (0xffffffff - buf) = 0xffffffff := by grind
    rw [top]
    decide

/-! ### Confined requests -/

theorem readConfined_iff : ReadConfined fd buf count ↔
    ¬ (fd = Config.stdinFileno ∧ Wraps buf count ∧ Config.ramStartAddr ≤ buf ∧
      buf + count - 1 ≤ Config.ramEndAddr) := by
  constructor
  · -- A request that wraps and passes the check waits for its first character.
    rintro confined ⟨rfl, wraps, low, high⟩
    obtain ⟨k, inside, outside⟩ := exists_outside_of_wraps wraps
    have refused := (confined []).2 ⟨k, inside, fun inRam => outside (Or.inl inRam)⟩
    have room : (0 : UInt32) ≠ count := by
      rintro rfl
      exact UInt32.not_lt_zero inside
    have passes : ¬ (buf < Config.ramStartAddr ∨ buf + count - 1 > Config.ramEndAddr) := by
      rw [not_or, UInt32.not_lt, gt_iff_lt, UInt32.not_lt]
      exact ⟨low, high⟩
    simp [readSyscall, passes, readLoop, room, Reading.ret] at refused
  · intro harmless input
    unfold readSyscall
    split
    · exact ⟨by simp, fun _ => Or.inr rfl⟩
    · rename_i stdin
      split
      · exact ⟨by simp, fun _ => Or.inl rfl⟩
      · rename_i passes
        rw [not_or, UInt32.not_lt, gt_iff_lt, UInt32.not_lt] at passes
        have fits : ¬ Wraps buf count := fun wraps =>
          harmless ⟨not_not.mp stdin, wraps, passes.1, passes.2⟩
        have inRam : ∀ k < count, InRam (buf + k) := by
          intro k inside
          obtain ⟨above, below⟩ := offset_le_last inside fits
          exact ⟨UInt32.le_trans passes.1 above, UInt32.le_trans below passes.2⟩
        constructor
        · intro store member
          obtain ⟨k, inside, same⟩ := readLoop_stores UInt32.zero_le store member
          rw [same]
          exact inRam k inside
        · rintro ⟨k, inside, outside⟩
          exact absurd (inRam k inside) outside

theorem writeConfined_iff : WriteConfined fd buf count ↔
    ¬ (fd = Config.stdoutFileno ∧ Wraps buf count ∧
      (buf + count - 1 ≤ Config.flashEndAddr ∨
        Config.ramStartAddr ≤ buf ∧ buf + count - 1 ≤ Config.ramEndAddr)) := by
  have check : (buf < Config.ramStartAddr ∨ buf + count - 1 > Config.ramEndAddr) ∧
      buf + count - 1 > Config.flashEndAddr ↔
      ¬ (buf + count - 1 ≤ Config.flashEndAddr ∨
        Config.ramStartAddr ≤ buf ∧ buf + count - 1 ≤ Config.ramEndAddr) := by
    rw [not_or, not_and_or, UInt32.not_le, UInt32.not_le, UInt32.not_le, and_comm]
  constructor
  · rintro confined ⟨rfl, wraps, passes⟩
    have outside := exists_outside_of_wraps wraps
    have refused := (confined fun _ => 0).2 outside
    obtain ⟨k, inside, -⟩ := outside
    obtain ⟨rounds, some_round⟩ := Nat.exists_eq_add_one_of_ne_zero
      (Nat.ne_zero_of_lt (UInt32.lt_iff_toNat_lt.mp inside))
    rw [writeSyscall, if_neg (check.not.mpr (not_not.mpr passes))] at refused
    simp [some_round, writeLoop] at refused
  · intro harmless mem
    unfold writeSyscall
    split
    · exact ⟨by simp, fun _ => Or.inl rfl⟩
    · rename_i passes
      rw [check, not_not] at passes
      split
      · exact ⟨by simp, fun _ => Or.inr rfl⟩
      · rename_i stdout
        have fits : ¬ Wraps buf count := fun wraps =>
          harmless ⟨not_not.mp stdout, wraps, passes⟩
        have inside_regions : ∀ k < count, InRam (buf + k) ∨ InFlash (buf + k) := by
          intro k inside
          obtain ⟨above, below⟩ := offset_le_last inside fits
          rcases passes with flash | ⟨low, high⟩
          · exact Or.inr ⟨UInt32.zero_le, UInt32.le_trans below flash⟩
          · exact Or.inl ⟨UInt32.le_trans low above, UInt32.le_trans below high⟩
        constructor
        · intro addr member
          have start : (0 : UInt32).toNat + count.toNat = count.toNat := Nat.zero_add _
          obtain ⟨k, inside, rfl⟩ := writeLoop_loads start addr member
          exact inside_regions k inside
        · rintro ⟨k, inside, outside⟩
          exact absurd (inside_regions k inside) outside

/-- The I/O calls of one request touch only the memory they check exactly when the request
does not wrap past the check. -/
theorem ioConfined_iff : ReadConfined fd buf count ∧ WriteConfined fd buf count ↔
    ¬ (Wraps buf count ∧
      (fd = Config.stdinFileno ∧ Config.ramStartAddr ≤ buf ∧
          buf + count - 1 ≤ Config.ramEndAddr ∨
        fd = Config.stdoutFileno ∧ (buf + count - 1 ≤ Config.flashEndAddr ∨
          Config.ramStartAddr ≤ buf ∧ buf + count - 1 ≤ Config.ramEndAddr))) := by
  rw [readConfined_iff, writeConfined_iff]
  tauto

/-- A buffer of 32 bytes at the top of the address space is let through: the first
character is stored outside RAM, and the last word in front of address 0 is loaded. -/
theorem io_leaves_ram :
    (∃ store ∈ (readSyscall Config.stdinFileno 0xfffffff0 32 [97]).stores, ¬ InRam store.1) ∧
    ∃ addr ∈ (writeSyscall (fun _ => 0) Config.stdoutFileno 0xfffffff0 32).loads,
      ¬ (InRam addr ∨ InFlash addr) := by
  decide

end Gravel
