import Mathlib.Data.BitVec
import Mathlib.Logic.Function.Basic
import Mathlib.Data.List.Basic

/-!
# ARM code that handles exceptions

The instructions an exception handler is written with: loads and stores of several
registers, in the bank of the present mode or of user mode, and the status registers.
Every access is to an aligned word, so the memory is a map of words. Fast interrupts are
never taken, so r8 to r12 have one copy.

## Main definitions

* `Bank`, `State`, `Reg` — a processor with banked stack pointers and link registers
* `Instr`, `Instr.exec`
* `State.swi`, `State.irq` — the entry of an exception
* `State.Conforms` — what a callee promises its caller

## Main results

* `storeWords_word`, `storeWords_outside` — memory after a store of several registers
* `State.loadRegs_reg` — the registers after a load
-/

namespace Gravel.Library.Arm

abbrev Word := BitVec 32

/-- The modes that have their own stack pointer and link register. System mode has those of
user mode. -/
inductive Bank
  | user
  | fiq
  | irq
  | svc
  | abt
  | und
  deriving DecidableEq, Repr

/-- The bank that the mode bits of a status register select. -/
def bankOf (psr : Word) : Bank :=
  match (psr &&& 0x1f).toNat with
  | 0x11 => .fiq
  | 0x12 => .irq
  | 0x13 => .svc
  | 0x17 => .abt
  | 0x1b => .und
  | _ => .user

structure State where
  r : Fin 13 → Word
  sp : Bank → Word
  lr : Bank → Word
  spsr : Bank → Word
  pc : Word
  cpsr : Word
  mem : Word → Word

/-- So that r0 to r12 can be written as numbers. -/
instance neZero_thirteen : NeZero (13 : ℕ) := ⟨by decide⟩

inductive Reg
  | r (i : Fin 13)
  | sp
  | lr
  deriving DecidableEq, Repr

namespace State

/-- The bank of the present mode. -/
def bank (s : State) : Bank := bankOf s.cpsr

/-- Interrupts can be taken. -/
def Unmasked (s : State) : Prop := s.cpsr.getLsbD 7 = false

instance (s : State) : Decidable s.Unmasked := inferInstanceAs (Decidable (_ = false))

/-- A register, in the copy of the given bank. -/
def reg (s : State) (b : Bank) : Reg → Word
  | .r i => s.r i
  | .sp => s.sp b
  | .lr => s.lr b

def setReg (s : State) (b : Bank) (q : Reg) (v : Word) : State :=
  match q with
  | .r i => { s with r := Function.update s.r i v }
  | .sp => { s with sp := Function.update s.sp b v }
  | .lr => { s with lr := Function.update s.lr b v }

/-- Load the registers, in order, from the words at the address. -/
def loadRegs (s : State) (b : Bank) (a : Word) : List Reg → State
  | [] => s
  | q :: qs => (s.setReg b q (s.mem a)).loadRegs b (a + 4) qs

/-- On to the next instruction. -/
def next (s : State) : State := { s with pc := s.pc + 4 }

/-- The address of the instruction after this one; bit 5 is set in code of two bytes an
instruction. -/
def nextPc (s : State) : Word := if s.cpsr.getLsbD 5 then s.pc + 2 else s.pc + 4

/-- A software interrupt: its handler runs in supervisor mode, with interrupts disabled. -/
def swi (s : State) (handler : Word) : State :=
  { s with
    lr := Function.update s.lr .svc s.nextPc
    spsr := Function.update s.spsr .svc s.cpsr
    cpsr := (s.cpsr &&& ~~~0x3f) ||| 0x93
    pc := handler }

/-- An interrupt is taken before the instruction at `pc`. -/
def irq (s : State) (handler : Word) : State :=
  { s with
    lr := Function.update s.lr .irq (s.pc + 4)
    spsr := Function.update s.spsr .irq s.cpsr
    cpsr := (s.cpsr &&& ~~~0x3f) ||| 0x92
    pc := handler }

end State

/-- Store the words at consecutive addresses. -/
def storeWords (m : Word → Word) (a : Word) : List Word → Word → Word
  | [] => m
  | v :: vs => storeWords (Function.update m a v) (a + 4) vs

inductive Instr
  | add (d n : Reg) (imm : Word)
  | sub (d n : Reg) (imm : Word)
  | bic (d n : Reg) (imm : Word)
  | mov (d n : Reg)
  /-- `ldr d, =value` -/
  | ldrConst (d : Reg) (value : Word)
  | ldr (d n : Reg) (offset : Word)
  | str (d n : Reg) (offset : Word)
  | mrsCpsr (d : Reg)
  | mrsSpsr (d : Reg)
  | msrCpsr (n : Reg)
  /-- `msr cpsr_c, #imm`: the low byte. -/
  | msrCpsrC (imm : BitVec 8)
  | msrSpsr (n : Reg)
  /-- `stmfd n, {..}`; with `writeBack` it is `n!`. -/
  | stmfd (n : Reg) (writeBack : Bool) (regs : List Reg)
  | ldmfd (n : Reg) (writeBack : Bool) (regs : List Reg)
  /-- `stmfd n, {..}^`: the registers of user mode. -/
  | stmfdUser (n : Reg) (regs : List Reg)
  | ldmfdUser (n : Reg) (regs : List Reg)
  /-- `ldmfd n!, {.., pc}^`: return from an exception. -/
  | ldmfdReturn (n : Reg) (regs : List Reg)
  | stmia (n : Reg) (regs : List Reg)
  | ldmia (n : Reg) (regs : List Reg)
  | movPcLr
  | movsPcLr
  /-- A call, with what the callee does. -/
  | bl (callee : State → State)

/-- The bytes of several registers. -/
def sizeOfRegs (regs : List Reg) : Word := BitVec.ofNat 32 (4 * regs.length)

/-- Execute an instruction, in a mode other than user mode. A write of a whole status register
includes its reserved bits. -/
def Instr.exec (i : Instr) (s : State) : State :=
  match i with
  | .add d n imm => (s.setReg s.bank d (s.reg s.bank n + imm)).next
  | .sub d n imm => (s.setReg s.bank d (s.reg s.bank n - imm)).next
  | .bic d n imm => (s.setReg s.bank d (s.reg s.bank n &&& ~~~imm)).next
  | .mov d n => (s.setReg s.bank d (s.reg s.bank n)).next
  | .ldrConst d value => (s.setReg s.bank d value).next
  | .ldr d n offset => (s.setReg s.bank d (s.mem (s.reg s.bank n + offset))).next
  | .str d n offset =>
    { s with mem := Function.update s.mem (s.reg s.bank n + offset) (s.reg s.bank d) }.next
  | .mrsCpsr d => (s.setReg s.bank d s.cpsr).next
  | .mrsSpsr d => (s.setReg s.bank d (s.spsr s.bank)).next
  | .msrCpsr n => { s with cpsr := s.reg s.bank n }.next
  | .msrCpsrC imm => { s with cpsr := (s.cpsr &&& ~~~0xff) ||| imm.zeroExtend 32 }.next
  | .msrSpsr n => { s with spsr := Function.update s.spsr s.bank (s.reg s.bank n) }.next
  | .stmfd n writeBack regs =>
    let a := s.reg s.bank n - sizeOfRegs regs
    let s' := { s with mem := storeWords s.mem a (regs.map (s.reg s.bank)) }
    (if writeBack then s'.setReg s.bank n a else s').next
  | .ldmfd n writeBack regs =>
    let a := s.reg s.bank n
    let s' := if writeBack then s.setReg s.bank n (a + sizeOfRegs regs) else s
    (s'.loadRegs s.bank a regs).next
  | .stmfdUser n regs =>
    let a := s.reg s.bank n - sizeOfRegs regs
    { s with mem := storeWords s.mem a (regs.map (s.reg .user)) }.next
  | .ldmfdUser n regs => (s.loadRegs .user (s.reg s.bank n) regs).next
  | .ldmfdReturn n regs =>
    let a := s.reg s.bank n
    let s' := (s.setReg s.bank n (a + sizeOfRegs regs + 4)).loadRegs s.bank a regs
    { s' with cpsr := s.spsr s.bank, pc := s.mem (a + sizeOfRegs regs) }
  | .stmia n regs =>
    { s with mem := storeWords s.mem (s.reg s.bank n) (regs.map (s.reg s.bank)) }.next
  | .ldmia n regs => (s.loadRegs s.bank (s.reg s.bank n) regs).next
  | .movPcLr => { s with pc := s.lr s.bank }
  | .movsPcLr => { s with cpsr := s.spsr s.bank, pc := s.lr s.bank }
  | .bl callee => callee { s with lr := Function.update s.lr s.bank (s.pc + 4) }

/-- What the procedure call standard promises a caller: the callee returns, in the same mode,
with the stack pointer and r4 to r11 as they were. The first state is the one at its entry. -/
structure State.Conforms (s t : State) : Prop where
  bank : t.bank = s.bank
  sp : t.sp s.bank = s.sp s.bank
  saved : ∀ i : Fin 13, 4 ≤ i.val → i.val ≤ 11 → t.r i = s.r i
  pc : t.pc = s.lr s.bank

variable {s : State} {a x v : Word} {m : Word → Word} {b b' : Bank} {q q' : Reg}
  {regs : List Reg} {vs : List Word}

/-! ### Status registers -/

/-- Clearing bits other than the mode bits. -/
theorem bankOf_bic {psr imm : Word} (outside : ~~~imm &&& 0x1f = 0x1f) :
    bankOf (psr &&& ~~~imm) = bankOf psr := by
  rw [bankOf, BitVec.and_assoc, outside, bankOf]

/-- Writing all mode bits. -/
theorem bankOf_write {psr mask mode : Word} (inside : mask &&& 0x1f = 0) :
    bankOf (psr &&& mask ||| mode) = bankOf mode := by
  have bits : (psr &&& mask ||| mode) &&& 0x1f = mode &&& 0x1f := by
    ext i h
    have := congrArg (fun w : Word => w[i]) inside
    simp at this ⊢
    grind
  rw [bankOf, bits, bankOf]

theorem State.swi_bank (s : State) (handler : Word) : (s.swi handler).bank = .svc :=
  (bankOf_write (by decide)).trans (by decide)

/-- A handler is entered with interrupts disabled. -/
theorem State.swi_masked (s : State) (handler : Word) :
    (s.swi handler).cpsr.getLsbD 7 = true := by
  simp [State.swi]

/-! ### Memory -/

theorem storeWords_outside (fits : 4 * vs.length ≤ 2 ^ 32)
    (outside : 4 * vs.length ≤ (x - a).toNat) : storeWords m a vs x = m x := by
  induction vs generalizing m a with
  | nil => rfl
  | cons v vs ih =>
    simp only [List.length_cons] at fits outside
    have apart : x ≠ a := by
      rintro rfl
      simp at outside
    have rest : 4 * vs.length ≤ (x - (a + 4)).toNat := by bv_omega
    rw [storeWords, ih (by omega) rest, Function.update_of_ne apart]

theorem storeWords_word {k : ℕ} (fits : 4 * vs.length ≤ 2 ^ 32) (word : vs[k]? = some v)
    (own : x = a + BitVec.ofNat 32 (4 * k)) : storeWords m a vs x = v := by
  subst own
  induction vs generalizing m a k with
  | nil => simp at word
  | cons v' vs ih =>
    simp only [List.length_cons] at fits
    cases k with
    | zero =>
      obtain rfl : v' = v := by simpa using word
      have first : storeWords (Function.update m a v') (a + 4) vs a =
          Function.update m a v' a := by
        apply storeWords_outside (by omega)
        bv_omega
      simpa [storeWords] using first
    | succ k =>
      have shift : a + BitVec.ofNat 32 (4 * (k + 1)) = (a + 4) + BitVec.ofNat 32 (4 * k) := by
        bv_omega
      rw [storeWords, shift]
      exact ih (by omega) (by simpa using word)

/-! ### Registers -/

namespace State

@[simp] theorem setReg_mem : (s.setReg b q v).mem = s.mem := by cases q <;> rfl
@[simp] theorem setReg_cpsr : (s.setReg b q v).cpsr = s.cpsr := by cases q <;> rfl
@[simp] theorem setReg_spsr : (s.setReg b q v).spsr = s.spsr := by cases q <;> rfl
@[simp] theorem setReg_bank : (s.setReg b q v).bank = s.bank := by cases q <;> rfl

/-- The other registers, and the other copies, stay. -/
theorem setReg_reg : (s.setReg b q v).reg b' q' =
    if q' = q ∧ ((∃ i, q = .r i) ∨ b' = b) then v else s.reg b' q' := by
  cases q <;> cases q' <;> simp [setReg, reg, Function.update_apply]

@[simp] theorem loadRegs_mem : (s.loadRegs b a regs).mem = s.mem := by
  induction regs generalizing s a with
  | nil => rfl
  | cons q regs ih => rw [loadRegs, ih, setReg_mem]

@[simp] theorem loadRegs_cpsr : (s.loadRegs b a regs).cpsr = s.cpsr := by
  induction regs generalizing s a with
  | nil => rfl
  | cons q regs ih => rw [loadRegs, ih, setReg_cpsr]

@[simp] theorem loadRegs_spsr : (s.loadRegs b a regs).spsr = s.spsr := by
  induction regs generalizing s a with
  | nil => rfl
  | cons q regs ih => rw [loadRegs, ih, setReg_spsr]

@[simp] theorem loadRegs_bank : (s.loadRegs b a regs).bank = s.bank := by
  rw [bank, loadRegs_cpsr, bank]

/-- A register that is not in the list, or a copy of another bank. -/
theorem loadRegs_of_notMem (other : q ∉ regs) :
    (s.loadRegs b a regs).reg b' q = s.reg b' q := by
  induction regs generalizing s a with
  | nil => rfl
  | cons p regs ih =>
    obtain ⟨apart, rest⟩ := List.ne_and_not_mem_of_not_mem_cons other
    rw [loadRegs, ih rest, setReg_reg, if_neg fun both => apart both.1]

/-- The registers in the list have their words. -/
theorem loadRegs_reg {k : ℕ} (distinct : regs.Nodup) (own : regs[k]? = some q) :
    (s.loadRegs b a regs).reg b q = s.mem (a + BitVec.ofNat 32 (4 * k)) := by
  induction regs generalizing s a k with
  | nil => simp at own
  | cons p regs ih =>
    obtain ⟨fresh, distinct⟩ := List.nodup_cons.mp distinct
    cases k with
    | zero =>
      obtain rfl : p = q := by simpa using own
      rw [loadRegs, loadRegs_of_notMem fresh, setReg_reg]
      simp
    | succ k =>
      have shift : a + 4 + BitVec.ofNat 32 (4 * k) = a + BitVec.ofNat 32 (4 * (k + 1)) := by
        bv_omega
      rw [loadRegs, ih distinct (by simpa using own), setReg_mem, shift]

/-- Loading one bank leaves the stack pointers and link registers of the others. -/
theorem loadRegs_of_ne (other : b' ≠ b) :
    (s.loadRegs b a regs).sp b' = s.sp b' ∧ (s.loadRegs b a regs).lr b' = s.lr b' := by
  induction regs generalizing s a with
  | nil => exact ⟨rfl, rfl⟩
  | cons q regs ih =>
    rw [loadRegs, ih.1, ih.2]
    cases q <;> simp [setReg, other]

end State

/-! ### Pushing and popping registers -/

namespace Instr

variable {n : Reg} {writeBack : Bool}

theorem stmfd_mem : ((stmfd n writeBack regs).exec s).mem =
    storeWords s.mem (s.reg s.bank n - sizeOfRegs regs) (regs.map (s.reg s.bank)) := by
  cases writeBack with
  | false => rfl
  | true => exact State.setReg_mem

theorem push_sp : ((stmfd .sp true regs).exec s).sp =
    Function.update s.sp s.bank (s.sp s.bank - sizeOfRegs regs) := rfl

/-- The registers in the list come from the stack, in order. -/
theorem pop_reg {k : ℕ} (distinct : regs.Nodup) (own : regs[k]? = some q) :
    ((ldmfd .sp true regs).exec s).reg s.bank q =
      s.mem (s.sp s.bank + BitVec.ofNat 32 (4 * k)) :=
  State.loadRegs_reg distinct own

theorem pop_bank : ((ldmfd .sp true regs).exec s).bank = s.bank :=
  State.loadRegs_bank

theorem pop_spsr : ((ldmfd .sp true regs).exec s).spsr = s.spsr :=
  State.loadRegs_spsr

theorem pop_of_ne (other : b ≠ s.bank) : ((ldmfd .sp true regs).exec s).sp b = s.sp b ∧
    ((ldmfd .sp true regs).exec s).lr b = s.lr b := by
  refine ⟨(State.loadRegs_of_ne other).1.trans ?_, (State.loadRegs_of_ne other).2⟩
  exact Function.update_of_ne other _ _

/-! ### Returning from an exception -/

theorem ret_eq : ((ldmfdReturn .sp regs).exec s).reg b q =
    ((s.setReg s.bank .sp (s.sp s.bank + sizeOfRegs regs + 4)).loadRegs s.bank (s.sp s.bank)
      regs).reg b q := by
  cases q <;> rfl

theorem ret_reg {k : ℕ} (distinct : regs.Nodup) (own : regs[k]? = some q) :
    ((ldmfdReturn .sp regs).exec s).reg s.bank q =
      s.mem (s.sp s.bank + BitVec.ofNat 32 (4 * k)) := by
  rw [ret_eq, State.loadRegs_reg distinct own, State.setReg_mem]

theorem ret_of_notMem (other : q ∉ regs) : ((ldmfdReturn .sp regs).exec s).reg b q =
    if q = .sp ∧ b = s.bank then s.sp s.bank + sizeOfRegs regs + 4 else s.reg b q := by
  rw [ret_eq, State.loadRegs_of_notMem other, State.setReg_reg]
  simp

theorem ret_of_ne (other : b ≠ s.bank) : ((ldmfdReturn .sp regs).exec s).sp b = s.sp b ∧
    ((ldmfdReturn .sp regs).exec s).lr b = s.lr b := by
  refine ⟨(State.loadRegs_of_ne other).1.trans ?_, (State.loadRegs_of_ne other).2⟩
  exact Function.update_of_ne other _ _

theorem ret_mem : ((ldmfdReturn .sp regs).exec s).mem = s.mem :=
  State.loadRegs_mem

theorem ret_spsr : ((ldmfdReturn .sp regs).exec s).spsr = s.spsr :=
  State.loadRegs_spsr

end Instr

end Gravel.Library.Arm
