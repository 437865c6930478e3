import Gravel.Library.Arm
import Mathlib.Logic.Relation

/-!
# ARM programs with branches

A program is a list of instructions at consecutive words from a base address. A conditional
branch reads the flags, which a comparison leaves in the upper bits of the status register, and
names its target by the index of an instruction. A program stops where it transfers control to
other code: at an address outside the list, or at a system call.

## Main definitions

* `Op`, `Op.exec` — the instructions
* `step`, `Reaches` — the execution of a program
* `At` — the instruction that comes next

## Main results

* `Reaches.head`, `Reaches.straight` — the execution of one instruction, and of several
* `Reaches.loop` — a loop and its invariant
* `isNeg_compare`, `isLess_compare` — what the conditional branches see
-/

namespace Gravel.Library.Arm

/-- The instructions of a program. -/
inductive Op
  | instr (i : Instr)
  | movImm (d : Reg) (imm : Word)
  | orr (d n : Reg) (imm : Word)
  /-- `rsb d, n, #imm`; with 0 it is `neg d, n`. -/
  | rsb (d n : Reg) (imm : Word)
  | cmp (n : Reg) (imm : Word)
  | subs (d n : Reg) (imm : Word)
  /-- `ldr d, [n, i, lsl #2]` -/
  | ldrIndexed (d n i : Reg)
  | b (target : ℕ)
  | bpl (target : ℕ)
  | blt (target : ℕ)
  | bl (address : Word)
  | movPc (n : Reg)
  /-- `ldr pc, =address` -/
  | ldrPc (address : Word)
  | swi

namespace State

variable {s : State} {x y : Word}

/-- The flags N, Z, C and V of `x - y`, in the upper bits. -/
def compare (s : State) (x y : Word) : State :=
  let flags : BitVec 4 := BitVec.ofBool (x - y).msb ++ BitVec.ofBool (x == y) ++
    BitVec.ofBool (y ≤ x) ++ BitVec.ofBool (BitVec.ssubOverflow x y)
  { s with cpsr := flags ++ s.cpsr.setWidth 28 }

/-- The N flag. -/
def isNeg (s : State) : Bool := s.cpsr.getLsbD 31

/-- The N flag and the V flag differ. -/
def isLess (s : State) : Bool := s.cpsr.getLsbD 31 != s.cpsr.getLsbD 28

end State

/-- Execute an instruction of the program at the base address. A `swi` is not executed here. -/
def Op.exec (base : Word) (op : Op) (s : State) : State :=
  let goTo (target : ℕ) : State := { s with pc := base + BitVec.ofNat 32 (4 * target) }
  match op with
  | .instr i => i.exec s
  | .movImm d imm => (s.setReg s.bank d imm).next
  | .orr d n imm => (s.setReg s.bank d (s.reg s.bank n ||| imm)).next
  | .rsb d n imm => (s.setReg s.bank d (imm - s.reg s.bank n)).next
  | .cmp n imm => (s.compare (s.reg s.bank n) imm).next
  | .subs d n imm =>
    ((s.compare (s.reg s.bank n) imm).setReg s.bank d (s.reg s.bank n - imm)).next
  | .ldrIndexed d n i =>
    (s.setReg s.bank d (s.mem (s.reg s.bank n + 4 * s.reg s.bank i))).next
  | .b target => goTo target
  | .bpl target => if s.isNeg then s.next else goTo target
  | .blt target => if s.isLess then goTo target else s.next
  | .bl address =>
    { s with lr := Function.update s.lr s.bank (s.pc + 4), pc := address }
  | .movPc n => { s with pc := s.reg s.bank n }
  | .ldrPc address => { s with pc := address }
  | .swi => s

/-- The instruction goes on to the next one. -/
def Op.plain : Op → Bool
  | .instr (.ldmfdReturn _ _) | .instr .movPcLr | .instr .movsPcLr | .instr (.bl _) => false
  | .b _ | .bpl _ | .blt _ | .bl _ | .movPc _ | .ldrPc _ | .swi => false
  | _ => true

variable {base a : Word} {p : List Op} {op : Op} {s t u : State} {i j : ℕ} {x y : Word}

/-! ### The next instruction -/

@[simp] theorem State.setReg_pc {b : Bank} {q : Reg} : (s.setReg b q x).pc = s.pc := by
  cases q <;> rfl

@[simp] theorem State.loadRegs_pc {b : Bank} {regs : List Reg} :
    (s.loadRegs b a regs).pc = s.pc := by
  induction regs generalizing s a with
  | nil => rfl
  | cons q regs ih => rw [State.loadRegs, ih, State.setReg_pc]

theorem Op.exec_pc (plain : op.plain = true) : (op.exec base s).pc = s.pc + 4 := by
  cases op with
  | instr i =>
    cases i with
    | stmfd n writeBack regs => cases writeBack <;> simp [Op.exec, Instr.exec, State.next]
    | ldmfd n writeBack regs => cases writeBack <;> simp [Op.exec, Instr.exec, State.next]
    | _ => simp_all [Op.exec, Instr.exec, State.next, Op.plain]
  | _ => simp_all [Op.exec, State.next, State.compare, Op.plain]

/-! ### Execution -/

/-- The index of the instruction that comes next. -/
def indexOf (base : Word) (s : State) : ℕ := (s.pc - base).toNat / 4

/-- One instruction. -/
def step (base : Word) (p : List Op) (s : State) : Option State :=
  match p[indexOf base s]? with
  | none | some .swi => none
  | some op => some (op.exec base s)

/-- The program leads from the first state to the second. -/
def Reaches (base : Word) (p : List Op) : State → State → Prop :=
  Relation.ReflTransGen fun s t => step base p s = some t

/-- The instruction with the index comes next. -/
def At (base : Word) (i : ℕ) (s : State) : Prop := s.pc = base + BitVec.ofNat 32 (4 * i)

theorem At.indexOf (at_i : At base i s) (small : 4 * i < 2 ^ 32) : indexOf base s = i := by
  have offset : base + BitVec.ofNat 32 (4 * i) - base = BitVec.ofNat 32 (4 * i) := by bv_omega
  rw [Arm.indexOf, at_i, offset, BitVec.toNat_ofNat, Nat.mod_eq_of_lt small,
    Nat.mul_div_cancel_left i (by decide)]

/-- Most instructions go on to the next one. -/
theorem At.succ (at_i : At base i s) (next : t.pc = s.pc + 4) : At base (i + 1) t := by
  unfold At
  rw [next, at_i]
  bv_omega

/-- The execution of one instruction. -/
theorem Reaches.head (at_i : At base i s) (small : 4 * i < 2 ^ 32) (own : p[i]? = some op)
    (code : op ≠ .swi) (rest : Reaches base p (op.exec base s) t) : Reaches base p s t := by
  refine Relation.ReflTransGen.head ?_ rest
  unfold step
  rw [at_i.indexOf small, own]
  cases op <;> simp_all

/-- The execution of instructions that do not branch. -/
theorem Reaches.straight {ops rest : List Op} (at_i : At base i s)
    (small : 4 * (i + ops.length) ≤ 2 ^ 32) (own : p.drop i = ops ++ rest)
    (plain : ops.all Op.plain = true) :
    Reaches base p s (ops.foldl (fun s op => op.exec base s) s) ∧
      At base (i + ops.length) (ops.foldl (fun s op => op.exec base s) s) := by
  induction ops generalizing i s with
  | nil => exact ⟨.refl, at_i⟩
  | cons op ops ih =>
    rw [List.length_cons] at small
    obtain ⟨first, plain⟩ := Bool.and_eq_true_iff.mp plain
    have code : op ≠ .swi := by
      rintro rfl
      simp [Op.plain] at first
    have here : p[i]? = some op := by
      have head := congrArg (fun l => l[0]?) own
      simpa using head
    have after : p.drop (i + 1) = ops ++ rest := by
      have tail := congrArg List.tail own
      simpa using tail
    obtain ⟨reached, at_end⟩ := ih (at_i.succ (Op.exec_pc first)) (by omega) after plain
    refine ⟨.head at_i (by omega) here code reached, ?_⟩
    rw [List.length_cons, Nat.add_comm ops.length, ← Nat.add_assoc]
    exact at_end

theorem Reaches.trans (first : Reaches base p s t) (second : Reaches base p t u) :
    Reaches base p s u :=
  Relation.ReflTransGen.trans first second

/-- A loop that counts down. -/
theorem Reaches.loop {I : ℕ → State → Prop}
    (body : ∀ j s, I (j + 1) s → ∃ t, Reaches base p s t ∧ I j t) (inv : I j s) :
    ∃ t, Reaches base p s t ∧ I 0 t := by
  induction j generalizing s with
  | zero => exact ⟨s, .refl, inv⟩
  | succ j ih =>
    obtain ⟨t, first, inv⟩ := body j s inv
    obtain ⟨u, rest, inv⟩ := ih inv
    exact ⟨u, first.trans rest, inv⟩

/-! ### The flags -/

theorem State.compare_bank : (s.compare x y).bank = s.bank := by
  have bits : (s.compare x y).cpsr &&& 0x1f = s.cpsr &&& 0x1f := by
    ext i h
    simp only [State.compare, BitVec.getElem_and, BitVec.getElem_append, BitVec.getElem_setWidth]
    by_cases low : i < 28
    · simp [low, BitVec.getLsbD_eq_getElem h]
    · have high : ∀ j : Fin 32, 28 ≤ j.val → BitVec.getLsbD (0x1f : Word) j = false := by decide
      have clear : (0x1f : Word)[i] = false := high ⟨i, h⟩ (not_lt.mp low)
      simp only [clear, Bool.and_false]
  rw [State.bank, bankOf, bits, ← bankOf, State.bank]

/-- Comparisons leave the bits under the flags alone. -/
theorem State.compare_getLsbD (low : i < 28) :
    (s.compare x y).cpsr.getLsbD i = s.cpsr.getLsbD i := by
  simp only [State.compare, BitVec.getLsbD_append, BitVec.getLsbD_setWidth, low, decide_true,
    if_true, Bool.true_and]

theorem State.isNeg_compare : (s.compare x y).isNeg = (x - y).msb := by
  simp only [State.isNeg, State.compare, BitVec.getLsbD_append]
  simp

/-- The flags differ exactly when the signed difference is negative. -/
theorem State.isLess_compare : (s.compare x y).isLess = x.slt y := by
  have less : x.slt y = ((x - y).msb != BitVec.ssubOverflow x y) := by
    rw [BitVec.slt, BitVec.msb_eq_toInt, BitVec.toInt_sub, BitVec.ssubOverflow, Int.bmod]
    have := x.toInt_lt
    have := x.le_toInt
    have := y.toInt_lt
    have := y.le_toInt
    grind
  rw [less]
  simp only [State.isLess, State.compare, BitVec.getLsbD_append]
  simp

end Gravel.Library.Arm
