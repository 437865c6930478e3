import Gravel.Kernel.State
import Gravel.Library.Arm
import Gravel.Library.Interrupted

/-!
# System calls and the user's registers

`swi_handler`, with any interrupts before any of its instructions. It enables interrupts before
it has saved `spsr`, and an interrupt in supervisor mode overwrites that register; on the way
back the register is exposed again.

## Main definitions

* `swiHandler` — the instructions
* `Taken` — an interrupt in supervisor mode
* `Dispatches` — what is expected of `swi_dispatch`
* `Preserved` — what a program may expect of a system call
* `Harmless` — the schedules of interrupts that lose nothing

## Main results

* `triple_entry`, `triple_save`, `triple_dispatch`, `triple_return` — the pieces of the handler,
  interrupted anywhere
* `cpsr_of_return` — the last three instructions
* `swiHandler_ends` — what of the user comes back
* `swiHandler_preserves_iff` — when the user goes on with its own registers
-/

namespace Gravel

open Library Library.Arm

/-- `{r0-r12, lr}` -/
def allRegs : List Reg :=
  [.r 0, .r 1, .r 2, .r 3, .r 4, .r 5, .r 6, .r 7, .r 8, .r 9, .r 10, .r 11, .r 12, .lr]

/-- `swi_handler`, with the address of `global_data` and what `swi_dispatch` does. -/
def swiHandler (globalData : Word) (swiDispatch : State → State) : List Instr :=
  [ .sub .sp .sp 4,
    .stmfd .sp true allRegs,
    .ldrConst (.r 12) globalData,
    .ldr (.r 8) (.r 12) 0,
    .mrsCpsr (.r 3),
    .bic (.r 3) (.r 3) 0x80,
    .msrCpsr (.r 3),
    -- The spsr is saved with interrupts enabled.
    .mrsSpsr (.r 2),
    .str (.r 2) .sp 56,
    .mov (.r 1) .sp,
    .ldr (.r 0) .lr (-4),
    .bic (.r 0) (.r 0) 0xff000000,
    .stmfdUser .sp [.sp, .lr],
    .add .sp .sp (-8),
    .bl swiDispatch,
    .ldmfdUser .sp [.sp, .lr],
    .add .sp .sp 8,
    .ldr (.r 2) .sp 56,
    .msrSpsr (.r 2),
    .ldmfd .sp true allRegs,
    .add .sp .sp 4,
    .movsPcLr ]

/-- An interrupt in supervisor mode, with the stack up to `top`, and the state in which the
interrupted code goes on: the words below the stack pointer and `spsr` are lost. -/
structure Taken (top : Word) (s t : State) : Prop where
  unmasked : s.Unmasked
  r : t.r = s.r
  sp : t.sp .user = s.sp .user ∧ t.sp .svc = s.sp .svc
  lr : t.lr .user = s.lr .user ∧ t.lr .svc = s.lr .svc
  pc : t.pc = s.pc
  cpsr : t.cpsr = s.cpsr
  spsr : t.spsr .svc = s.cpsr
  stack : ∀ x, (x - s.sp .svc).toNat < (top - s.sp .svc).toNat → t.mem x = s.mem x

/-- What `swi_handler` relies on: `swi_dispatch` keeps to the procedure call standard, and in
the frame of its caller, whose stack was empty up to `top`, it writes the saved r0 only. -/
structure Dispatched (top : Word) (s t : State) : Prop extends s.Conforms t where
  frame : ∀ x, (x - s.sp .svc).toNat < (top - s.sp .svc).toNat → x ≠ s.r 1 → t.mem x = s.mem x

/-- `swi_dispatch` as `swi_handler` calls it, with the saved registers as its argument. -/
def Dispatches (top : Word) (swiDispatch : State → State) : Prop :=
  ∀ s : State, s.bank = .svc → s.sp .svc = top - 68 → s.r 1 = top - 60 →
    Dispatched top s (swiDispatch s)

/-- The user goes on after the `swi`, with its own registers. -/
structure Preserved (u s : State) : Prop where
  pc : s.pc = u.nextPc
  cpsr : s.cpsr = u.cpsr
  sp : s.sp .user = u.sp .user
  lr : s.lr .user = u.lr .user
  r : ∀ i, i ≠ 0 → s.r i = u.r i

/-- The interrupts before the `n`-th instruction. -/
def interruptsAt (w : List (List State)) (n : ℕ) : List State := w.getD n []

/-- The interrupts while `spsr` holds the status register of the user: before
`mrs r2, spsr`, and after `msr spsr, r2`. -/
def statusInterrupts (w : List (List State)) : List State :=
  interruptsAt w 7 ++ interruptsAt w 19 ++ interruptsAt w 20 ++ interruptsAt w 21

/-- No interrupt loses something of the user. -/
structure Harmless (top : Word) (w : List (List State)) : Prop where
  status : statusInterrupts w = []
  /-- Before `add sp, sp, #-8` the registers of user mode are below the stack pointer. -/
  below : ∀ t ∈ (interruptsAt w 13).getLast?,
    t.mem (top - 68) = t.sp .user ∧ t.mem (top - 64) = t.lr .user

/-! ### The pieces of the handler -/

def swiEnter (globalData : Word) : List Instr :=
  [.sub .sp .sp 4, .stmfd .sp true allRegs, .ldrConst (.r 12) globalData, .ldr (.r 8) (.r 12) 0,
    .mrsCpsr (.r 3), .bic (.r 3) (.r 3) 0x80, .msrCpsr (.r 3)]

def swiSave : List Instr :=
  [.str (.r 2) .sp 56, .mov (.r 1) .sp, .ldr (.r 0) .lr (-4), .bic (.r 0) (.r 0) 0xff000000,
    .stmfdUser .sp [.sp, .lr]]

def swiCall (swiDispatch : State → State) : List Instr :=
  [.bl swiDispatch, .ldmfdUser .sp [.sp, .lr], .add .sp .sp 8, .ldr (.r 2) .sp 56,
    .msrSpsr (.r 2)]

def swiReturn : List Instr := [.ldmfd .sp true allRegs, .add .sp .sp 4, .movsPcLr]

theorem swiHandler_eq (globalData : Word) (swiDispatch : State → State) :
    swiHandler globalData swiDispatch = swiEnter globalData ++ .mrsSpsr (.r 2) ::
      (swiSave ++ .add .sp .sp (-8) :: (swiCall swiDispatch ++ swiReturn)) := rfl

example (globalData : Word) (swiDispatch : State → State) :
    (swiHandler globalData swiDispatch)[7]? = some (.mrsSpsr (.r 2)) ∧
      (swiHandler globalData swiDispatch)[13]? = some (.add .sp .sp (-8)) ∧
      (swiHandler globalData swiDispatch).drop 19 = swiReturn := ⟨rfl, rfl, rfl⟩

/-! ### The frame -/

variable {u s s' t : State} {p x v a b globalData handler top : Word} {i : Instr}
  {swiDispatch : State → State} {w : List (List State)}

/-- The frame of `swi_handler` is in place, with the saved `spsr`, and the stack pointer is
at `p`. -/
structure Framed (u : State) (p v : Word) (s : State) : Prop where
  bank : s.bank = .svc
  sp : s.sp .svc = p
  r : ∀ i : Fin 13, i ≠ 0 → s.mem (u.sp .svc - 60 + BitVec.ofNat 32 (4 * i)) = u.r i
  pc : s.mem (u.sp .svc - 8) = u.nextPc
  spsr : s.mem (u.sp .svc - 4) = v

/-- What the words of the frame do not depend on. -/
theorem Framed.congr (framed : Framed u p v s) (bank : t.bank = .svc) (sp : t.sp .svc = x)
    (mem : ∀ y, (y - (u.sp .svc - 60)).toNat < 60 → y ≠ u.sp .svc - 60 → t.mem y = s.mem y) :
    Framed u x v t where
  bank := bank
  sp := sp
  r i other := by
    have := Nat.pos_of_ne_zero (Fin.val_ne_of_ne other)
    have := i.isLt
    rw [mem _ (by bv_omega) (by bv_omega), framed.r i other]
  pc := by rw [mem _ (by bv_omega) (by bv_omega), framed.pc]
  spsr := by rw [mem _ (by bv_omega) (by bv_omega), framed.spsr]

/-- An interrupt leaves the frame, which is not below the stack pointer. -/
theorem Framed.stable (own : p = u.sp .svc - 60 ∨ p = u.sp .svc - 68) :
    Stable (Taken (u.sp .svc)) (Framed u p v) := by
  intro s t taken framed
  have bank : t.bank = .svc := by rw [State.bank, taken.cpsr, ← State.bank, framed.bank]
  apply framed.congr bank (by rw [taken.sp.2, framed.sp])
  intro y inside _
  apply taken.stack
  rw [framed.sp]
  rcases own with rfl | rfl <;> bv_omega

/-- Instructions that write registers only, other than the stack pointer. -/
theorem Framed.exec (framed : Framed u p v s) (bank : (i.exec s).bank = s.bank)
    (sp : (i.exec s).sp .svc = s.sp .svc) (mem : (i.exec s).mem = s.mem) :
    Framed u p v (i.exec s) :=
  framed.congr (bank.trans framed.bank) (sp.trans framed.sp) fun _ _ _ => congrFun mem _

theorem stable_user : Stable (Taken top) fun s => s.sp .user = a ∧ s.lr .user = b := by
  rintro s t taken ⟨sp, lr⟩
  exact ⟨taken.sp.1.trans sp, taken.lr.1.trans lr⟩

theorem stable_r {i : Fin 13} : Stable (Taken top) fun s => s.r i = v := by
  intro s t taken same
  rw [taken.r, same]

/-- Where `swi_dispatch` is called: the registers of user mode are those given. -/
structure Called (u : State) (p v a b : Word) (s : State) : Prop where
  framed : Framed u p v s
  user : s.sp .user = a ∧ s.lr .user = b
  arg : s.r 1 = u.sp .svc - 60

theorem Called.stable (own : p = u.sp .svc - 60 ∨ p = u.sp .svc - 68) :
    Stable (Taken (u.sp .svc)) (Called u p v a b) :=
  fun s t taken called =>
    { framed := Framed.stable own s t taken called.framed
      user := stable_user s t taken called.user
      arg := stable_r s t taken called.arg }

/-- `str r2, [sp, #14*4]` -/
theorem Framed.str (framed : Framed u (u.sp .svc - 60) x s) :
    Framed u (u.sp .svc - 60) (s.r 2) ((Instr.str (.r 2) .sp 56).exec s) := by
  have slot : s.sp .svc + 56 = u.sp .svc - 4 := by
    rw [framed.sp]
    bv_omega
  have stored : ((Instr.str (.r 2) .sp 56).exec s).mem =
      Function.update s.mem (u.sp .svc - 4) (s.r 2) := by
    simp only [Instr.exec, State.next, State.reg, framed.bank, slot]
  have other : ∀ y, y ≠ u.sp .svc - 4 →
      ((Instr.str (.r 2) .sp 56).exec s).mem y = s.mem y := by
    intro y apart
    rw [stored, Function.update_of_ne apart]
  exact
    { bank := framed.bank
      sp := framed.sp
      r := fun i nonzero => by
        have := i.isLt
        rw [other _ (by bv_omega), framed.r i nonzero]
      pc := by rw [other _ (by bv_omega), framed.pc]
      spsr := by rw [stored, Function.update_self] }

theorem triple_save : Triple Instr.exec (Taken (u.sp .svc))
    (fun s => (Framed u (u.sp .svc - 60) x s ∧ s.sp .user = a ∧ s.lr .user = b) ∧ s.r 2 = v)
    swiSave
    (fun s => Called u (u.sp .svc - 60) v a b s ∧
      s.mem (u.sp .svc - 68) = a ∧ s.mem (u.sp .svc - 64) = b) := by
  have framed_stable {v : Word} : Stable (Taken (u.sp .svc)) (Framed u (u.sp .svc - 60) v) :=
    Framed.stable (.inl rfl)
  have called_stable : Stable (Taken (u.sp .svc)) (Called u (u.sp .svc - 60) v a b) :=
    Called.stable (.inl rfl)
  refine Triple.cons
    (Q := fun s => Framed u (u.sp .svc - 60) v s ∧ s.sp .user = a ∧ s.lr .user = b)
    ((framed_stable.and stable_user).and stable_r) ?_ ?_
  · rintro s ⟨⟨framed, user⟩, rfl⟩
    exact ⟨framed.str, user⟩
  refine Triple.cons (Q := Called u (u.sp .svc - 60) v a b) (framed_stable.and stable_user) ?_ ?_
  · rintro s ⟨framed, user⟩
    refine ⟨framed.exec rfl rfl rfl, user, ?_⟩
    simp [Instr.exec, State.next, State.setReg, State.reg, framed.bank, framed.sp]
  refine Triple.cons (Q := Called u (u.sp .svc - 60) v a b) called_stable ?_ ?_
  · rintro s ⟨framed, user, arg⟩
    exact ⟨framed.exec rfl rfl rfl, user, arg⟩
  refine Triple.cons (Q := Called u (u.sp .svc - 60) v a b) called_stable ?_ ?_
  · rintro s ⟨framed, user, arg⟩
    exact ⟨framed.exec rfl rfl rfl, user, arg⟩
  refine Triple.cons called_stable ?_ .nil
  rintro s ⟨framed, ⟨rfl, rfl⟩, arg⟩
  have stored : ((Instr.stmfdUser .sp [.sp, .lr]).exec s).mem =
      storeWords s.mem (u.sp .svc - 68) [s.sp .user, s.lr .user] := by
    have base : u.sp .svc - 60 - sizeOfRegs [.sp, .lr] = u.sp .svc - 68 := by
      simp only [sizeOfRegs, List.length_cons, List.length_nil]
      bv_omega
    simp only [Instr.exec, State.next, State.reg, framed.bank, framed.sp, base, List.map]
  refine ⟨⟨framed.congr framed.bank framed.sp ?_, ⟨rfl, rfl⟩, arg⟩, ?_, ?_⟩
  · intro y inside _
    rw [stored]
    apply storeWords_outside (by simp)
    simp only [List.length_cons, List.length_nil]
    bv_omega
  · rw [stored]
    exact storeWords_word (k := 0) (by simp) rfl (by simp)
  · rw [stored]
    exact storeWords_word (k := 1) (by simp) rfl (by bv_omega)

/-- During `swi_dispatch` the registers of user mode are on the stack. -/
structure Parked (u : State) (v a b : Word) (s : State) : Prop where
  framed : Framed u (u.sp .svc - 68) v s
  sp : s.mem (u.sp .svc - 68) = a
  lr : s.mem (u.sp .svc - 64) = b

theorem Parked.stable : Stable (Taken (u.sp .svc)) (Parked u v a b) := by
  intro s t taken parked
  have inside : ∀ x, (x - (u.sp .svc - 68)).toNat < 68 → t.mem x = s.mem x := by
    intro x inside
    apply taken.stack
    rw [parked.framed.sp]
    bv_omega
  exact
    { framed := Framed.stable (.inr rfl) s t taken parked.framed
      sp := by rw [inside _ (by bv_omega), parked.sp]
      lr := by rw [inside _ (by bv_omega), parked.lr] }

theorem Parked.bl (parked : Parked u v a b s) (arg : s.r 1 = u.sp .svc - 60)
    (dispatches : Dispatches (u.sp .svc) swiDispatch) :
    Parked u v a b ((Instr.bl swiDispatch).exec s) := by
  let e : State := { s with lr := Function.update s.lr s.bank (s.pc + 4) }
  have dispatched : Dispatched (u.sp .svc) e (swiDispatch e) :=
    dispatches e parked.framed.bank parked.framed.sp arg
  have bank : (swiDispatch e).bank = .svc := dispatched.bank.trans parked.framed.bank
  have sp : (swiDispatch e).sp .svc = u.sp .svc - 68 := by
    have same := dispatched.sp
    rw [show e.bank = .svc from parked.framed.bank] at same
    exact same.trans parked.framed.sp
  have inside : ∀ x, (x - (u.sp .svc - 68)).toNat < 68 → x ≠ u.sp .svc - 60 →
      (swiDispatch e).mem x = s.mem x := by
    intro x inside other
    refine dispatched.frame x ?_ (by rwa [show e.r 1 = u.sp .svc - 60 from arg])
    rw [show e.sp .svc = u.sp .svc - 68 from parked.framed.sp]
    bv_omega
  exact
    { framed := parked.framed.congr bank sp fun y within other => inside y (by bv_omega) other
      sp := by
        rw [← parked.sp]
        exact inside _ (by bv_omega) (by bv_omega)
      lr := by
        rw [← parked.lr]
        exact inside _ (by bv_omega) (by bv_omega) }

theorem triple_dispatch (dispatches : Dispatches (u.sp .svc) swiDispatch) :
    Triple Instr.exec (Taken (u.sp .svc))
      (fun s => Parked u v a b s ∧ s.r 1 = u.sp .svc - 60)
      (swiCall swiDispatch)
      (fun s => (Framed u (u.sp .svc - 60) v s ∧ s.sp .user = a ∧ s.lr .user = b) ∧
        s.spsr .svc = v) := by
  have framed_stable : Stable (Taken (u.sp .svc)) (Framed u (u.sp .svc - 60) v) :=
    Framed.stable (.inl rfl)
  refine Triple.cons (Q := Parked u v a b) (Parked.stable.and stable_r) ?_ ?_
  · rintro s ⟨parked, arg⟩
    exact parked.bl arg dispatches
  refine Triple.cons
    (Q := fun s => Framed u (u.sp .svc - 68) v s ∧ s.sp .user = a ∧ s.lr .user = b)
    Parked.stable ?_ ?_
  · rintro s ⟨framed, rfl, rfl⟩
    refine ⟨framed.congr framed.bank framed.sp fun _ _ _ => rfl, ?_, ?_⟩
    · simp [Instr.exec, State.next, State.loadRegs, State.setReg, State.reg, framed.bank, framed.sp]
    · have second : u.sp .svc - 68 + 4 = u.sp .svc - 64 := by bv_omega
      simp only [Instr.exec, State.next, State.loadRegs, State.setReg, State.reg, framed.bank,
        framed.sp, second, Function.update_self]
  refine Triple.cons
    (Q := fun s => Framed u (u.sp .svc - 60) v s ∧ s.sp .user = a ∧ s.lr .user = b)
    ((Framed.stable (.inr rfl)).and stable_user) ?_ ?_
  · rintro s ⟨framed, user⟩
    have raised : ((Instr.add .sp .sp 8).exec s).sp =
        Function.update s.sp .svc (u.sp .svc - 60) := by
      have top : u.sp .svc - 68 + 8 = u.sp .svc - 60 := by bv_omega
      simp only [Instr.exec, State.next, State.setReg, State.reg, framed.bank, framed.sp, top]
    refine ⟨framed.congr framed.bank ?_ fun _ _ _ => rfl, ?_, user.2⟩
    · rw [raised, Function.update_self]
    · rw [raised, Function.update_of_ne (by decide), user.1]
  refine Triple.cons
    (Q := fun s => (Framed u (u.sp .svc - 60) v s ∧ s.sp .user = a ∧ s.lr .user = b) ∧ s.r 2 = v)
    (framed_stable.and stable_user) ?_ ?_
  · rintro s ⟨framed, user⟩
    refine ⟨⟨framed.exec rfl rfl rfl, user⟩, ?_⟩
    have slot : u.sp .svc - 60 + 56 = u.sp .svc - 4 := by bv_omega
    simp only [Instr.exec, State.next, State.setReg, State.reg, framed.bank, framed.sp, slot,
      framed.spsr, Function.update_self]
  refine Triple.cons ((framed_stable.and stable_user).and stable_r) ?_ .nil
  rintro s ⟨⟨framed, user⟩, rfl⟩
  refine ⟨⟨framed.exec rfl rfl rfl, user⟩, ?_⟩
  simp [Instr.exec, State.next, State.reg, framed.bank]

/-! ### The entry -/

theorem stable_of_masked (masked : ∀ s, P s → s.cpsr.getLsbD 7 = true) :
    Stable (Taken top) P := by
  intro s t taken holds
  have unmasked := taken.unmasked
  rw [State.Unmasked, masked s holds] at unmasked
  exact absurd unmasked Bool.true_eq_false_eq_False

/-- The frame has been built, with interrupts disabled. -/
structure Entered (u s : State) : Prop where
  masked : s.cpsr.getLsbD 7 = true
  framed : Framed u (u.sp .svc - 60) (s.mem (u.sp .svc - 4)) s
  user : s.sp .user = u.sp .user ∧ s.lr .user = u.lr .user
  spsr : s.spsr .svc = u.cpsr

/-- `stmfd sp!, {r0-r12, lr}` -/
theorem entered_of_stmfd (masked : s.cpsr.getLsbD 7 = true) (bank : s.bank = .svc)
    (sp : s.sp .svc = u.sp .svc - 4) (r : s.r = u.r) (lr : s.lr .svc = u.nextPc)
    (user : s.sp .user = u.sp .user ∧ s.lr .user = u.lr .user) (spsr : s.spsr .svc = u.cpsr) :
    Entered u ((Instr.stmfd .sp true allRegs).exec s) := by
  have base : s.reg .svc .sp - sizeOfRegs allRegs = u.sp .svc - 60 := by
    simp only [State.reg, sp, sizeOfRegs, allRegs, List.length_cons, List.length_nil]
    bv_omega
  have word : ∀ (k : ℕ) (v : Word), (allRegs.map (s.reg .svc))[k]? = some v →
      ((Instr.stmfd .sp true allRegs).exec s).mem (u.sp .svc - 60 + BitVec.ofNat 32 (4 * k)) =
        v := by
    intro k v own
    rw [Instr.stmfd_mem, bank, base]
    exact storeWords_word (by simp [allRegs]) own rfl
  have moved : ((Instr.stmfd .sp true allRegs).exec s).sp =
      Function.update s.sp .svc (u.sp .svc - 60) := by
    rw [Instr.push_sp, bank, ← base]
    rfl
  refine ⟨masked, ⟨bank, ?_, ?_, ?_, rfl⟩, ?_, spsr⟩
  · rw [moved, Function.update_self]
  · intro i _
    apply word
    have own : ∀ i : Fin 13, allRegs[i.val]? = some (.r i) := by decide
    rw [List.getElem?_map, own i, ← r]
    rfl
  · have last : u.sp .svc - 8 = u.sp .svc - 60 + BitVec.ofNat 32 (4 * 13) := by bv_omega
    rw [last]
    apply word
    rw [← lr]
    rfl
  · rw [moved, Function.update_of_ne (by decide)]
    exact user

/-- An instruction that writes registers only, other than the stack pointer. -/
theorem Entered.exec (entered : Entered u s) (cpsr : (i.exec s).cpsr = s.cpsr)
    (sp : (i.exec s).sp = s.sp) (lr : (i.exec s).lr = s.lr) (spsr : (i.exec s).spsr = s.spsr)
    (mem : (i.exec s).mem = s.mem) : Entered u (i.exec s) where
  masked := by rw [cpsr, entered.masked]
  framed := by
    rw [mem]
    exact entered.framed.exec (by rw [State.bank, cpsr, State.bank]) (by rw [sp]) mem
  user := by
    rw [sp, lr]
    exact entered.user
  spsr := by rw [spsr, entered.spsr]

theorem triple_entry : Triple Instr.exec (Taken (u.sp .svc)) (fun s => s = u.swi handler)
    (swiEnter globalData)
    (fun s => (∃ x, Framed u (u.sp .svc - 60) x s) ∧
      (s.sp .user = u.sp .user ∧ s.lr .user = u.lr .user) ∧ s.spsr .svc = u.cpsr) := by
  have entered_stable : Stable (Taken (u.sp .svc)) (Entered u) :=
    stable_of_masked fun s entered => entered.masked
  refine Triple.cons (Q := fun s => s = (Instr.sub .sp .sp 4).exec (u.swi handler))
    (stable_of_masked ?_) ?_ ?_
  · rintro s rfl
    exact State.swi_masked u handler
  · rintro s rfl
    rfl
  refine Triple.cons (Q := Entered u) (stable_of_masked ?_) ?_ ?_
  · rintro s rfl
    exact State.swi_masked u handler
  · rintro s rfl
    have moved : ((Instr.sub .sp .sp 4).exec (u.swi handler)).sp =
        Function.update u.sp .svc (u.sp .svc - 4) := by
      simp only [Instr.exec, State.next, State.setReg, State.reg, State.swi_bank]
      rfl
    have lr : ((Instr.sub .sp .sp 4).exec (u.swi handler)).lr =
        Function.update u.lr .svc u.nextPc := rfl
    have spsr : ((Instr.sub .sp .sp 4).exec (u.swi handler)).spsr =
        Function.update u.spsr .svc u.cpsr := rfl
    refine entered_of_stmfd (State.swi_masked u handler) (State.swi_bank u handler) ?_ rfl ?_ ?_ ?_
    · rw [moved, Function.update_self]
    · rw [lr, Function.update_self]
    · rw [moved, lr, Function.update_of_ne (by decide), Function.update_of_ne (by decide)]
      exact ⟨rfl, rfl⟩
    · rw [spsr, Function.update_self]
  refine Triple.cons (Q := Entered u) entered_stable ?_ ?_
  · exact fun s entered => entered.exec rfl rfl rfl rfl rfl
  refine Triple.cons (Q := Entered u) entered_stable ?_ ?_
  · exact fun s entered => entered.exec rfl rfl rfl rfl rfl
  refine Triple.cons (Q := fun s => Entered u s ∧ s.r 3 = s.cpsr) entered_stable ?_ ?_
  · intro s entered
    refine ⟨entered.exec rfl rfl rfl rfl rfl, ?_⟩
    simp only [Instr.exec, State.next, State.setReg, Function.update_self]
  refine Triple.cons (Q := fun s => Entered u s ∧ s.r 3 = s.cpsr &&& ~~~0x80)
    (stable_of_masked fun s both => both.1.masked) ?_ ?_
  · rintro s ⟨entered, same⟩
    refine ⟨entered.exec rfl rfl rfl rfl rfl, ?_⟩
    simp only [Instr.exec, State.next, State.setReg, State.reg, same, Function.update_self]
  refine Triple.cons (stable_of_masked fun s both => both.1.masked) ?_ .nil
  rintro s ⟨entered, same⟩
  have bank : ((Instr.msrCpsr (.r 3)).exec s).bank = .svc := by
    simp only [Instr.exec, State.next, State.reg, State.bank, same]
    rw [bankOf_bic (by decide)]
    exact entered.framed.bank
  exact ⟨⟨_, entered.framed.congr bank entered.framed.sp fun _ _ _ => rfl⟩, entered.user,
    entered.spsr⟩

/-! ### The return -/

/-- The registers of the user are back. -/
structure Restored (u : State) (a b : Word) (s : State) : Prop where
  bank : s.bank = .svc
  r : ∀ i, i ≠ 0 → s.r i = u.r i
  lr : s.lr .svc = u.nextPc
  user : s.sp .user = a ∧ s.lr .user = b

theorem Restored.stable : Stable (Taken top) (Restored u a b) :=
  fun s t taken restored =>
    { bank := by rw [State.bank, taken.cpsr, ← State.bank, restored.bank]
      r := by rw [taken.r]; exact restored.r
      lr := by rw [taken.lr.2, restored.lr]
      user := stable_user s t taken restored.user }

/-- `ldmfd sp!, {r0-r12, lr}` -/
theorem Restored.of_ldmfd (framed : Framed u (u.sp .svc - 60) v s)
    (user : s.sp .user = a ∧ s.lr .user = b) :
    Restored u a b ((Instr.ldmfd .sp true allRegs).exec s) := by
  have word {k : ℕ} {q : Reg} (own : allRegs[k]? = some q) :
      ((Instr.ldmfd .sp true allRegs).exec s).reg .svc q =
        s.mem (u.sp .svc - 60 + BitVec.ofNat 32 (4 * k)) := by
    have popped := Instr.pop_reg (s := s) (by decide : allRegs.Nodup) own
    rwa [framed.bank, framed.sp] at popped
  refine ⟨?_, ?_, ?_, ?_⟩
  · exact Instr.pop_bank.trans framed.bank
  · intro i nonzero
    have own : ∀ i : Fin 13, allRegs[i.val]? = some (.r i) := by decide
    exact (word (own i)).trans (framed.r i nonzero)
  · have last : u.sp .svc - 60 + BitVec.ofNat 32 (4 * 13) = u.sp .svc - 8 := by bv_omega
    have own : allRegs[13]? = some .lr := rfl
    rw [← framed.pc, ← last]
    exact word own
  · have other : Bank.user ≠ s.bank := by rw [framed.bank]; decide
    exact ⟨(Instr.pop_of_ne other).1.trans user.1, (Instr.pop_of_ne other).2.trans user.2⟩

theorem triple_return : Triple Instr.exec (Taken (u.sp .svc))
    (fun s => Framed u (u.sp .svc - 60) v s ∧ s.sp .user = a ∧ s.lr .user = b) swiReturn
    (fun s => s.pc = u.nextPc ∧ (∀ i, i ≠ 0 → s.r i = u.r i) ∧
      s.sp .user = a ∧ s.lr .user = b) := by
  refine Triple.cons (Q := Restored u a b) ((Framed.stable (.inl rfl)).and stable_user) ?_ ?_
  · rintro s ⟨framed, user⟩
    exact Restored.of_ldmfd framed user
  refine Triple.cons (Q := Restored u a b) Restored.stable ?_ ?_
  · rintro s ⟨bank, r, lr, user⟩
    refine ⟨bank, r, lr, ?_, user.2⟩
    simp [Instr.exec, State.next, State.setReg, bank, user.1]
  refine Triple.cons Restored.stable ?_ .nil
  rintro s ⟨bank, r, lr, user⟩
  refine ⟨?_, r, user⟩
  simp only [Instr.exec, bank, lr]

/-! ### The status register -/

/-- After an interrupt the saved status register is that of supervisor mode. -/
theorem spsr_of_resumes {ts : List State} (resumed : Resumes (Taken top) s ts t)
    (bank : s.bank = .svc) : t.bank = .svc ∧
      (ts = [] ∧ t.spsr .svc = s.spsr .svc ∨ ts ≠ [] ∧ bankOf (t.spsr .svc) = .svc) := by
  have stable : Stable (Taken top) fun s => s.bank = .svc := by
    intro s t taken bank
    rw [State.bank, taken.cpsr, ← State.bank, bank]
  refine ⟨resumed.keeps stable bank, ?_⟩
  by_cases none : ts = []
  · left
    subst none
    cases resumed
    exact ⟨rfl, rfl⟩
  · right
    refine ⟨none, resumed.establishes (Q := fun t => bankOf (t.spsr .svc) = .svc) none bank
      stable ?_⟩
    intro s t taken bank
    rw [taken.spsr]
    exact bank

/-- The instructions after `msr spsr, r2`: the status register of the user is lost exactly when
one of them is interrupted. -/
theorem cpsr_of_return
    (run : Runs Instr.exec (Taken top) swiReturn s w s')
    (bank : s.bank = .svc) :
    w.flatten = [] ∧ s'.cpsr = s.spsr .svc ∨ w.flatten ≠ [] ∧ bankOf s'.cpsr = .svc := by
  obtain ⟨first, w, s₁, rfl, resumed₁, run⟩ := Runs.cons_iff.mp run
  obtain ⟨second, w, s₂, rfl, resumed₂, run⟩ := Runs.cons_iff.mp run
  obtain ⟨third, w, s₃, rfl, resumed₃, run⟩ := Runs.cons_iff.mp run
  obtain ⟨rfl, rfl⟩ := runs_nil_iff.mp run
  obtain ⟨bank₁, saved₁⟩ := spsr_of_resumes resumed₁ bank
  obtain ⟨bank₂, saved₂⟩ := spsr_of_resumes resumed₂ (Instr.pop_bank.trans bank₁)
  obtain ⟨bank₃, saved₃⟩ := spsr_of_resumes resumed₃ (State.setReg_bank.trans bank₂)
  have final : (Instr.movsPcLr.exec s₃).cpsr = s₃.spsr .svc := by
    simp only [Instr.exec, bank₃]
  have popped : ((Instr.ldmfd .sp true allRegs).exec s₁).spsr = s₁.spsr := Instr.pop_spsr
  have added : ((Instr.add .sp .sp 4).exec s₂).spsr = s₂.spsr := State.setReg_spsr
  rw [popped] at saved₂
  rw [added] at saved₃
  rw [final]
  rcases saved₃ with ⟨rfl, same₃⟩ | ⟨some₃, lost⟩
  · rw [same₃]
    rcases saved₂ with ⟨rfl, same₂⟩ | ⟨some₂, lost⟩
    · rw [same₂]
      rcases saved₁ with ⟨rfl, same₁⟩ | ⟨some₁, lost⟩
      · exact .inl ⟨rfl, same₁⟩
      · exact .inr ⟨by simp [some₁], lost⟩
    · exact .inr ⟨by simp [some₂], lost⟩
  · exact .inr ⟨by simp [some₃], lost⟩

/-! ### The whole handler -/

/-- The schedule, cut where the interrupts matter. -/
theorem interruptsAt_split {w₀ w₁ w₂ w₃ : List (List State)} (ts₇ ts₁₃ : List State)
    (len₀ : w₀.length = 7) (len₁ : w₁.length = 5) (len₂ : w₂.length = 5) (len₃ : w₃.length = 3) :
    statusInterrupts (w₀ ++ ts₇ :: (w₁ ++ ts₁₃ :: (w₂ ++ w₃))) = ts₇ ++ w₃.flatten ∧
      interruptsAt (w₀ ++ ts₇ :: (w₁ ++ ts₁₃ :: (w₂ ++ w₃))) 13 = ts₁₃ := by
  obtain ⟨x, y, z, rfl⟩ := List.length_eq_three.mp len₃
  simp [statusInterrupts, interruptsAt, len₀, len₁, len₂]

theorem below_iff {ts : List State} (resumed : Resumes (Taken (u.sp .svc)) s ts t)
    (called : Called u (u.sp .svc - 60) v a b s)
    (words : s.mem (u.sp .svc - 68) = a ∧ s.mem (u.sp .svc - 64) = b) :
    (∀ t ∈ ts.getLast?,
      t.mem (u.sp .svc - 68) = t.sp .user ∧ t.mem (u.sp .svc - 64) = t.lr .user) ↔
      t.mem (u.sp .svc - 68) = a ∧ t.mem (u.sp .svc - 64) = b := by
  have user := (resumed.keeps (Called.stable (.inl rfl)) called).user
  have last := resumed.getLast?
  cases final : ts.getLast? with
  | none =>
    obtain rfl : s = t := by simpa [final] using last
    exact iff_of_true (by simp) words
  | some t' =>
    obtain rfl : t' = t := by simpa [final] using last
    simp [user]

/-- What of the user comes back: its status register if no interrupt has overwritten `spsr`, and
what the words below the stack pointer held before `add sp, sp, #-8`. -/
theorem swiHandler_ends (dispatches : Dispatches (u.sp .svc) swiDispatch)
    (run : Runs Instr.exec (Taken (u.sp .svc)) (swiHandler globalData swiDispatch)
      (u.swi handler) w s') :
    (s'.pc = u.nextPc ∧ ∀ i, i ≠ 0 → s'.r i = u.r i) ∧
      (statusInterrupts w = [] ∧ s'.cpsr = u.cpsr ∨
        statusInterrupts w ≠ [] ∧ bankOf s'.cpsr = .svc) ∧
      (s'.sp .user = u.sp .user ∧ s'.lr .user = u.lr .user ↔
        ∀ t ∈ (interruptsAt w 13).getLast?,
          t.mem (u.sp .svc - 68) = t.sp .user ∧ t.mem (u.sp .svc - 64) = t.lr .user) := by
  rw [swiHandler_eq] at run
  obtain ⟨w₀, _, s₀, rfl, run₀, run⟩ := Runs.append_iff.mp run
  obtain ⟨ts₇, _, s₇, rfl, resumed₇, run⟩ := Runs.cons_iff.mp run
  obtain ⟨w₁, _, s₁, rfl, run₁, run⟩ := Runs.append_iff.mp run
  obtain ⟨ts₁₃, _, s₁₃, rfl, resumed₁₃, run⟩ := Runs.cons_iff.mp run
  obtain ⟨w₂, w₃, s₂, rfl, run₂, run₃⟩ := Runs.append_iff.mp run
  obtain ⟨status, below⟩ := interruptsAt_split ts₇ ts₁₃ run₀.length run₁.length run₂.length
    run₃.length
  -- Up to `mrs r2, spsr`.
  obtain ⟨⟨x, framed₀⟩, user₀, spsr₀⟩ := triple_entry _ _ _ run₀ rfl
  obtain ⟨-, saved⟩ := spsr_of_resumes resumed₇ framed₀.bank
  have framed₇ := resumed₇.keeps (Framed.stable (.inl rfl)) framed₀
  have user₇ := resumed₇.keeps stable_user user₀
  have read : ((Instr.mrsSpsr (.r 2)).exec s₇).r 2 = s₇.spsr .svc := by
    simp only [Instr.exec, State.next, State.setReg, framed₇.bank, Function.update_self]
  -- Up to `add sp, sp, #-8`.
  obtain ⟨called₁, words₁⟩ := triple_save _ _ _ run₁ ⟨⟨framed₇.exec rfl rfl rfl, user₇⟩, read⟩
  have called₁₃ := resumed₁₃.keeps (Called.stable (.inl rfl)) called₁
  have parked : Parked u (s₇.spsr .svc) (s₁₃.mem (u.sp .svc - 68)) (s₁₃.mem (u.sp .svc - 64))
      ((Instr.add .sp .sp (-8)).exec s₁₃) := by
    refine ⟨called₁₃.framed.congr called₁₃.framed.bank ?_ fun _ _ _ => rfl, rfl, rfl⟩
    have lowered : u.sp .svc - 60 + -8 = u.sp .svc - 68 := by bv_omega
    simp only [Instr.exec, State.next, State.setReg, State.reg, called₁₃.framed.bank,
      called₁₃.framed.sp, lowered, Function.update_self]
  -- The rest.
  obtain ⟨both, spsr₂⟩ := triple_dispatch dispatches _ _ _ run₂ ⟨parked, called₁₃.arg⟩
  obtain ⟨pc, r, sp, lr⟩ := triple_return _ _ _ run₃ both
  rw [status, below, below_iff resumed₁₃ called₁ words₁, sp, lr]
  refine ⟨⟨pc, r⟩, ?_, Iff.rfl⟩
  rcases cpsr_of_return run₃ both.1.bank with ⟨quiet, same⟩ | ⟨late, lost⟩
  · rw [same, spsr₂, quiet, List.append_nil]
    rcases saved with ⟨none, same⟩ | ⟨early, lost⟩
    · exact .inl ⟨none, same.trans spsr₀⟩
    · exact .inr ⟨early, lost⟩
  · exact .inr ⟨fun empty => late (List.append_eq_nil_iff.mp empty).2, lost⟩

theorem preserved_of_harmless (dispatches : Dispatches (u.sp .svc) swiDispatch)
    (run : Runs Instr.exec (Taken (u.sp .svc)) (swiHandler globalData swiDispatch)
      (u.swi handler) w s') (harmless : Harmless (u.sp .svc) w) : Preserved u s' := by
  obtain ⟨⟨pc, r⟩, status, words⟩ := swiHandler_ends dispatches run
  obtain ⟨sp, lr⟩ := words.mpr harmless.below
  have cpsr := (status.resolve_right fun lost => lost.1 harmless.status).2
  exact ⟨pc, cpsr, sp, lr, r⟩

/-- The user of a system call goes on as if nothing had happened exactly when the interrupts are
where they do no harm. -/
theorem swiHandler_preserves_iff (user : u.bank = .user)
    (dispatches : Dispatches (u.sp .svc) swiDispatch)
    (run : Runs Instr.exec (Taken (u.sp .svc)) (swiHandler globalData swiDispatch)
      (u.swi handler) w s') :
    Preserved u s' ↔ Harmless (u.sp .svc) w := by
  constructor
  · intro preserved
    obtain ⟨-, status, words⟩ := swiHandler_ends dispatches run
    refine ⟨(status.resolve_right ?_).1, words.mp ⟨preserved.sp, preserved.lr⟩⟩
    rintro ⟨-, lost⟩
    rw [preserved.cpsr, ← State.bank, user] at lost
    exact absurd lost (by decide)
  · exact preserved_of_harmless dispatches run

/-- `swi_dispatch` for the call of `time` at time 0. -/
def timeDispatch (s : State) : State :=
  { s with
    mem := if s.r 0 = 0x900006 then Function.update s.mem (s.r 1) 0 else s.mem
    pc := s.lr s.bank }

theorem dispatches_timeDispatch (top : Word) : Dispatches top timeDispatch := by
  intro s bank sp arg
  refine ⟨⟨rfl, rfl, fun _ _ _ => rfl, rfl⟩, fun x _ other => ?_⟩
  simp only [timeDispatch]
  split
  · rw [Function.update_of_ne other]
  · rfl

/-- A user program at `swi 0x900006`. -/
def timeCaller : State where
  r i := BitVec.ofNat 32 i
  sp b := if b = .user then 0xa2fff000 else 0xa3010000
  lr _ := 0xa0000040
  spsr _ := 0x10
  pc := 0xa0001000
  cpsr := 0x10
  mem x := if x = 0xa0001000 then 0xef900006 else 0

/-- Without interrupts the program goes on. -/
theorem swiHandler_preserves_iff_time :
    Preserved timeCaller (straight Instr.exec (swiHandler 0xa3000100 timeDispatch)
      (timeCaller.swi 0xa3000200)) :=
  (swiHandler_preserves_iff (by decide) (dispatches_timeDispatch _) (Runs.straight _ _)).mpr
    { status := rfl, below := by decide }

/-- An interrupt before `mrs r2, spsr`: the program goes on in supervisor mode. -/
theorem swiHandler_loses_mode :
    ∃ w s', Runs Instr.exec (Taken (timeCaller.sp .svc)) (swiHandler 0xa3000100 timeDispatch)
      (timeCaller.swi 0xa3000200) w s' ∧ Dispatches (timeCaller.sp .svc) timeDispatch ∧
      timeCaller.bank = .user ∧ s'.bank = .svc ∧ ¬ Preserved timeCaller s' := by
  let s := straight Instr.exec (swiEnter 0xa3000100) (timeCaller.swi 0xa3000200)
  let t : State := { s with spsr := Function.update s.spsr .svc s.cpsr }
  have taken : Taken (timeCaller.sp .svc) s t :=
    ⟨by decide +kernel, rfl, ⟨rfl, rfl⟩, ⟨rfl, rfl⟩, rfl, rfl, rfl, fun _ _ => rfl⟩
  let rest := swiSave ++ .add .sp .sp (-8) :: (swiCall timeDispatch ++ swiReturn)
  let s' := straight Instr.exec rest ((Instr.mrsSpsr (.r 2)).exec t)
  have lost : s'.cpsr = 0x13 := by decide +kernel
  refine ⟨_, s', Runs.append_iff.mpr ⟨_, _, s, rfl, .straight (swiEnter 0xa3000100) _,
    .cons (.cons taken (.nil t)) (.straight rest _)⟩, dispatches_timeDispatch _, by decide, ?_,
    fun preserved => ?_⟩
  · rw [State.bank, lost]
    decide
  · exact absurd (lost.symm.trans preserved.cpsr) (by decide)

end Gravel
