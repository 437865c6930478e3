import Gravel.Handlers.Irq
import Gravel.Library.ArmProgram

/-!
# System calls from the stub to the stub

The stubs of the C library put the call number in a `swi` and make `errno` of a negative result.
`swi_dispatch` finds the number and the arguments where `swi_handler` has left them, and what it
writes to the saved r0 is what the stub gets, wherever the handler is interrupted; and the stub
returns, if the interrupts were where they do no harm.

## Main definitions

* `SysCall`, `SysCall.number`, `SysCall.stub` — the calls and their stubs
* `swiDispatch` — the `switch` of `swi_dispatch`
* `TakenIn` — an interrupt that leaves the code of the program alone
* `Calls` — `swi_dispatch` is called for a program

## Main results

* `takenIn_of_irqHandler` — `irq_handler` leaves the code of the program alone
* `swi_result` — the call and its result, across the handler
* `SysCall.stub_returns` — the whole call
-/

namespace Gravel

open Library Library.Arm

/-! ### The stubs -/

inductive SysCall
  | read
  | write
  | time
  | sleep
  | taskCreate
  | mutexCreate
  | mutexLock
  | mutexUnlock
  | eventWait
  deriving DecidableEq, Repr

namespace SysCall

def number : SysCall → Word
  | .read => 0x900003
  | .write => 0x900004
  | .time => 0x900006
  | .sleep => 0x900007
  | .taskCreate => 0x90000a
  | .mutexCreate => 0x90000f
  | .mutexLock => 0x900010
  | .mutexUnlock => 0x900011
  | .eventWait => 0x900014

/-- The `switch` of `swi_dispatch`. -/
def ofNumber : Word → Option SysCall
  | 0x900003 => some .read
  | 0x900004 => some .write
  | 0x900006 => some .time
  | 0x900007 => some .sleep
  | 0x90000f => some .mutexCreate
  | 0x900010 => some .mutexLock
  | 0x900011 => some .mutexUnlock
  | 0x90000a => some .taskCreate
  | 0x900014 => some .eventWait
  | _ => none

/-- `time` and `sleep` have no error to report. -/
def CanFail : SysCall → Prop
  | .time | .sleep => False
  | _ => True

instance (c : SysCall) : Decidable c.CanFail := by
  cases c <;> unfold CanFail <;> infer_instance

/-- The stub of a call, with the address of `errno`. -/
def stub (errno : Word) (c : SysCall) : List Op :=
  if c.CanFail then
    [ .swi,
      .cmp (.r 0) 0,
      .bpl 7,
      .rsb (.r 0) (.r 0) 0,
      .instr (.ldrConst (.r 3) errno),
      .instr (.str (.r 0) (.r 3) 0),
      .movImm (.r 0) (-1),
      .movPc .lr ]
  else [.swi, .movPc .lr]

/-- `swi` with the number of the call. -/
def word (c : SysCall) : Word := 0xef000000 ||| c.number

/-- `swi_dispatch` finds the call of every stub. -/
theorem ofNumber_word (c : SysCall) : ofNumber (c.word &&& ~~~0xff000000) = some c := by
  cases c <;> rfl

end SysCall

/-- `swi_dispatch`, with what it does for each call, and for a number without one. -/
def swiDispatch (serve : SysCall → State → State) (invalidSyscall : State → State) (s : State) :
    State :=
  match SysCall.ofNumber (s.r 0) with
  | some c => serve c s
  | none => invalidSyscall s

/-! ### The arguments -/

/-- An interrupt that leaves the word at an address alone. -/
structure TakenIn (top code : Word) (s t : State) : Prop extends Taken top s t where
  code : t.mem code = s.mem code

theorem takenIn_of_irqHandler {top code globalData handler : Word} {cIrqHandler : State → State}
    {s : State} (unmasked : s.Unmasked) (stack : KernelStack s)
    (above : (s.sp .svc).toNat ≤ top.toNat) (handles : Handles (s.sp .svc) cIrqHandler)
    (keeps : Keeps (fun x => (x - s.sp .svc).toNat < (top - s.sp .svc).toNat) (s.sp .svc)
      cIrqHandler) (user : UserWord code) (other : code ∉ scratch) :
    TakenIn top code s (afterIrq globalData handler cIrqHandler s) where
  toTaken := taken_of_irqHandler unmasked stack above handles keeps
  code := mem_afterIrq stack handles user other

/-- `swi_dispatch` is called for a program: with the number in its `swi`, and its registers in
the frame. -/
structure Calls (u e : State) : Prop where
  bank : e.bank = .svc
  sp : e.sp .svc = u.sp .svc - 68
  number : e.r 0 = u.mem u.pc &&& ~~~0xff000000
  context : e.r 1 = u.sp .svc - 60
  saved : ∀ i : Fin 13, e.mem (u.sp .svc - 60 + BitVec.ofNat 32 (4 * i)) = u.r i

variable {u e s s' t : State} {p v top code globalData handler : Word} {i : Instr}
  {dispatch : State → State} {w : List (List State)}

/-- The registers of the program are in the frame, and its code is what it was. -/
structure Pending (u : State) (p : Word) (s : State) : Prop where
  bank : s.bank = .svc
  sp : s.sp .svc = p
  lr : s.lr .svc = u.pc + 4
  saved : ∀ i : Fin 13, s.mem (u.sp .svc - 60 + BitVec.ofNat 32 (4 * i)) = u.r i
  code : s.mem u.pc = u.mem u.pc

theorem Pending.stable (own : p = u.sp .svc - 60 ∨ p = u.sp .svc - 68) :
    Stable (TakenIn (u.sp .svc) u.pc) (Pending u p) := by
  intro s t taken pending
  exact
    { bank := by rw [State.bank, taken.cpsr, ← State.bank, pending.bank]
      sp := by rw [taken.sp.2, pending.sp]
      lr := by rw [taken.lr.2, pending.lr]
      saved := fun i => by
        rw [taken.stack _ ?_, pending.saved]
        have := i.isLt
        rw [pending.sp]
        rcases own with rfl | rfl <;> bv_omega
      code := by rw [taken.code, pending.code] }

/-- Instructions that write registers only, other than the stack pointer and the link
register. -/
theorem Pending.exec (pending : Pending u p s) (bank : (i.exec s).bank = s.bank)
    (sp : (i.exec s).sp .svc = s.sp .svc) (lr : (i.exec s).lr .svc = s.lr .svc)
    (mem : (i.exec s).mem = s.mem) : Pending u p (i.exec s) where
  bank := bank.trans pending.bank
  sp := sp.trans pending.sp
  lr := lr.trans pending.lr
  saved i := by rw [mem, pending.saved]
  code := by rw [mem, pending.code]

/-- `stmfd sp!, {r0-r12, lr}` -/
theorem pending_of_stmfd (bank : s.bank = .svc) (sp : s.sp .svc = u.sp .svc - 4) (r : s.r = u.r)
    (lr : s.lr .svc = u.pc + 4) (code : s.mem u.pc = u.mem u.pc)
    (outside : 68 ≤ (u.pc - (u.sp .svc - 68)).toNat) :
    Pending u (u.sp .svc - 60) ((Instr.stmfd .sp true allRegs).exec s) := by
  have base : s.reg .svc .sp - sizeOfRegs allRegs = u.sp .svc - 60 := by
    simp only [State.reg, sp, sizeOfRegs, allRegs, List.length_cons, List.length_nil]
    bv_omega
  have stored : ((Instr.stmfd .sp true allRegs).exec s).mem =
      storeWords s.mem (u.sp .svc - 60) (allRegs.map (s.reg .svc)) := by
    rw [Instr.stmfd_mem, bank, base]
  refine ⟨bank, ?_, lr, fun i => ?_, ?_⟩
  · rw [Instr.push_sp, bank, ← base]
    exact Function.update_self _ _ _
  · rw [stored]
    refine storeWords_word (by simp [allRegs]) ?_ rfl
    have own : ∀ i : Fin 13, allRegs[i.val]? = some (.r i) := by decide
    rw [List.getElem?_map, own i, ← r]
    rfl
  · rw [stored, storeWords_outside (by simp [allRegs]), code]
    simp only [allRegs, List.length_map, List.length_cons, List.length_nil]
    bv_omega

/-- A store to the frame, other than to the saved registers. -/
theorem Pending.write {x : Word} (pending : Pending u p s) (bank : t.bank = s.bank)
    (sp : t.sp .svc = s.sp .svc) (lr : t.lr .svc = s.lr .svc)
    (mem : ∀ y, (y - x).toNat ≥ 8 → t.mem y = s.mem y)
    (own : x = u.sp .svc - 8 ∨ x = u.sp .svc - 68)
    (outside : 68 ≤ (u.pc - (u.sp .svc - 68)).toNat) : Pending u p t where
  bank := bank.trans pending.bank
  sp := sp.trans pending.sp
  lr := lr.trans pending.lr
  saved i := by
    have := i.isLt
    rw [mem _ ?_, pending.saved]
    rcases own with rfl | rfl <;> bv_omega
  code := by
    rw [mem _ ?_, pending.code]
    rcases own with rfl | rfl <;> bv_omega

/-! ### Up to the call -/

def swiPrefix (globalData : Word) : List Instr :=
  swiEnter globalData ++ .mrsSpsr (.r 2) :: (swiSave ++ [.add .sp .sp (-8)])

/-- What comes after the call. -/
def swiRest : List Instr :=
  [.ldmfdUser .sp [.sp, .lr], .add .sp .sp 8, .ldr (.r 2) .sp 56, .msrSpsr (.r 2)] ++ swiReturn

theorem swiHandler_split (globalData : Word) (dispatch : State → State) :
    swiHandler globalData dispatch = swiPrefix globalData ++ .bl dispatch :: swiRest := rfl

theorem triple_enter (arm : u.cpsr.getLsbD 5 = false)
    (outside : 68 ≤ (u.pc - (u.sp .svc - 68)).toNat) :
    Triple Instr.exec (TakenIn (u.sp .svc) u.pc) (fun s => s = u.swi handler)
      (swiEnter globalData) (Pending u (u.sp .svc - 60)) := by
  have weaker : ∀ s t, TakenIn (u.sp .svc) u.pc s t → Taken (u.sp .svc) s t :=
    fun s t taken => taken.toTaken
  have stable : Stable (TakenIn (u.sp .svc) u.pc) (Pending u (u.sp .svc - 60)) :=
    Pending.stable (.inl rfl)
  refine Triple.cons (Q := fun s => s = (Instr.sub .sp .sp 4).exec (u.swi handler))
    ((stable_of_masked ?_).mono weaker) ?_ ?_
  · rintro s rfl
    exact State.swi_masked u handler
  · rintro s rfl
    rfl
  refine Triple.cons (Q := Pending u (u.sp .svc - 60)) ((stable_of_masked ?_).mono weaker) ?_ ?_
  · rintro s rfl
    exact State.swi_masked u handler
  · rintro s rfl
    refine pending_of_stmfd (State.swi_bank u handler) ?_ rfl ?_ rfl outside
    · simp only [Instr.exec, State.next, State.setReg, State.reg, State.swi_bank,
        Function.update_self]
      rfl
    · have lr : ((Instr.sub .sp .sp 4).exec (u.swi handler)).lr =
          Function.update u.lr .svc u.nextPc := rfl
      rw [lr, Function.update_self, State.nextPc, arm]
      rfl
  refine Triple.cons (Q := Pending u (u.sp .svc - 60)) stable ?_ ?_
  · exact fun s pending => pending.exec rfl rfl rfl rfl
  refine Triple.cons (Q := Pending u (u.sp .svc - 60)) stable ?_ ?_
  · exact fun s pending => pending.exec rfl rfl rfl rfl
  have kept {f : Word → Word} : Stable (TakenIn (u.sp .svc) u.pc) fun s => s.r 3 = f s.cpsr := by
    intro s t taken same
    rw [taken.r, taken.cpsr, same]
  refine Triple.cons (Q := fun s => Pending u (u.sp .svc - 60) s ∧ s.r 3 = s.cpsr) stable ?_ ?_
  · intro s pending
    refine ⟨pending.exec rfl rfl rfl rfl, ?_⟩
    simp only [Instr.exec, State.next, State.setReg, Function.update_self]
  refine Triple.cons (Q := fun s => Pending u (u.sp .svc - 60) s ∧ s.r 3 = s.cpsr &&& ~~~0x80)
    (stable.and (kept (f := id))) ?_ ?_
  · rintro s ⟨pending, same⟩
    refine ⟨pending.exec rfl rfl rfl rfl, ?_⟩
    simp only [Instr.exec, State.next, State.setReg, State.reg, same, Function.update_self]
  refine Triple.cons (stable.and (kept (f := fun x => x &&& ~~~0x80))) ?_ .nil
  rintro s ⟨pending, same⟩
  refine pending.exec ?_ rfl rfl rfl
  simp only [Instr.exec, State.next, State.reg, State.bank, same]
  rw [bankOf_bic (by decide)]

/-- The arguments of `swi_dispatch` are in place. -/
theorem triple_toCall (arm : u.cpsr.getLsbD 5 = false)
    (outside : 68 ≤ (u.pc - (u.sp .svc - 68)).toNat) :
    Triple Instr.exec (TakenIn (u.sp .svc) u.pc) (fun s => s = u.swi handler)
      (swiPrefix globalData)
      (fun s => (Pending u (u.sp .svc - 68) s ∧ s.r 1 = u.sp .svc - 60) ∧
        s.r 0 = u.mem u.pc &&& ~~~0xff000000) := by
  have weaker : ∀ s t, TakenIn (u.sp .svc) u.pc s t → Taken (u.sp .svc) s t :=
    fun s t taken => taken.toTaken
  have stable : Stable (TakenIn (u.sp .svc) u.pc) (Pending u (u.sp .svc - 60)) :=
    Pending.stable (.inl rfl)
  have kept {i : Fin 13} {v : Word} : Stable (TakenIn (u.sp .svc) u.pc) fun s => s.r i = v :=
    stable_r.mono weaker
  refine Triple.append (triple_enter arm outside) ?_
  refine Triple.cons (Q := Pending u (u.sp .svc - 60)) stable ?_ ?_
  · exact fun s pending => pending.exec rfl rfl rfl rfl
  refine Triple.cons (Q := Pending u (u.sp .svc - 60)) stable ?_ ?_
  · -- `str r2, [sp, #14*4]`
    intro s pending
    have slot : s.sp .svc + 56 = u.sp .svc - 4 := by
      rw [pending.sp]
      bv_omega
    refine pending.write (x := u.sp .svc - 8) rfl rfl rfl (fun y apart => ?_) (.inl rfl) outside
    have other : y ≠ u.sp .svc - 4 := by
      rintro rfl
      bv_omega
    simp only [Instr.exec, State.next, State.reg, pending.bank, slot,
      Function.update_of_ne other]
  refine Triple.cons (Q := fun s => Pending u (u.sp .svc - 60) s ∧ s.r 1 = u.sp .svc - 60)
    stable ?_ ?_
  · intro s pending
    refine ⟨pending.exec rfl rfl rfl rfl, ?_⟩
    simp [Instr.exec, State.next, State.setReg, State.reg, pending.bank, pending.sp]
  refine Triple.cons
    (Q := fun s => (Pending u (u.sp .svc - 60) s ∧ s.r 1 = u.sp .svc - 60) ∧ s.r 0 = u.mem u.pc)
    (stable.and kept) ?_ ?_
  · rintro s ⟨pending, context⟩
    refine ⟨⟨pending.exec rfl rfl rfl rfl, context⟩, ?_⟩
    have back : u.pc + 4 + -4 = u.pc := by bv_omega
    simp only [Instr.exec, State.next, State.setReg, State.reg, pending.bank, pending.lr, back,
      pending.code, Function.update_self]
  refine Triple.cons
    (Q := fun s => (Pending u (u.sp .svc - 60) s ∧ s.r 1 = u.sp .svc - 60) ∧
      s.r 0 = u.mem u.pc &&& ~~~0xff000000)
    ((stable.and kept).and kept) ?_ ?_
  · rintro s ⟨⟨pending, context⟩, number⟩
    refine ⟨⟨pending.exec rfl rfl rfl rfl, context⟩, ?_⟩
    simp only [Instr.exec, State.next, State.setReg, State.reg, number, Function.update_self]
  refine Triple.cons
    (Q := fun s => (Pending u (u.sp .svc - 60) s ∧ s.r 1 = u.sp .svc - 60) ∧
      s.r 0 = u.mem u.pc &&& ~~~0xff000000)
    ((stable.and kept).and kept) ?_ ?_
  · -- `stmfd sp, {sp, lr}^`
    rintro s ⟨⟨pending, context⟩, number⟩
    refine ⟨⟨pending.write (x := u.sp .svc - 68) rfl rfl rfl (fun y apart => ?_) (.inr rfl)
      outside, context⟩, number⟩
    have base : u.sp .svc - 60 - sizeOfRegs [.sp, .lr] = u.sp .svc - 68 := by
      simp only [sizeOfRegs, List.length_cons, List.length_nil]
      bv_omega
    simp only [Instr.exec, State.next, State.reg, pending.bank, pending.sp, base]
    exact storeWords_outside (by simp) (by simpa using apart)
  refine Triple.cons ((stable.and kept).and kept) ?_ .nil
  rintro s ⟨⟨pending, context⟩, number⟩
  refine ⟨⟨{ pending with sp := ?_ }, context⟩, number⟩
  have lowered : u.sp .svc - 60 + -8 = u.sp .svc - 68 := by bv_omega
  simp only [Instr.exec, State.next, State.setReg, State.reg, pending.bank, pending.sp, lowered,
    Function.update_self]

/-! ### After the call -/

/-- The result is in the saved r0. -/
structure Answered (top p v : Word) (s : State) : Prop where
  bank : s.bank = .svc
  sp : s.sp .svc = p
  result : s.mem (top - 60) = v

theorem Answered.stable (own : p = top - 60 ∨ p = top - 68) :
    Stable (Taken top) (Answered top p v) := by
  intro s t taken answered
  exact
    { bank := by rw [State.bank, taken.cpsr, ← State.bank, answered.bank]
      sp := by rw [taken.sp.2, answered.sp]
      result := by
        rw [taken.stack _ ?_, answered.result]
        rw [answered.sp]
        rcases own with rfl | rfl <;> bv_omega }

theorem triple_rest : Triple Instr.exec (Taken top) (Answered top (top - 68) v) swiRest
    (fun s => s.r 0 = v) := by
  have stable : Stable (Taken top) (Answered top (top - 60) v) := Answered.stable (.inl rfl)
  have other : Bank.svc ≠ .user := by decide
  refine Triple.cons (Q := Answered top (top - 68) v) (Answered.stable (.inr rfl)) ?_ ?_
  · intro s answered
    have sp : (s.loadRegs .user (s.reg s.bank .sp) [.sp, .lr]).sp .svc = s.sp .svc :=
      (State.loadRegs_of_ne other).1
    exact ⟨answered.bank, sp.trans answered.sp, answered.result⟩
  refine Triple.cons (Q := Answered top (top - 60) v) (Answered.stable (.inr rfl)) ?_ ?_
  · intro s answered
    refine { answered with sp := ?_ }
    have raised : top - 68 + 8 = top - 60 := by bv_omega
    simp only [Instr.exec, State.next, State.setReg, State.reg, answered.bank, answered.sp, raised,
      Function.update_self]
  refine Triple.cons (Q := Answered top (top - 60) v) stable ?_ ?_
  · exact fun s answered => { answered with }
  refine Triple.cons (Q := Answered top (top - 60) v) stable ?_ ?_
  · exact fun s answered => { answered with }
  refine Triple.cons (Q := fun s => s.r 0 = v) stable ?_ ?_
  · intro s answered
    have popped : ((Instr.ldmfd .sp true allRegs).exec s).r 0 =
        s.mem (s.sp s.bank + BitVec.ofNat 32 (4 * 0)) :=
      Instr.pop_reg (q := .r 0) (by decide : allRegs.Nodup) rfl
    rw [popped, answered.bank, answered.sp, ← answered.result]
    simp
  refine Triple.cons (Q := fun s => s.r 0 = v) stable_r (fun s same => same) ?_
  exact Triple.cons stable_r (fun s same => same) .nil

/-- Wherever `swi_handler` is interrupted: `swi_dispatch` gets the number in the `swi` and the
registers of the program, and the program gets what `swi_dispatch` writes to the saved r0. -/
theorem swi_result (arm : u.cpsr.getLsbD 5 = false)
    (outside : 68 ≤ (u.pc - (u.sp .svc - 68)).toNat) (dispatches : Dispatches (u.sp .svc) dispatch)
    (run : Runs Instr.exec (TakenIn (u.sp .svc) u.pc) (swiHandler globalData dispatch)
      (u.swi handler) w s') :
    ∃ e, Calls u e ∧ s'.r 0 = (dispatch e).mem (u.sp .svc - 60) := by
  rw [swiHandler_split] at run
  obtain ⟨v, _, s, rfl, entered, run⟩ := Runs.append_iff.mp run
  obtain ⟨ts, w', t, rfl, resumed, rest⟩ := Runs.cons_iff.mp run
  have weaker : ∀ s t, TakenIn (u.sp .svc) u.pc s t → Taken (u.sp .svc) s t :=
    fun s t taken => taken.toTaken
  have stable : Stable (TakenIn (u.sp .svc) u.pc) fun s =>
      (Pending u (u.sp .svc - 68) s ∧ s.r 1 = u.sp .svc - 60) ∧
        s.r 0 = u.mem u.pc &&& ~~~0xff000000 :=
    ((Pending.stable (.inr rfl)).and (stable_r.mono weaker)).and (stable_r.mono weaker)
  obtain ⟨⟨pending, context⟩, number⟩ :=
    resumed.keeps stable (triple_toCall arm outside _ _ _ entered rfl)
  let e : State := { t with lr := Function.update t.lr t.bank (t.pc + 4) }
  have calls : Calls u e := ⟨pending.bank, pending.sp, number, context, pending.saved⟩
  have dispatched := dispatches e pending.bank pending.sp context
  have sp := dispatched.sp
  rw [calls.bank, calls.sp] at sp
  have answered : Answered (u.sp .svc) (u.sp .svc - 68) ((dispatch e).mem (u.sp .svc - 60))
      (dispatch e) :=
    ⟨dispatched.bank.trans calls.bank, sp, rfl⟩
  exact ⟨e, calls, triple_rest _ _ _ (rest.mono weaker) answered⟩

/-! ### The whole call -/

/-- The stub has returned to its caller, with a result in r0. -/
structure StubReturn (u : State) (mem : Word → Word) (result : Word) (t : State) : Prop where
  bank : t.bank = .user
  pc : t.pc = u.lr .user
  sp : t.sp .user = u.sp .user
  r : ∀ i, i ≠ 0 → i ≠ 3 → t.r i = u.r i
  result : t.r 0 = result
  mem : t.mem = mem

variable {base errno : Word} {c : SysCall} {serve : SysCall → State → State}
  {invalidSyscall : State → State}

/-- What a stub makes of a result. -/
theorem SysCall.reaches_stub (errno : Word) (c : SysCall) (user : s.bank = .user)
    (at_1 : At base 1 s) (result : s.r 0 = v) :
    ∃ t, Reaches base (c.stub errno) s t ∧
      if c.CanFail ∧ v.msb = true then
        StubReturn s (Function.update s.mem errno (-v)) (-1) t
      else StubReturn s s.mem v t := by
  by_cases fails : c.CanFail
  · have code : c.stub errno = _ := if_pos fails
    rw [code]
    let s₂ := (Op.cmp (.r 0) 0).exec base s
    have bank₂ : s₂.bank = .user := State.compare_bank.trans user
    have neg₂ : s₂.isNeg = v.msb := by
      have flag : s₂.isNeg = (s.r 0 - 0).msb := State.isNeg_compare
      rw [flag, result]
      simp
    have at_2 : At base 2 s₂ := at_1.succ rfl
    cases negative : v.msb with
    | false =>
      let s₃ : State := { s₂ with pc := base + BitVec.ofNat 32 (4 * 7) }
      have branch : (Op.bpl 7).exec base s₂ = s₃ := by simp [Op.exec, neg₂, negative, s₃]
      have at_7 : At base 7 s₃ := rfl
      refine ⟨(Op.movPc .lr).exec base s₃, ?_, ?_⟩
      · refine Reaches.head at_1 (by decide) rfl (by simp) ?_
        refine Reaches.head at_2 (by decide) rfl (by simp) ?_
        rw [branch]
        exact Reaches.head at_7 (by decide) rfl (by simp) .refl
      · simp only [Bool.false_eq_true, and_false, if_false]
        exact ⟨bank₂, congrArg s.lr bank₂, rfl, fun _ _ _ => rfl, result, rfl⟩
    | true =>
      let s₃ := s₂.next
      have stay : (Op.bpl 7).exec base s₂ = s₃ := by simp [Op.exec, neg₂, negative, s₃]
      have at_3 : At base 3 s₃ := at_2.succ rfl
      let s₄ := (Op.rsb (.r 0) (.r 0) 0).exec base s₃
      have at_4 : At base 4 s₄ := at_3.succ rfl
      let s₅ := (Op.instr (.ldrConst (.r 3) errno)).exec base s₄
      have at_5 : At base 5 s₅ := at_4.succ rfl
      let s₆ := (Op.instr (.str (.r 0) (.r 3) 0)).exec base s₅
      have at_6 : At base 6 s₆ := at_5.succ rfl
      let s₇ := (Op.movImm (.r 0) (-1)).exec base s₆
      have at_7 : At base 7 s₇ := at_6.succ rfl
      have r₅ : s₅.r = Function.update (Function.update s.r 0 (0 - s.r 0)) 3 errno := rfl
      have r₇ : s₇.r = Function.update s₅.r 0 (-1) := rfl
      have mem₇ : s₇.mem = Function.update s.mem (s₅.r 3 + 0) (s₅.r 0) := rfl
      refine ⟨(Op.movPc .lr).exec base s₇, ?_, ?_⟩
      · refine Reaches.head at_1 (by decide) rfl (by simp) ?_
        refine Reaches.head at_2 (by decide) rfl (by simp) ?_
        rw [stay]
        refine Reaches.head at_3 (by decide) rfl (by simp) ?_
        refine Reaches.head at_4 (by decide) rfl (by simp) ?_
        refine Reaches.head at_5 (by decide) rfl (by simp) ?_
        refine Reaches.head at_6 (by decide) rfl (by simp) ?_
        exact Reaches.head at_7 (by decide) rfl (by simp) .refl
      · rw [if_pos ⟨fails, rfl⟩]
        refine ⟨bank₂, congrArg s.lr bank₂, rfl, fun i low high => ?_, ?_, ?_⟩
        · change s₇.r i = s.r i
          rw [r₇, r₅, Function.update_of_ne low, Function.update_of_ne high,
            Function.update_of_ne low]
        · change s₇.r 0 = -1
          rw [r₇, Function.update_self]
        · change s₇.mem = _
          have zero : (0 : Fin 13) ≠ 3 := by decide
          rw [mem₇, r₅, Function.update_self, Function.update_of_ne zero, Function.update_self,
            result]
          simp
  · have code : c.stub errno = _ := if_neg fails
    rw [code]
    refine ⟨(Op.movPc .lr).exec base s, ?_, ?_⟩
    · exact Reaches.head at_1 (by decide) rfl (by simp) .refl
    · simp only [fails, false_and, if_false]
      exact ⟨user, congrArg s.lr user, rfl, fun _ _ _ => rfl, result, rfl⟩

/-- A system call, from the `swi` in its stub to the return of the stub. Wherever the handler is
interrupted, the call is the one the stub is for, it gets the arguments of the caller, and what it
has written to the saved r0 comes back in r0. If the interrupts were where they do no harm, the
stub returns this result, or -1 with its negative in `errno`, and the caller finds its registers
unchanged. -/
theorem SysCall.stub_returns (c : SysCall) (errno : Word) (user : u.bank = .user)
    (arm : u.cpsr.getLsbD 5 = false) (entry : u.mem u.pc = c.word)
    (outside : 68 ≤ (u.pc - (u.sp .svc - 68)).toNat)
    (dispatches : Dispatches (u.sp .svc) (swiDispatch serve invalidSyscall))
    (run : Runs Instr.exec (TakenIn (u.sp .svc) u.pc)
      (swiHandler globalData (swiDispatch serve invalidSyscall)) (u.swi handler) w s') :
    ∃ e, Calls u e ∧ s'.r 0 = (serve c e).mem (u.sp .svc - 60) ∧
      (Harmless (u.sp .svc) w → ∃ t, Reaches u.pc (c.stub errno) s' t ∧
        if c.CanFail ∧ ((serve c e).mem (u.sp .svc - 60)).msb = true then
          StubReturn u (Function.update s'.mem errno (-(serve c e).mem (u.sp .svc - 60))) (-1) t
        else StubReturn u s'.mem ((serve c e).mem (u.sp .svc - 60)) t) := by
  obtain ⟨e, calls, result⟩ := swi_result arm outside dispatches run
  have served : swiDispatch serve invalidSyscall e = serve c e := by
    rw [swiDispatch, calls.number, entry, SysCall.ofNumber_word]
  rw [served] at result
  refine ⟨e, calls, result, fun harmless => ?_⟩
  have preserved : Preserved u s' :=
    preserved_of_harmless dispatches (run.mono fun _ _ taken => taken.toTaken) harmless
  have bank : s'.bank = .user := by rw [State.bank, preserved.cpsr, ← State.bank, user]
  have at_1 : At u.pc 1 s' := by
    rw [At, preserved.pc, State.nextPc, arm]
    rfl
  obtain ⟨t, reached, returned⟩ := SysCall.reaches_stub errno c bank at_1 result
  refine ⟨t, reached, ?_⟩
  -- The program that goes on after the handler has the registers of the caller.
  have back {mem : Word → Word} {v : Word} (returns : StubReturn s' mem v t) :
      StubReturn u mem v t :=
    { returns with
      pc := returns.pc.trans preserved.lr
      sp := returns.sp.trans preserved.sp
      r := fun i low high => (returns.r i low high).trans (preserved.r i low) }
  split at returned
  · rename_i failed
    rw [if_pos failed]
    exact back returned
  · rename_i succeeded
    rw [if_neg succeeded]
    exact back returned

/-- A call that fails with `EINVAL`. -/
def refuse (s : State) : State :=
  { s with mem := Function.update s.mem (s.r 1) (-22), pc := s.lr s.bank }

theorem dispatches_refuse (top : Word) :
    Dispatches top (swiDispatch (fun _ => refuse) refuse) := by
  intro s bank sp context
  have same : swiDispatch (fun _ => refuse) refuse s = refuse s := by
    unfold swiDispatch
    split <;> rfl
  rw [same]
  exact ⟨⟨rfl, rfl, fun _ _ _ => rfl, rfl⟩, fun x _ other => Function.update_of_ne other _ _⟩

/-- A program in the stub of `event_wait`. -/
def eventWaiter : State :=
  { timeCaller with mem := fun x => if x = 0xa0001000 then SysCall.eventWait.word else 0 }

/-- There is a timer interrupt before `swi_dispatch` is called. -/
theorem SysCall.stub_returns_refused :
    ∃ w s' t, Runs Instr.exec (TakenIn (eventWaiter.sp .svc) eventWaiter.pc)
        (swiHandler 0xa3000100 (swiDispatch (fun _ => refuse) refuse))
        (eventWaiter.swi 0xa3000200) w s' ∧ w.flatten ≠ [] ∧
      Reaches eventWaiter.pc (SysCall.eventWait.stub 0xa0002000) s' t ∧
        t.r 0 = -1 ∧ t.mem 0xa0002000 = 22 := by
  let s := straight Instr.exec (swiPrefix 0xa3000100) (eventWaiter.swi 0xa3000200)
  have sp : s.sp .svc = 0xa300ffbc := by decide +kernel
  have taken : TakenIn (eventWaiter.sp .svc) eventWaiter.pc s
      (afterIrq 0xa3000100 0xa3000300 tickIrq s) := by
    apply takenIn_of_irqHandler
    · decide +kernel
    · rw [KernelStack, sp]
      decide
    · rw [sp]
      decide
    · rw [sp]
      exact handles_tickIrq (by decide)
    · rw [sp]
      exact keeps_tickIrq (by decide)
    · exact ⟨by decide, by decide⟩
    · decide
  have run : Runs Instr.exec (TakenIn (eventWaiter.sp .svc) eventWaiter.pc)
      (swiHandler 0xa3000100 (swiDispatch (fun _ => refuse) refuse))
      (eventWaiter.swi 0xa3000200) _ _ :=
    Runs.append_iff.mpr ⟨_, _, s, rfl, .straight (swiPrefix 0xa3000100) _,
      .cons (.cons taken (.nil _)) (.straight swiRest _)⟩
  obtain ⟨e, calls, -, returns⟩ := SysCall.stub_returns .eventWait 0xa0002000 (by decide)
    (by decide) (by decide) (by decide) (dispatches_refuse _) run
  obtain ⟨t, reached, returned⟩ := returns { status := rfl, below := nofun }
  have answer : (refuse e).mem (eventWaiter.sp .svc - 60) = -22 := by
    simp only [refuse, calls.context, Function.update_self]
  rw [answer, if_pos (by decide)] at returned
  refine ⟨_, _, t, run, nofun, reached, returned.result, ?_⟩
  rw [returned.mem, Function.update_self]
  rfl

end Gravel
