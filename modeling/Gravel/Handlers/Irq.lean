import Gravel.Handlers.Swi

/-!
# Timer interrupts and the interrupted code

`irq_handler`, around a `C_IRQ_handler` that does not switch tasks. The handler leaves IRQ mode
at once: r0 and r1 go through two words of user memory, and everything else is saved on the
stack of supervisor mode.

## Main definitions

* `irqHandler` — the instructions
* `Handled` — what is expected of `C_IRQ_handler`
* `afterIrq` — an interrupt, from the instruction it is taken at to the return
* `SameContext` — the registers of the interrupted code

## Main results

* `irqHandler_transparent` — what an interrupt leaves alone
* `irqHandler_visible` — it does not leave `spsr_svc` and the two words of user memory
* `taken_of_irqHandler` — in supervisor mode it is what `swi_handler` is analysed with
-/

namespace Gravel

open Library Library.Arm

/-- `irq_handler`, with the address of `global_data` and what `C_IRQ_handler` does. -/
def irqHandler (globalData : Word) (cIrqHandler : State → State) : List Instr :=
  [ .sub .lr .lr 4,
    .ldrConst .sp 0xa2000000,
    .stmfd .sp true [.r 0, .r 1],
    .mrsSpsr (.r 0),
    .mov (.r 1) .lr,
    .msrCpsrC 0x93,
    .msrSpsr (.r 0),
    .stmfd .sp true [.r 1],
    .ldrConst (.r 1) 0xa1fffff8,
    .ldmfd (.r 1) false [.r 0, .r 1],
    .stmfd .sp true [.r 0, .r 1, .r 2, .r 3, .r 8, .r 12, .lr],
    .mrsSpsr (.r 0),
    .stmfdUser .sp [.r 0, .sp, .lr],
    .add .sp .sp (-12),
    .ldrConst (.r 12) globalData,
    .ldr (.r 8) (.r 12) 0,
    .bl cIrqHandler,
    .ldmfdUser .sp [.r 0, .sp, .lr],
    .add .sp .sp 12,
    .msrSpsr (.r 0),
    .ldmfdReturn .sp [.r 0, .r 1, .r 2, .r 3, .r 8, .r 12, .lr] ]

/-- What `irq_handler` relies on: `C_IRQ_handler` keeps to the procedure call standard, leaves
the frame of its caller, and writes kernel memory only. -/
structure Handled (s t : State) : Prop extends s.Conforms t where
  frame : ∀ x, (x - s.sp .svc).toNat < 44 → t.mem x = s.mem x
  user : ∀ x, x.toNat < 0xa3000000 → t.mem x = s.mem x

/-- `C_IRQ_handler`, as `irq_handler` calls it on the stack below `top`. -/
def Handles (top : Word) (cIrqHandler : State → State) : Prop :=
  ∀ s : State, s.bank = .svc → s.sp .svc = top - 44 → Handled s (cIrqHandler s)

/-- The interrupt is taken in the first state, and the handler leads to the second. -/
def afterIrq (globalData handler : Word) (cIrqHandler : State → State) (s : State) : State :=
  straight Instr.exec (irqHandler globalData cIrqHandler) (s.irq handler)

/-- The registers of the interrupted code are what they were. -/
structure SameContext (s t : State) : Prop where
  r : t.r = s.r
  sp : t.sp .user = s.sp .user ∧ t.sp .svc = s.sp .svc
  lr : t.lr .user = s.lr .user ∧ t.lr .svc = s.lr .svc
  pc : t.pc = s.pc
  cpsr : t.cpsr = s.cpsr

/-! ### The pieces of the handler -/

def irqEnter : List Instr :=
  [.sub .lr .lr 4, .ldrConst .sp 0xa2000000, .stmfd .sp true [.r 0, .r 1], .mrsSpsr (.r 0),
    .mov (.r 1) .lr, .msrCpsrC 0x93]

def irqMove : List Instr :=
  [.msrSpsr (.r 0), .stmfd .sp true [.r 1], .ldrConst (.r 1) 0xa1fffff8,
    .ldmfd (.r 1) false [.r 0, .r 1]]

/-- The registers that a callee may change, in the order of the stack. -/
def callerSaved : List Reg := [.r 0, .r 1, .r 2, .r 3, .r 8, .r 12, .lr]

def irqSave (globalData : Word) : List Instr :=
  [.stmfd .sp true callerSaved, .mrsSpsr (.r 0), .stmfdUser .sp [.r 0, .sp, .lr],
    .add .sp .sp (-12), .ldrConst (.r 12) globalData, .ldr (.r 8) (.r 12) 0]

def irqRestore : List Instr :=
  [.ldmfdUser .sp [.r 0, .sp, .lr], .add .sp .sp 12, .msrSpsr (.r 0)]

theorem irqHandler_eq (globalData : Word) (cIrqHandler : State → State) :
    irqHandler globalData cIrqHandler =
      irqEnter ++ (irqMove ++ (irqSave globalData ++ .bl cIrqHandler :: (irqRestore ++
        [.ldmfdReturn .sp callerSaved]))) := rfl

/-- `C_IRQ_handler` leaves the words `K`. -/
def Keeps (K : Word → Prop) (top : Word) (cIrqHandler : State → State) : Prop :=
  ∀ s : State, s.bank = .svc → s.sp .svc = top - 44 → ∀ x, K x → (cIrqHandler s).mem x = s.mem x

variable {K : Word → Prop} {s e t : State} {x globalData handler : Word}
  {cIrqHandler : State → State}

/-- The memory with r0 and r1 in the words below 0xa2000000. -/
def spilled (s : State) : Word → Word :=
  Function.update (Function.update s.mem 0xa1fffff8 (s.r 0)) 0xa1fffffc (s.r 1)

/-- In supervisor mode, with `spsr` and the return address in r0 and r1. -/
structure Moved (s e : State) : Prop where
  bank : e.bank = .svc
  r0 : e.r 0 = s.cpsr
  r1 : e.r 1 = s.pc
  r : ∀ i, i ≠ 0 → i ≠ 1 → e.r i = s.r i
  sp : e.sp .user = s.sp .user ∧ e.sp .svc = s.sp .svc
  lr : e.lr .user = s.lr .user ∧ e.lr .svc = s.lr .svc
  mem : e.mem = spilled s

theorem moved_of_irq (s : State) (handler : Word) :
    Moved s (straight Instr.exec irqEnter (s.irq handler)) := by
  have irq : ∀ x : Word, bankOf (x &&& ~~~0x3f ||| 0x92) = .irq := fun x =>
    (bankOf_write (by decide)).trans (by decide)
  have svc : ∀ x : Word, bankOf (x &&& ~~~0xff ||| (0x93 : BitVec 8).zeroExtend 32) = .svc :=
    fun x => (bankOf_write (by decide)).trans (by decide)
  have back : s.pc + 4 - 4 = s.pc := by bv_omega
  have base : (0xa2000000 : Word) - sizeOfRegs [.r 0, .r 1] = 0xa1fffff8 := by decide
  have second : (0xa1fffff8 : Word) + 4 = 0xa1fffffc := by decide
  constructor
  all_goals
    simp only [irqEnter, straight, List.foldl, State.irq, Instr.exec, State.next, State.setReg,
      State.reg, State.bank, irq, svc, if_true, Function.update_self, back, base, List.map,
      storeWords, second, spilled]
  case r0 => rw [Function.update_of_ne (by decide), Function.update_self]
  case r =>
    intro i other other'
    rw [Function.update_of_ne other', Function.update_of_ne other]
  case sp =>
    rw [Function.update_idem, Function.update_of_ne (by decide), Function.update_of_ne (by decide)]
    exact ⟨rfl, rfl⟩
  case lr =>
    rw [Function.update_idem, Function.update_of_ne (by decide), Function.update_of_ne (by decide)]
    exact ⟨rfl, rfl⟩

/-- The stack of supervisor mode is in kernel memory, with room for the frame: it is the
`kstack` of a TCB, or the one that the boot program got from the loader. -/
def KernelStack (s : State) : Prop := 0xa3000000 + 44 ≤ (s.sp .svc).toNat

/-- The interrupted registers again, with `spsr` set and the return address on the stack. -/
structure Unpacked (s e : State) : Prop where
  bank : e.bank = .svc
  r : e.r = s.r
  sp : e.sp .user = s.sp .user ∧ e.sp .svc = s.sp .svc - 4
  lr : e.lr .user = s.lr .user ∧ e.lr .svc = s.lr .svc
  spsr : e.spsr .svc = s.cpsr
  mem : e.mem = Function.update (spilled s) (s.sp .svc - 4) s.pc

theorem Moved.unpacked (moved : Moved s e) (stack : KernelStack s) :
    Unpacked s (straight Instr.exec irqMove e) := by
  have bank : bankOf e.cpsr = .svc := moved.bank
  have one : sizeOfRegs [.r 1] = 4 := rfl
  have second : (0xa1fffff8 : Word) + 4 = 0xa1fffffc := by decide
  have top : (0xa3000000 : ℕ) + 44 ≤ (s.sp .svc).toNat := stack
  -- What `ldm r1, {r0, r1}` reads is not overwritten by the push before it.
  have spilled₀ : Function.update (spilled s) (s.sp .svc - 4) s.pc 0xa1fffff8 = s.r 0 := by
    rw [Function.update_of_ne (by bv_omega), spilled, Function.update_of_ne (by decide),
      Function.update_self]
  have spilled₁ : Function.update (spilled s) (s.sp .svc - 4) s.pc 0xa1fffffc = s.r 1 := by
    rw [Function.update_of_ne (by bv_omega), spilled, Function.update_self]
  constructor
  all_goals
    simp only [irqMove, straight, List.foldl, Instr.exec, State.next, State.setReg, State.reg,
      State.bank, bank, if_true, Bool.false_eq_true, if_false, Function.update_self, List.map,
      State.loadRegs, storeWords, one, second, moved.sp.2, moved.r0, moved.r1, moved.mem, spilled₀,
      spilled₁]
  case r =>
    funext i
    by_cases first : i = 1
    · subst first
      rw [Function.update_self]
    · by_cases zero : i = 0
      · subst zero
        rw [Function.update_of_ne first, Function.update_self]
      · rw [Function.update_of_ne first, Function.update_of_ne zero, Function.update_of_ne first,
          moved.r i zero first]
  case sp =>
    rw [Function.update_of_ne (by decide)]
    exact ⟨moved.sp.1, trivial⟩
  case lr => exact moved.lr

/-- The memory with the frame of `irq_handler` on the stack of supervisor mode. -/
def frameMem (s : State) : Word → Word :=
  storeWords
    (storeWords (Function.update (spilled s) (s.sp .svc - 4) s.pc) (s.sp .svc - 32)
      (callerSaved.map (s.reg .svc)))
    (s.sp .svc - 44) [s.cpsr, s.sp .user, s.lr .user]

/-- The words of the frame, and the words `K` of other memory. -/
structure IrqFrame (K : Word → Prop) (s : State) (m : Word → Word) : Prop where
  cpsr : m (s.sp .svc - 44) = s.cpsr
  user : m (s.sp .svc - 40) = s.sp .user ∧ m (s.sp .svc - 36) = s.lr .user
  saved : ∀ (k : ℕ) (q : Reg), callerSaved[k]? = some q →
    m (s.sp .svc - 32 + BitVec.ofNat 32 (4 * k)) = s.reg .svc q
  pc : m (s.sp .svc - 4) = s.pc
  mem : ∀ x, K x → m x = spilled s x

/-- No word of `K` is in the frame. -/
def ApartFromFrame (K : Word → Prop) (s : State) : Prop :=
  ∀ x, K x → 44 ≤ (x - (s.sp .svc - 44)).toNat

theorem irqFrame_frameMem (apart : ApartFromFrame K s) : IrqFrame K s (frameMem s) := by
  have length : (callerSaved.map (s.reg .svc)).length = 7 := rfl
  have above : ∀ x, 12 ≤ (x - (s.sp .svc - 44)).toNat → frameMem s x =
      storeWords (Function.update (spilled s) (s.sp .svc - 4) s.pc) (s.sp .svc - 32)
        (callerSaved.map (s.reg .svc)) x :=
    fun x outside => storeWords_outside (by simp) outside
  constructor
  · exact storeWords_word (k := 0) (by simp) rfl (by simp)
  · exact ⟨storeWords_word (k := 1) (by simp) rfl (by bv_omega),
      storeWords_word (k := 2) (by simp) rfl (by bv_omega)⟩
  · intro k q own
    have inside : k < 7 := (List.getElem?_eq_some_iff.mp own).1
    rw [above _ (by bv_omega)]
    refine storeWords_word (by rw [length]; decide) ?_ rfl
    rw [List.getElem?_map, own]
    rfl
  · rw [above _ (by bv_omega), storeWords_outside (by rw [length]; decide)
      (by rw [length]; bv_omega), Function.update_self]
  · intro x member
    have := apart x member
    rw [above _ (by bv_omega), storeWords_outside (by rw [length]; decide)
      (by rw [length]; bv_omega), Function.update_of_ne (by bv_omega)]

/-- Where `C_IRQ_handler` is called, and where it returns. -/
structure AtCall (K : Word → Prop) (s e : State) : Prop where
  bank : e.bank = .svc
  sp : e.sp .svc = s.sp .svc - 44
  r : ∀ i : Fin 13, 4 ≤ i.val → i.val ≤ 11 → i ≠ 8 → e.r i = s.r i
  frame : IrqFrame K s e.mem

theorem Unpacked.atCall (unpacked : Unpacked s e) (apart : ApartFromFrame K s)
    (globalData : Word) : AtCall K s (straight Instr.exec (irqSave globalData) e) := by
  have bank : bankOf e.cpsr = .svc := unpacked.bank
  have seven : s.sp .svc - 4 - sizeOfRegs callerSaved = s.sp .svc - 32 := by
    simp only [sizeOfRegs, callerSaved, List.length_cons, List.length_nil]
    bv_omega
  have three : s.sp .svc - 32 - sizeOfRegs [.r 0, .sp, .lr] = s.sp .svc - 44 := by
    simp only [sizeOfRegs, List.length_cons, List.length_nil]
    bv_omega
  have lowered : s.sp .svc - 32 + -12 = s.sp .svc - 44 := by bv_omega
  have same : callerSaved.map (e.reg .svc) = callerSaved.map (s.reg .svc) := by
    simp only [callerSaved, List.map, State.reg, unpacked.r, unpacked.lr]
  have user : ∀ v, Function.update e.sp .svc v .user = s.sp .user := fun v => by
    rw [Function.update_of_ne (by decide), unpacked.sp.1]
  have mem : (straight Instr.exec (irqSave globalData) e).mem = frameMem s := by
    simp only [irqSave, straight, List.foldl, Instr.exec, State.next, State.setReg, State.reg,
      State.bank, bank, if_true, Function.update_self, List.map, unpacked.sp.2, seven, three,
      unpacked.mem, unpacked.spsr, unpacked.lr, user, frameMem]
    rw [← same]
  constructor
  case frame =>
    rw [mem]
    exact irqFrame_frameMem apart
  all_goals
    simp only [irqSave, straight, List.foldl, Instr.exec, State.next, State.setReg, State.reg,
      State.bank, bank, if_true, Function.update_self, List.map, unpacked.sp.2, seven,
      lowered, unpacked.mem, unpacked.spsr, unpacked.r]
  case r =>
    intro i low high other
    have : i ≠ 12 := by rintro rfl; simp at high
    have : i ≠ 0 := by rintro rfl; simp at low
    rw [Function.update_of_ne ‹i ≠ 8›, Function.update_of_ne ‹i ≠ 12›,
      Function.update_of_ne ‹i ≠ 0›]

theorem IrqFrame.congr {m m' : Word → Word} (frame : IrqFrame K s m)
    (words : ∀ x, (x - (s.sp .svc - 44)).toNat < 44 → m' x = m x)
    (kept : ∀ x, K x → m' x = m x) : IrqFrame K s m' where
  cpsr := by rw [words _ (by bv_omega), frame.cpsr]
  user := by
    rw [words _ (by bv_omega), words _ (by bv_omega)]
    exact frame.user
  saved k q own := by
    have inside : k < 7 := (List.getElem?_eq_some_iff.mp own).1
    rw [words _ (by bv_omega), frame.saved k q own]
  pc := by rw [words _ (by bv_omega), frame.pc]
  mem x member := by rw [kept x member, frame.mem x member]

theorem AtCall.bl (atCall : AtCall K s e) (handles : Handles (s.sp .svc) cIrqHandler)
    (keeps : Keeps K (s.sp .svc) cIrqHandler) : AtCall K s ((Instr.bl cIrqHandler).exec e) := by
  have handled := handles { e with lr := Function.update e.lr e.bank (e.pc + 4) } atCall.bank
    atCall.sp
  have bank : State.bank { e with lr := Function.update e.lr e.bank (e.pc + 4) } = .svc :=
    atCall.bank
  have sp := handled.sp
  rw [bank] at sp
  have frame := handled.frame
  simp only [atCall.sp] at frame
  exact
    { bank := handled.bank.trans bank
      sp := sp.trans atCall.sp
      r := fun i low high other => (handled.saved i low high).trans (atCall.r i low high other)
      frame := atCall.frame.congr frame (keeps _ atCall.bank atCall.sp) }

/-- The registers of user mode and `spsr` are back, and the rest is on the stack. -/
structure AtReturn (K : Word → Prop) (s e : State) : Prop where
  bank : e.bank = .svc
  sp : e.sp .user = s.sp .user ∧ e.sp .svc = s.sp .svc - 32
  lr : e.lr .user = s.lr .user
  spsr : e.spsr .svc = s.cpsr
  r : ∀ i : Fin 13, 4 ≤ i.val → i.val ≤ 11 → i ≠ 8 → e.r i = s.r i
  frame : IrqFrame K s e.mem

theorem AtCall.atReturn (atCall : AtCall K s e) :
    AtReturn K s (straight Instr.exec irqRestore e) := by
  have bank : bankOf e.cpsr = .svc := atCall.bank
  have second : s.sp .svc - 44 + 4 = s.sp .svc - 40 := by bv_omega
  have third : s.sp .svc - 40 + 4 = s.sp .svc - 36 := by bv_omega
  have raised : s.sp .svc - 44 + 12 = s.sp .svc - 32 := by bv_omega
  have kept : ∀ v, Function.update e.sp .user v .svc = s.sp .svc - 44 := fun v => by
    rw [Function.update_of_ne (by decide), atCall.sp]
  constructor
  case frame => exact atCall.frame
  all_goals
    simp only [irqRestore, straight, List.foldl, Instr.exec, State.next, State.setReg, State.reg,
      State.bank, bank, Function.update_self, State.loadRegs, atCall.sp, second, third, raised,
      kept, atCall.frame.cpsr, atCall.frame.user]
  case sp =>
    rw [Function.update_of_ne (by decide), Function.update_self]
    exact ⟨rfl, trivial⟩
  case r =>
    intro i low high other
    have : i ≠ 0 := by rintro rfl; simp at low
    rw [Function.update_of_ne ‹i ≠ 0›, atCall.r i low high other]

/-- `ldmfd sp!, {r0-r3, r8, ip, lr, pc}^` -/
theorem AtReturn.sameContext (atReturn : AtReturn K s e) :
    SameContext s ((Instr.ldmfdReturn .sp callerSaved).exec e) := by
  have distinct : callerSaved.Nodup := by decide
  have size : sizeOfRegs callerSaved = 28 := rfl
  have other : Bank.user ≠ e.bank := by rw [atReturn.bank]; decide
  have word {k : ℕ} {q : Reg} (own : callerSaved[k]? = some q) :
      ((Instr.ldmfdReturn .sp callerSaved).exec e).reg .svc q = s.reg .svc q := by
    have loaded := Instr.ret_reg (s := e) distinct own
    rwa [atReturn.bank, atReturn.sp.2, atReturn.frame.saved k q own] at loaded
  constructor
  · funext i
    by_cases member : Reg.r i ∈ callerSaved
    · obtain ⟨k, own⟩ := List.getElem?_of_mem member
      exact word own
    · have calleeSaved : ∀ i : Fin 13, Reg.r i ∉ callerSaved →
          4 ≤ i.val ∧ i.val ≤ 11 ∧ i ≠ 8 := by decide
      obtain ⟨low, high, apart⟩ := calleeSaved i member
      rw [← atReturn.r i low high apart]
      exact Instr.ret_of_notMem (b := .svc) member
  · refine ⟨(Instr.ret_of_ne other).1.trans atReturn.sp.1, ?_⟩
    have moved := Instr.ret_of_notMem (s := e) (b := .svc) (by decide : Reg.sp ∉ callerSaved)
    rw [atReturn.bank, if_pos ⟨rfl, rfl⟩, atReturn.sp.2, size] at moved
    refine moved.trans ?_
    bv_omega
  · refine ⟨(Instr.ret_of_ne other).2.trans atReturn.lr, ?_⟩
    have own : callerSaved[6]? = some .lr := rfl
    exact word own
  · have last : s.sp .svc - 32 + 28 = s.sp .svc - 4 := by bv_omega
    simp only [Instr.exec, State.reg, atReturn.bank, atReturn.sp.2, size, last, atReturn.frame.pc]
  · simp only [Instr.exec, atReturn.bank, atReturn.spsr]

/-- Up to the last instruction. -/
theorem atReturn_of_irq (globalData handler : Word) (stack : KernelStack s)
    (apart : ApartFromFrame K s) (handles : Handles (s.sp .svc) cIrqHandler)
    (keeps : Keeps K (s.sp .svc) cIrqHandler) :
    ∃ e, AtReturn K s e ∧
      afterIrq globalData handler cIrqHandler s = (Instr.ldmfdReturn .sp callerSaved).exec e := by
  have called := ((moved_of_irq s handler).unpacked stack).atCall apart globalData
  refine ⟨_, (called.bl handles keeps).atReturn, ?_⟩
  rw [afterIrq, irqHandler_eq, straight_append, straight_append, straight_append, straight_cons,
    straight_append, straight_cons]
  rfl

/-- The words of the temporary stack. -/
def scratch : List Word := [0xa1fffff8, 0xa1fffffc]

/-- The memory of the user. -/
def UserWord (x : Word) : Prop := 0xa0000000 ≤ x.toNat ∧ x.toNat < 0xa3000000

theorem mem_afterIrq (stack : KernelStack s) (handles : Handles (s.sp .svc) cIrqHandler)
    (user : UserWord x) (other : x ∉ scratch) :
    (afterIrq globalData handler cIrqHandler s).mem x = s.mem x := by
  have top : (0xa3000000 : ℕ) + 44 ≤ (s.sp .svc).toNat := stack
  have apart : ApartFromFrame UserWord s := by
    rintro x ⟨-, below⟩
    bv_omega
  obtain ⟨e, atReturn, after⟩ := atReturn_of_irq globalData handler stack apart handles
    fun e bank sp x user => (handles e bank sp).user x user.2
  obtain ⟨first, second⟩ : x ≠ 0xa1fffff8 ∧ x ≠ 0xa1fffffc := by simpa [scratch] using other
  rw [after, Instr.ret_mem, atReturn.frame.mem x user, spilled, Function.update_of_ne second,
    Function.update_of_ne first]

/-- The interrupted code goes on with its registers, `spsr_svc` apart, and user memory is what it
was but for the temporary stack. -/
theorem irqHandler_transparent (stack : KernelStack s) (handles : Handles (s.sp .svc) cIrqHandler) :
    SameContext s (afterIrq globalData handler cIrqHandler s) ∧
      (afterIrq globalData handler cIrqHandler s).spsr .svc = s.cpsr ∧
      ∀ x, UserWord x → x ∉ scratch →
        (afterIrq globalData handler cIrqHandler s).mem x = s.mem x := by
  have none : ApartFromFrame (fun _ => False) s := nofun
  obtain ⟨e, atReturn, after⟩ := atReturn_of_irq globalData handler stack none handles
    fun _ _ _ _ => False.elim
  refine ⟨?_, ?_, fun x user other => mem_afterIrq stack handles user other⟩
  · rw [after]
    exact atReturn.sameContext
  · rw [after, Instr.ret_spsr, atReturn.spsr]

/-- `C_IRQ_handler` when the timer has not caused the interrupt. -/
def ignoreIrq (s : State) : State := { s with pc := s.lr s.bank }

theorem handles_ignoreIrq (top : Word) : Handles top ignoreIrq :=
  fun _ _ _ => ⟨⟨rfl, rfl, fun _ _ _ => rfl, rfl⟩, fun _ _ => rfl, fun _ _ => rfl⟩

/-- The word of `sys_time`. -/
def sysTimeWord : Word := 0xa3000800

/-- `C_IRQ_handler` at a tick. It leaves something else in the registers that it may change. -/
def tickIrq (s : State) : State :=
  { s with
    r := fun i => if i.val < 4 ∨ i = 12 then ~~~s.r i else s.r i
    mem := Function.update s.mem sysTimeWord (s.mem sysTimeWord + 5)
    pc := s.lr s.bank }

theorem keeps_tickIrq {top : Word} (other : ¬ K sysTimeWord) : Keeps K top tickIrq := by
  intro s _ _ x member
  refine Function.update_of_ne ?_ _ _
  rintro rfl
  exact other member

theorem handles_tickIrq {top : Word} (apart : 44 ≤ (sysTimeWord - (top - 44)).toNat) :
    Handles top tickIrq := by
  intro s bank sp
  refine ⟨⟨rfl, rfl, fun i low high => if_neg ?_, rfl⟩, ?_, ?_⟩
  · rintro (first | rfl)
    · omega
    · exact absurd high (by decide)
  · exact keeps_tickIrq (by rw [sp]; omega) s bank sp
  · exact keeps_tickIrq (by decide) s bank sp

/-- Inside a system call of a program in user mode. -/
def inSystemCall : State where
  r i := BitVec.ofNat 32 i
  sp b := if b = .svc then 0xa3010000 else 0xa2fff000
  lr _ := 0xa0001004
  spsr _ := 0x10
  pc := 0xa3000400
  cpsr := 0x13
  mem _ := 0

/-- A tick inside the system call. -/
theorem irqHandler_transparent_inSystemCall :
    (SameContext inSystemCall (afterIrq 0xa3000100 0xa3000300 tickIrq inSystemCall) ∧
      (afterIrq 0xa3000100 0xa3000300 tickIrq inSystemCall).spsr .svc = 0x13 ∧
      ∀ x, UserWord x → x ∉ scratch →
        (afterIrq 0xa3000100 0xa3000300 tickIrq inSystemCall).mem x = 0) ∧
      (afterIrq 0xa3000100 0xa3000300 tickIrq inSystemCall).mem sysTimeWord = 5 :=
  ⟨irqHandler_transparent (by show 0xa3000000 + 44 ≤ 0xa3010000; decide)
    (handles_tickIrq (by decide)), by decide +kernel⟩

/-- All registers, and all of user memory. -/
structure Invisible (s t : State) : Prop extends SameContext s t where
  spsr : s.bank = .svc → t.spsr .svc = s.spsr .svc
  mem : ∀ x, UserWord x → t.mem x = s.mem x

/-- `spsr_svc` was 0x10 when the interrupt was taken, and it is 0x13 afterwards; the word at
0xa1fffffc was 0, and it is 1. -/
theorem irqHandler_visible :
    inSystemCall.Unmasked ∧ inSystemCall.bank = .svc ∧ KernelStack inSystemCall ∧
      Handles (inSystemCall.sp .svc) ignoreIrq ∧
      (afterIrq 0xa3000100 0xa3000300 ignoreIrq inSystemCall).spsr .svc ≠
        inSystemCall.spsr .svc ∧
      (afterIrq 0xa3000100 0xa3000300 ignoreIrq inSystemCall).mem 0xa1fffffc ≠
        inSystemCall.mem 0xa1fffffc ∧
      ¬ Invisible inSystemCall (afterIrq 0xa3000100 0xa3000300 ignoreIrq inSystemCall) := by
  have lost : (afterIrq 0xa3000100 0xa3000300 ignoreIrq inSystemCall).spsr .svc = 0x13 := by
    decide +kernel
  have other : (afterIrq 0xa3000100 0xa3000300 ignoreIrq inSystemCall).spsr .svc ≠
      inSystemCall.spsr .svc := by
    rw [lost]
    decide
  have written : (afterIrq 0xa3000100 0xa3000300 ignoreIrq inSystemCall).mem 0xa1fffffc = 1 := by
    decide +kernel
  refine ⟨by decide, by decide, ?_, handles_ignoreIrq _, other, ?_, fun invisible => ?_⟩
  · show 0xa3000000 + 44 ≤ 0xa3010000
    decide
  · rw [written]
    decide
  · exact other (invisible.spsr (by decide))

/-- In supervisor mode it is an interrupt as `swi_handler` has to expect, when `C_IRQ_handler` also
leaves the stack of its caller's callers. -/
theorem taken_of_irqHandler {top : Word} (unmasked : s.Unmasked) (stack : KernelStack s)
    (above : (s.sp .svc).toNat ≤ top.toNat) (handles : Handles (s.sp .svc) cIrqHandler)
    (keeps : Keeps (fun x => (x - s.sp .svc).toNat < (top - s.sp .svc).toNat) (s.sp .svc)
      cIrqHandler) :
    Taken top s (afterIrq globalData handler cIrqHandler s) := by
  have room : (0xa3000000 : ℕ) + 44 ≤ (s.sp .svc).toNat := stack
  have apart : ApartFromFrame (fun x => (x - s.sp .svc).toNat < (top - s.sp .svc).toNat) s := by
    intro x inside
    bv_omega
  obtain ⟨e, atReturn, after⟩ := atReturn_of_irq globalData handler stack apart handles keeps
  rw [after]
  obtain ⟨r, sp, lr, pc, cpsr⟩ := atReturn.sameContext
  refine ⟨unmasked, r, sp, lr, pc, cpsr, ?_, ?_⟩
  · rw [Instr.ret_spsr, atReturn.spsr]
  · intro x inside
    have kernel : 0xa3000000 ≤ x.toNat := by bv_omega
    rw [Instr.ret_mem, atReturn.frame.mem x inside, spilled, Function.update_of_ne (by bv_omega),
      Function.update_of_ne (by bv_omega)]

end Gravel
