import Gravel.Kernel.Dispatch
import Gravel.Library.Arm
import Gravel.Library.Interrupted

/-!
# The context switch in assembly

`ctx_switch_full` and `ctx_switch_half`, on the processor and the words of the contexts in
memory. They refine the register transfers of the kernel model.

## Main definitions

* `ctxSwitchFullCode`, `ctxSwitchHalfCode` — the instructions
* `Laid` — the kernel's registers and contexts, in the processor and in memory

## Main results

* `ctxSwitchFull_refines`, `ctxSwitchHalf_refines`
-/

namespace Gravel

open Library Library.Arm

/-- `{r4-r11, sp, lr}` -/
def contextRegs : List Reg :=
  [.r 4, .r 5, .r 6, .r 7, .r 8, .r 9, .r 10, .r 11, .sp, .lr]

/-- r0 points to the target context, r1 to the current context. -/
def ctxSwitchFullCode : List Instr :=
  [.stmia (.r 1) contextRegs, .ldmia (.r 0) contextRegs, .movPcLr]

def ctxSwitchHalfCode : List Instr := [.ldmia (.r 0) contextRegs, .movPcLr]

/-- A context as it lies in memory. -/
def SchedContext.words (c : SchedContext) : List Word :=
  [c.r4.toBitVec, c.r5.toBitVec, c.r6.toBitVec, c.r7.toBitVec, c.r8.toBitVec, c.r9.toBitVec,
    c.r10.toBitVec, c.r11.toBitVec, c.sp.toBitVec, c.lr.toBitVec]

/-- The context is in these words. -/
def ContextAt (m : Word → Word) (a : Word) (c : SchedContext) : Prop :=
  ∀ (i : ℕ) (v : Word), c.words[i]? = some v → m (a + BitVec.ofNat 32 (4 * i)) = v

/-- Contexts of different tasks do not overlap. -/
def Spread (addr : TcbPtr → Word) : Prop :=
  ∀ t u, t ≠ u → 40 ≤ (addr t - addr u).toNat ∧ 40 ≤ (addr u - addr t).toNat

/-- The processor in supervisor mode holds the registers of the kernel model, and the memory
the saved contexts. -/
structure Laid (addr : TcbPtr → Word) (k : Kernel) (s : State) : Prop where
  bank : s.bank = .svc
  regs : contextRegs.map (s.reg .svc) = k.regs.words
  tcbs : ∀ t, ContextAt s.mem (addr t) (k.systemTcb t).context

variable {addr : TcbPtr → Word} {k : Kernel} {s : State} {next cur : TcbPtr} {c : SchedContext}
  {a : Word} {m : Word → Word}

theorem SchedContext.words_length : c.words.length = 10 := rfl

/-- A context that has been stored, and one that lies elsewhere. -/
theorem contextAt_storeWords : ContextAt (storeWords m a c.words) a c := by
  intro i v own
  exact storeWords_word (by rw [SchedContext.words_length]; decide) own rfl

theorem ContextAt.storeWords {b : Word} {c' : SchedContext} (stored : ContextAt m b c')
    (apart : 40 ≤ (b - a).toNat ∧ 40 ≤ (a - b).toNat) :
    ContextAt (Arm.storeWords m a c.words) b c' := by
  intro i v own
  have inside : i < 10 := (List.getElem?_eq_some_iff.mp own).1
  rw [storeWords_outside (by rw [SchedContext.words_length]; decide)
    (by rw [SchedContext.words_length]; bv_omega), stored i v own]

/-- `ldmia` of a context. -/
theorem ContextAt.loadRegs (stored : ContextAt s.mem a c) :
    contextRegs.map ((s.loadRegs .svc a contextRegs).reg .svc) = c.words := by
  apply List.ext_getElem?
  intro i
  rw [List.getElem?_map]
  by_cases inside : i < 10
  · obtain ⟨q, own⟩ : ∃ q, contextRegs[i]? = some q := ⟨_, List.getElem?_eq_getElem inside⟩
    obtain ⟨v, word⟩ : ∃ v, c.words[i]? = some v := ⟨_, List.getElem?_eq_getElem inside⟩
    rw [own, word, Option.map_some, State.loadRegs_reg (by decide) own, stored i _ word]
  · rw [List.getElem?_eq_none (by simpa [contextRegs] using inside),
      List.getElem?_eq_none (by rw [SchedContext.words_length]; omega)]
    rfl

/-- `mov pc, lr` goes on where the context says. -/
theorem lr_of_regs (regs : contextRegs.map (s.reg .svc) = c.words) :
    s.lr .svc = c.lr.toBitVec := by
  have last := congrArg (fun l => l[9]?) regs
  simpa [contextRegs, SchedContext.words, State.reg] using last

/-- The registers come from the next context. -/
theorem ctxSwitchHalf_refines (bank : s.bank = .svc)
    (tcbs : ∀ t, ContextAt s.mem (addr t) (k.systemTcb t).context) (arg : s.r 0 = addr next) :
    Laid addr (ctxSwitchHalf k next) (straight Instr.exec ctxSwitchHalfCode s) ∧
      (straight Instr.exec ctxSwitchHalfCode s).pc = (k.systemTcb next).context.lr.toBitVec := by
  have after : straight Instr.exec ctxSwitchHalfCode s =
      Instr.movPcLr.exec (s.loadRegs .svc (addr next) contextRegs).next := by
    simp only [ctxSwitchHalfCode, straight, List.foldl, Instr.exec, State.reg, bank, arg]
  have bank' : (s.loadRegs .svc (addr next) contextRegs).bank = .svc :=
    State.loadRegs_bank.trans bank
  have mem : (s.loadRegs .svc (addr next) contextRegs).mem = s.mem := State.loadRegs_mem
  have regs := (tcbs next).loadRegs
  rw [after]
  constructor
  · exact
      { bank := bank'
        regs := regs
        tcbs := fun t i v own => (congrFun mem _).trans (tcbs t i v own) }
  · have lr : (s.loadRegs .svc (addr next) contextRegs).next.lr .svc =
        (k.systemTcb next).context.lr.toBitVec := lr_of_regs regs
    rw [← lr, Instr.exec, ← bank']
    rfl

/-- The registers go to the current context, and come from the next one. -/
theorem ctxSwitchFull_refines (laid : Laid addr k s) (spread : Spread addr)
    (arg₀ : s.r 0 = addr next) (arg₁ : s.r 1 = addr cur) :
    Laid addr (ctxSwitchFull k next cur) (straight Instr.exec ctxSwitchFullCode s) ∧
      (straight Instr.exec ctxSwitchFullCode s).pc =
        ((ctxSwitchFull k next cur).systemTcb next).context.lr.toBitVec := by
  have stored : ((Instr.stmia (.r 1) contextRegs).exec s).mem =
      storeWords s.mem (addr cur) k.regs.words := by
    simp only [Instr.exec, State.next, State.reg, laid.bank, arg₁, ← laid.regs]
  let saved : Kernel := { k with
    systemTcb := Function.update k.systemTcb cur { k.systemTcb cur with context := k.regs } }
  have tcbs : ∀ t, ContextAt ((Instr.stmia (.r 1) contextRegs).exec s).mem (addr t)
      (saved.systemTcb t).context := by
    intro t
    rw [stored]
    by_cases own : t = cur
    · subst own
      simp only [saved, Function.update_self]
      exact contextAt_storeWords
    · simp only [saved, Function.update_of_ne own]
      exact (laid.tcbs t).storeWords (spread t cur own)
  have code : straight Instr.exec ctxSwitchFullCode s =
      straight Instr.exec ctxSwitchHalfCode ((Instr.stmia (.r 1) contextRegs).exec s) :=
    straight_cons
  have bank : ((Instr.stmia (.r 1) contextRegs).exec s).bank = .svc := laid.bank
  rw [code]
  exact ctxSwitchHalf_refines (k := saved) bank tcbs arg₀

end Gravel
