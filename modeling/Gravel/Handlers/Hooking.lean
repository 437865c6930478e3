import Gravel.Kernel.Vectors

/-!
# Hooking and unhooking the exception vectors

`back_to_kernel` takes back what `init_interrupt` and `init_swi` have patched, the last patch
first. For a vector that `wiring_handler` has refused the arrays still hold their zeros, and
`restore_handler` writes these through a NULL handler address.

## Main definitions

* `Recognised` — `wiring_handler` accepts the vector
* `hooked` — the memory once the vector's handler is patched
* `hookAndUnhook` — a run of the kernel, from the bss to the return to `main`
* `Undone` — when `back_to_kernel` leaves no trace

## Main results

* `restoreHandler_initHandler` — unhooking a handler that was hooked
* `restoreHandler_initHandler_refused` — unhooking one that was refused
* `hookAndUnhook_mem` — the memory after the run, byte by byte
* `hookAndUnhook_mem_eq_iff` — the memory is restored exactly if `Undone`
-/

namespace Gravel

open Library Config

variable {mem : Memory} {s s' : Vectors} {vec vec' addr irqHandler swiHandler x : UInt32}

/-- The vector's instruction is an `ldr pc, [pc, #imm12]`. -/
def Recognised (mem : Memory) (vec : UInt32) : Prop := ¬ vectorOffset mem vec > 0xfff

instance : Decidable (Recognised mem vec) := inferInstanceAs (Decidable (¬ _))

/-- The memory with the first two instructions of the vector's handler replaced. -/
def hooked (mem : Memory) (vec addr : UInt32) : Memory :=
  storeTwo mem (handlerOf mem vec) ldrNext addr

/-! ### One vector -/

theorem initHandler_of_recognised (s : Vectors) (ok : Recognised s.mem vec) :
    initHandler s vec addr = { s with
      mem := hooked s.mem vec addr
      ubootHandlerAddr := Function.update s.ubootHandlerAddr vec (handlerOf s.mem vec)
      instructionBackup := Function.update s.instructionBackup vec
        (loadWord s.mem (handlerOf s.mem vec), loadWord s.mem (handlerOf s.mem vec + 4)) } := by
  unfold Recognised at ok
  rw [initHandler, wiringHandler, if_neg ok]
  rfl

theorem initHandler_of_refused (s : Vectors) (refused : ¬ Recognised s.mem vec) :
    initHandler s vec addr = { s with
      console := s.console ++ ["The instruction in the vector table is unrecognized\n"] } := by
  unfold Recognised at refused
  rw [initHandler, wiringHandler, if_pos (not_not.mp refused)]
  rfl

/-- A hook notes nothing for the other vectors. -/
theorem initHandler_other (s : Vectors) (addr : UInt32) (other : vec' ≠ vec) :
    (initHandler s vec addr).ubootHandlerAddr vec' = s.ubootHandlerAddr vec' ∧
      (initHandler s vec addr).instructionBackup vec' = s.instructionBackup vec' := by
  by_cases ok : Recognised s.mem vec
  · rw [initHandler_of_recognised s ok]
    exact ⟨Function.update_of_ne other _ _, Function.update_of_ne other _ _⟩
  · rw [initHandler_of_refused s ok]
    exact ⟨rfl, rfl⟩

theorem restoreHandler_mem (valid : vec < numExceptions) : (restoreHandler s vec).mem =
    storeTwo s.mem (s.ubootHandlerAddr vec) (s.instructionBackup vec).1
      (s.instructionBackup vec).2 := by
  rw [restoreHandler, if_pos valid]

theorem restoreHandler_ubootHandlerAddr :
    (restoreHandler s vec).ubootHandlerAddr = s.ubootHandlerAddr := by
  unfold restoreHandler
  split <;> rfl

theorem restoreHandler_instructionBackup :
    (restoreHandler s vec).instructionBackup = s.instructionBackup := by
  unfold restoreHandler
  split <;> rfl

/-! ### Hooking, then unhooking -/

/-- The words that a hook has noted are those at the handler before it; a store of them may
follow stores at other places. -/
theorem restoreHandler_of_noted (s : Vectors) (addr : UInt32) (valid : vec < numExceptions)
    (ok : Recognised s.mem vec)
    (uboot : s'.ubootHandlerAddr vec = (initHandler s vec addr).ubootHandlerAddr vec)
    (backup : s'.instructionBackup vec = (initHandler s vec addr).instructionBackup vec) :
    (restoreHandler s' vec).mem x =
      if x - handlerOf s.mem vec < 8 then s.mem x else s'.mem x := by
  rw [restoreHandler_mem valid, uboot, backup, initHandler_of_recognised s ok]
  simp only [Function.update_self]
  exact storeTwo_loadWord s'.mem s.mem (handlerOf s.mem vec) x

/-- Where nothing was noted, zeros are written from address zero on. -/
theorem restoreHandler_of_unnoted (valid : vec < numExceptions)
    (uboot : s.ubootHandlerAddr vec = 0) (backup : s.instructionBackup vec = (0, 0)) :
    (restoreHandler s vec).mem x = if x < 8 then 0 else s.mem x := by
  have zero (a : UInt32) : loadWord (fun _ => 0) a = 0 := rfl
  have written := storeTwo_loadWord s.mem (fun _ => 0) 0 x
  rw [zero, zero, UInt32.sub_zero] at written
  rw [restoreHandler_mem valid, uboot, backup, written]

/-- Unhooking a handler that was hooked gives back the memory. -/
theorem restoreHandler_initHandler (valid : vec < numExceptions) (ok : Recognised s.mem vec) :
    (restoreHandler (initHandler s vec addr) vec).mem = s.mem := by
  funext x
  rw [restoreHandler_of_noted s addr valid ok rfl rfl]
  split
  · rfl
  · rename_i outside
    rw [initHandler_of_recognised s ok]
    exact storeTwo_of_not_lt outside

/-- Unhooking a handler that was refused clears the first two words of memory. -/
theorem restoreHandler_initHandler_refused (valid : vec < numExceptions)
    (refused : ¬ Recognised s.mem vec) (uboot : s.ubootHandlerAddr vec = 0)
    (backup : s.instructionBackup vec = (0, 0)) :
    (restoreHandler (initHandler s vec addr) vec).mem x = if x < 8 then 0 else s.mem x := by
  rw [initHandler_of_refused s refused]
  exact restoreHandler_of_unnoted valid uboot backup

/-! ### Both vectors -/

/-- `init_interrupt` and `init_swi`, and later `back_to_kernel`. -/
def hookAndUnhook (mem : Memory) (irqHandler swiHandler : UInt32) : Vectors :=
  backToKernel (initSwi (initInterrupt (.boot mem) irqHandler) swiHandler)

/-- Both vectors are recognised, that of SWI once IRQ's handler is patched. -/
def BothRecognised (mem : Memory) (irqHandler : UInt32) : Prop :=
  Recognised mem exIrq ∧ Recognised (hooked mem exIrq irqHandler) exSwi

/-- The byte is one of the two instructions that the IRQ hook has noted. -/
def Noted (mem : Memory) (x : UInt32) : Prop :=
  Recognised mem exIrq ∧ x - handlerOf mem exIrq < 8

instance : Decidable (BothRecognised mem irqHandler) := inferInstanceAs (Decidable (_ ∧ _))

instance : Decidable (Noted mem x) := inferInstanceAs (Decidable (_ ∧ _))

/-- `back_to_kernel` leaves no trace: no vector was refused, or the zeros written for one that
was refused find zeros or are replaced by what the IRQ hook has noted. -/
def Undone (mem : Memory) (irqHandler : UInt32) : Prop :=
  BothRecognised mem irqHandler ∨ ∀ x < 8, mem x = 0 ∨ Noted mem x

/-- SWI is unhooked first. -/
theorem restoreHandler_initSwi (s : Vectors) (swiHandler x : UInt32)
    (uboot : s.ubootHandlerAddr exSwi = 0) (backup : s.instructionBackup exSwi = (0, 0)) :
    (restoreHandler (initSwi s swiHandler) exSwi).mem x =
      if x < 8 ∧ ¬ Recognised s.mem exSwi then 0 else s.mem x := by
  by_cases ok : Recognised s.mem exSwi
  · rw [if_neg (fun refused => refused.2 ok), initSwi,
      restoreHandler_initHandler (by decide) ok]
  · rw [initSwi, restoreHandler_initHandler_refused (by decide) ok uboot backup]
    simp only [ok, not_false_eq_true, and_true]

/-- What the IRQ hook has noted is still there when it is unhooked. -/
theorem restoreHandler_initSwi_noted (s : Vectors) (swiHandler : UInt32) :
    (restoreHandler (initSwi s swiHandler) exSwi).ubootHandlerAddr exIrq =
        s.ubootHandlerAddr exIrq ∧
      (restoreHandler (initSwi s swiHandler) exSwi).instructionBackup exIrq =
        s.instructionBackup exIrq := by
  rw [restoreHandler_ubootHandlerAddr, restoreHandler_instructionBackup]
  exact initHandler_other s swiHandler (by decide)

/-- Both hooks are undone in the reverse order; a refused one leaves zeros. -/
theorem hookAndUnhook_mem : (hookAndUnhook mem irqHandler swiHandler).mem x =
    if x < 8 ∧ ¬ BothRecognised mem irqHandler ∧ ¬ Noted mem x then 0 else mem x := by
  set s₁ := initInterrupt (.boot mem) irqHandler with irq
  have unnoted : s₁.ubootHandlerAddr exSwi = 0 ∧ s₁.instructionBackup exSwi = (0, 0) :=
    initHandler_other (.boot mem) irqHandler (by decide)
  have swi := restoreHandler_initSwi s₁ swiHandler x unnoted.1 unnoted.2
  have noted := restoreHandler_initSwi_noted s₁ swiHandler
  rw [hookAndUnhook, backToKernel, ← irq]
  generalize restoreHandler (initSwi s₁ swiHandler) exSwi = s₃ at swi noted
  by_cases ok : Recognised mem exIrq
  · have patched : s₁.mem = hooked mem exIrq irqHandler := by
      rw [irq, initInterrupt, initHandler_of_recognised (.boot mem) ok]
      rfl
    have last : (restoreHandler s₃ exIrq).mem x =
        if x - handlerOf mem exIrq < 8 then mem x else s₃.mem x :=
      restoreHandler_of_noted (.boot mem) irqHandler (by decide) ok noted.1 noted.2
    rw [last, swi, patched]
    simp only [BothRecognised, Noted, ok, true_and]
    by_cases inside : x - handlerOf mem exIrq < 8
    · rw [if_pos inside, if_neg (fun h => h.2.2 inside)]
    · have kept : hooked mem exIrq irqHandler x = mem x := storeTwo_of_not_lt inside
      rw [if_neg inside, kept]
      simp only [inside, not_false_eq_true, and_true]
  · have clean : s₁ = _ := initHandler_of_refused (.boot mem) ok
    have last : (restoreHandler s₃ exIrq).mem x = if x < 8 then 0 else s₃.mem x :=
      restoreHandler_of_unnoted (by decide) (by rw [noted.1, clean]; rfl)
        (by rw [noted.2, clean]; rfl)
    have patched : s₁.mem = mem := by rw [clean]; rfl
    rw [last, swi, patched]
    simp only [BothRecognised, Noted, ok, false_and, not_false_eq_true, and_true]
    -- the zeros of this restore cover those that SWI's may have written
    by_cases low : x < 8
    · rw [if_pos low, if_pos low]
    · rw [if_neg low, if_neg low, if_neg (fun h => low h.1)]

/-- The run leaves the memory as it was exactly if it leaves no trace at address zero. -/
theorem hookAndUnhook_mem_eq_iff (mem : Memory) (irqHandler swiHandler : UInt32) :
    (hookAndUnhook mem irqHandler swiHandler).mem = mem ↔ Undone mem irqHandler := by
  constructor
  · intro same
    by_cases both : BothRecognised mem irqHandler
    · exact .inl both
    · refine .inr fun x low => ?_
      by_cases noted : Noted mem x
      · exact .inr noted
      · have value := congrFun same x
        rw [hookAndUnhook_mem, if_pos ⟨low, both, noted⟩] at value
        exact .inl value.symm
  · intro undone
    funext x
    rw [hookAndUnhook_mem]
    split
    · rename_i erased
      obtain ⟨low, refused, unnoted⟩ := erased
      exact (((undone.resolve_left refused) x low).resolve_right unnoted).symm
    · rfl

/-- A memory of `b .` instructions: neither vector is an `ldr pc`. -/
def branches : Memory := fun x => byteOf 0xeafffffe (x.toNat % 4)

/-- The vectors of this memory are refused, and its first word is lost. -/
theorem hookAndUnhook_branches : (hookAndUnhook branches 0xa3f00000 0xa3f00100).mem ≠ branches := by
  intro same
  have lost : (hookAndUnhook branches 0xa3f00000 0xa3f00100).mem 0 ≠ branches 0 := by decide
  exact lost (congrFun same 0)

end Gravel
