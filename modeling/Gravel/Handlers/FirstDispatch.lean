import Gravel.Handlers.Switch
import Gravel.Library.ArmProgram
import Gravel.Scheduling.Context

/-!
# The first dispatch of a task

`allocate_tasks` leaves contexts that return into `launch_task`. So the switch that first
dispatches a task, in whatever run, goes on there with the registers of its descriptor, and
ends up in the task: in user mode, with interrupts enabled, at its entry point, with its
argument and on its stack.

## Main definitions

* `launchTaskCode` — the instructions of `launch_task`
* `Starts` — a task starts
* `Switches` — the processor switches to a task, in a run

## Main results

* `reaches_task` — what `launch_task` makes of a context
* `dispatched` — what every switch of every run leads to
-/

namespace Gravel

open Library Library.Arm

def launchTaskCode : List Op :=
  [ .instr (.mov (.r 0) (.r 5)),
    .movImm (.r 1) 0,
    .movImm (.r 2) 0,
    .movImm (.r 3) 0,
    .movImm (.r 5) 0,
    .movImm (.r 8) 0,
    .movImm (.r 12) 0,
    .instr (.msrCpsrC 0x10),
    .instr (.mov .sp (.r 6)),
    .movImm (.r 6) 0,
    .instr (.ldrConst .lr 0xdeadbeef),
    .movPc (.r 4) ]

/-- The processor starts a task. -/
structure Starts (task : Task) (m : State) : Prop where
  user : m.bank = .user
  unmasked : m.Unmasked
  arm : m.cpsr.getLsbD 5 = false
  pc : m.pc = task.lambda.toBitVec
  arg : m.r 0 = task.data.toBitVec
  sp : m.sp .user = task.stackPos.toBitVec
  lr : m.lr .user = 0xdeadbeef
  cleared : ∀ i ∈ [1, 2, 3, 5, 6, 8, 12], m.r i = 0

/-- The processor has switched to a task, in a run of the given labels. -/
inductive Switches (addr : TcbPtr → Word) (start : Kernel) :
    List (SwitchEvent × Option SwitchOut) → TcbPtr → State → Prop
  /-- `dispatch_nosave` of `sched_init` -/
  | first {s : Kernel} {t : TcbPtr} {m : State} (started : schedInit start = .ok s)
      (current : s.curTcb = some t) (bank : m.bank = .svc)
      (tcbs : ∀ u, ContextAt m.mem (addr u) (start.systemTcb u).context) (arg : m.r 0 = addr t) :
      Switches addr start [] t (straight Instr.exec ctxSwitchHalfCode m)
  | later {s₀ s s' : Kernel} {t u : TcbPtr} {m : State} {regs : SchedContext}
      {w : List (SwitchEvent × Option SwitchOut)} {label : SwitchEvent × Option SwitchOut}
      (started : schedInit start = .ok s₀) (run : Run SwitchStep s₀ w s)
      (step : SwitchStep s label s') (out : label.2 = some (u, regs))
      (current : s'.curTcb = some t) (laid : Laid addr s m) (arg₀ : m.r 0 = addr t)
      (arg₁ : m.r 1 = addr u) :
      Switches addr start (w ++ [label]) t (straight Instr.exec ctxSwitchFullCode m)

variable {pf : Platform} {task : ℕ → Task} {n : ℕ} {k start : Kernel} {m : State}
  {addr : TcbPtr → Word} {base : Word} {d : Task} {w : List (SwitchEvent × Option SwitchOut)}
  {t : TcbPtr}

/-- `launch_task` up to the change of the mode. -/
def unprivileged (base : Word) (m : State) : State :=
  (launchTaskCode.take 8).foldl (fun s op => op.exec base s) m

/-- What is left of `launch_task` in user mode, up to its last instruction. -/
def beforeTask (base : Word) (m : State) : State :=
  ((launchTaskCode.drop 8).take 3).foldl (fun s op => op.exec base s) m

theorem unprivileged_cpsr : (unprivileged base m).cpsr = (m.cpsr &&& ~~~0xff) ||| 0x10 := rfl

theorem unprivileged_sp : (unprivileged base m).sp = m.sp := rfl

theorem unprivileged_bank : (unprivileged base m).bank = .user := by
  rw [State.bank, unprivileged_cpsr, bankOf_write (by decide)]
  decide

/-- The registers that are cleared, and those that are not. -/
theorem unprivileged_r (i : Fin 13) : (unprivileged base m).r i =
    if i = 0 then m.r 5 else if i ∈ [1, 2, 3, 5, 8, 12] then 0 else m.r i := by
  simp only [unprivileged, launchTaskCode, List.take, List.foldl, Op.exec, Instr.exec, State.next,
    State.setReg, State.reg, Function.update_apply]
  grind

theorem beforeTask_r (i : Fin 13) :
    (beforeTask base m).r i = if i = 6 then 0 else m.r i := by
  simp only [beforeTask, launchTaskCode, List.take, List.drop, List.foldl, Op.exec, Instr.exec,
    State.next, State.setReg, State.reg, Function.update_apply]

theorem beforeTask_sp : (beforeTask base m).sp = Function.update m.sp m.bank (m.r 6) := rfl

theorem beforeTask_lr : (beforeTask base m).lr = Function.update m.lr m.bank 0xdeadbeef := rfl

/-- `mov pc, r4` in user mode. -/
theorem starts_movPc (bank : m.bank = .user) (cpsr : ∃ x, m.cpsr = (x &&& ~~~0xff) ||| 0x10)
    (r4 : m.r 4 = d.lambda.toBitVec) (r0 : m.r 0 = d.data.toBitVec)
    (sp : m.sp .user = d.stackPos.toBitVec) (lr : m.lr .user = 0xdeadbeef)
    (cleared : ∀ i ∈ [1, 2, 3, 5, 6, 8, 12], m.r i = 0) :
    Starts d ((Op.movPc (.r 4)).exec base m) := by
  obtain ⟨x, cpsr⟩ := cpsr
  exact
    { user := bank
      unmasked := by
        change m.cpsr.getLsbD 7 = false
        rw [cpsr]
        simp
      arm := by
        change m.cpsr.getLsbD 5 = false
        rw [cpsr]
        simp
      pc := r4
      arg := r0
      sp := sp
      lr := lr
      cleared := cleared }

/-- `launch_task`, entered with the entry point, the argument and the stack in r4 to r6. -/
theorem reaches_task (entry : m.pc = base) (r4 : m.r 4 = d.lambda.toBitVec)
    (r5 : m.r 5 = d.data.toBitVec) (r6 : m.r 6 = d.stackPos.toBitVec) :
    ∃ m', Reaches base launchTaskCode m m' ∧ Starts d m' ∧ m'.sp .svc = m.sp .svc := by
  have at_0 : At base 0 m := by
    rw [At, entry]
    simp
  have code : launchTaskCode.drop 0 = launchTaskCode.take 8 ++ launchTaskCode.drop 8 := rfl
  obtain ⟨first, at_8⟩ : Reaches base launchTaskCode m (unprivileged base m) ∧
      At base 8 (unprivileged base m) :=
    Reaches.straight at_0 (by decide) code rfl
  have bank : (unprivileged base m).bank = .user := unprivileged_bank
  have cpsr : (unprivileged base m).cpsr = _ := unprivileged_cpsr
  have r (i : Fin 13) : (unprivileged base m).r i = _ := unprivileged_r i
  have sp : (unprivileged base m).sp = m.sp := unprivileged_sp
  generalize unprivileged base m = s at first at_8 bank cpsr r sp
  have code : launchTaskCode.drop 8 = (launchTaskCode.drop 8).take 3 ++ [.movPc (.r 4)] := rfl
  obtain ⟨second, at_11⟩ : Reaches base launchTaskCode s (beforeTask base s) ∧
      At base 11 (beforeTask base s) :=
    Reaches.straight at_8 (by decide) code rfl
  refine ⟨_, first.trans (second.trans (Reaches.head at_11 (by decide) rfl (by simp) .refl)),
    ?_, ?_⟩
  rotate_left
  · change (beforeTask base s).sp .svc = _
    rw [beforeTask_sp, bank, Function.update_of_ne (by decide), sp]
  have bank' : (beforeTask base s).bank = .user := bank
  apply starts_movPc bank' ⟨m.cpsr, cpsr⟩
  · rw [beforeTask_r, if_neg (by decide), r, if_neg (by decide), if_neg (by decide), r4]
  · rw [beforeTask_r, if_neg (by decide), r, if_pos rfl, r5]
  · rw [beforeTask_sp, bank, Function.update_self, r, if_neg (by decide), if_neg (by decide), r6]
  · rw [beforeTask_lr, bank, Function.update_self]
  · intro i member
    have other : ∀ i ∈ [1, 2, 3, 5, 6, 8, (12 : Fin 13)],
        i = 6 ∨ i ≠ 0 ∧ i ∈ [1, 2, 3, 5, 8, (12 : Fin 13)] := by decide
    rw [beforeTask_r]
    rcases other i member with rfl | ⟨other, member⟩
    · rw [if_pos rfl]
    · split
      · rfl
      · rw [r, if_neg other, if_pos member]

/-! ### Switches in a run -/

/-- The processor goes on with the registers the task was last switched out with. -/
theorem Switches.resumes (spread : Spread addr)
    (switches : Switches addr start w t m) :
    m.bank = .svc ∧ m.pc = (lastOut start w t).lr.toBitVec ∧
      contextRegs.map (m.reg .svc) = (lastOut start w t).words := by
  cases switches with
  | first started current bank tcbs arg =>
    obtain ⟨laid, pc⟩ := ctxSwitchHalf_refines bank tcbs arg
    exact ⟨laid.bank, pc, laid.regs⟩
  | later started run step out current laid arg₀ arg₁ =>
    have saved := saved_of_run started run
    have regs := step.regs_eq saved out current
    obtain ⟨cur, before, -⟩ := saved
    rcases step.cases before with ⟨stays, -⟩ | ⟨b, q, out', rfl⟩
    · rw [stays] at out
      simp at out
    · obtain rfl := Option.some.inj current
      obtain ⟨rfl, -⟩ := Prod.mk.inj (Option.some.inj (out'.symm.trans out))
      obtain ⟨after, pc⟩ := ctxSwitchFull_refines
        { bank := laid.bank, regs := laid.regs, tcbs := laid.tcbs : Laid addr _ _ } spread arg₀ arg₁
      exact ⟨after.bank, by rw [← regs]; exact pc, by rw [← regs]; exact after.regs⟩

/-- What `allocate_tasks` has stored is what `launch_task` needs. -/
theorem lastOut_launch (bound : n ≤ Config.osAvailTasks) (own : 1 ≤ t.val ∧ t.val ≤ n)
    (never : ∀ label ∈ w, ∀ regs, label.2 ≠ some (t, regs)) :
    lastOut (allocateTasks pf task n k) w t =
      (launchTcb pf (task (t.val - 1)) t.val (k.systemTcb t)).context := by
  have none : (w.filterMap Prod.snd).reverse.lookup t = none := by
    rw [List.lookup_eq_none_iff]
    rintro ⟨u, regs⟩ member
    obtain ⟨label, inside, out⟩ := List.mem_filterMap.mp (List.mem_reverse.mp member)
    refine bne_iff_ne.mpr ?_
    rintro rfl
    exact never label inside regs out
  rw [lastOut, none, Option.getD_none, allocateTasks_systemTcb bound own]

/-- In every run that starts with `allocate_tasks` and its `dispatch_nosave`, a task that is
dispatched goes on with the registers it was last switched out with; and a task that was never
switched out starts as its descriptor says, on a fresh kernel stack. -/
theorem dispatched (bound : n ≤ Config.osAvailTasks) (spread : Spread addr)
    (switches : Switches addr (allocateTasks pf task n k) w t m) :
    (∀ regs, (w.filterMap Prod.snd).reverse.lookup t = some regs →
      m.bank = .svc ∧ m.pc = regs.lr.toBitVec ∧ contextRegs.map (m.reg .svc) = regs.words) ∧
    (1 ≤ t.val → t.val ≤ n → (∀ label ∈ w, ∀ regs, label.2 ≠ some (t, regs)) →
      ∃ m', Reaches pf.launchTask.toBitVec launchTaskCode m m' ∧ Starts (task (t.val - 1)) m' ∧
        m'.sp .svc = (pf.kstackHigh t).toBitVec) := by
  have resumes := switches.resumes spread
  constructor
  · intro regs out
    rw [lastOut, out, Option.getD_some] at resumes
    exact resumes
  · intro positive inside never
    rw [lastOut_launch bound ⟨positive, inside⟩ never] at resumes
    obtain ⟨-, pc, regs⟩ := resumes
    have word (i : ℕ) := congrArg (fun l => l[i]?) regs
    have r4 := word 0
    have r5 := word 1
    have r6 := word 2
    have sp := word 8
    have own : tcbOf t.val = t := (tcbOf_eq_iff t.isLt).mpr rfl
    simp only [own, contextRegs, SchedContext.words, launchTcb, State.reg, List.map_cons,
      List.map_nil, List.getElem?_cons_zero, List.getElem?_cons_succ, Option.some.injEq]
      at r4 r5 r6 sp
    obtain ⟨m', reached, starts, stack⟩ := reaches_task pc r4 r5 r6
    exact ⟨m', reached, starts, stack.trans sp⟩

/-! ### A layout of the contexts -/

def packed (t : TcbPtr) : Word := BitVec.ofNat 32 (64 * t.val)

theorem packed_toNat : (packed t).toNat = 64 * t.val := by
  have inside : t.val < 64 := t.isLt
  rw [packed, BitVec.toNat_ofNat]
  omega

theorem spread_packed : Spread packed := by
  intro t u different
  have : t.val < 64 := t.isLt
  have : u.val < 64 := u.isLt
  simp only [BitVec.toNat_sub, packed_toNat]
  have : t.val ≠ u.val := fun same => different (Fin.ext same)
  omega

/-- Any kernel state can be laid out. -/
theorem exists_laid (k : Kernel) (next cur : TcbPtr) :
    ∃ m, Laid packed k m ∧ m.r 0 = packed next ∧ m.r 1 = packed cur := by
  let mem : Word → Word := fun a =>
    ((k.systemTcb (tcbOf (a.toNat / 64))).context.words[a.toNat % 64 / 4]?).getD 0
  let r : Fin 13 → Word := fun i =>
    if i = 0 then packed next else if i = 1 then packed cur else (k.regs.words[i.val - 4]?).getD 0
  have mode : bankOf 0x13 = .svc := by decide
  refine ⟨{ r := r, sp := fun _ => k.regs.sp.toBitVec, lr := fun _ => k.regs.lr.toBitVec
            spsr := fun _ => 0, pc := 0, cpsr := 0x13, mem := mem }, ?_, rfl, rfl⟩
  exact
    { bank := mode
      regs := rfl
      tcbs := by
        intro t i v own
        have inside : i < 10 := (List.getElem?_eq_some_iff.mp own).1
        have := t.isLt
        have offset : (packed t + BitVec.ofNat 32 (4 * i)).toNat = 64 * t.val + 4 * i := by
          simp only [Config.osMaxTasks] at this
          rw [BitVec.toNat_add, packed_toNat, BitVec.toNat_ofNat]
          omega
        have quotient : (64 * t.val + 4 * i) / 64 = t.val := by omega
        have remainder : (64 * t.val + 4 * i) % 64 / 4 = i := by omega
        change ((k.systemTcb (tcbOf (_ / 64))).context.words[_ % 64 / 4]?).getD 0 = v
        rw [offset, quotient, remainder, (tcbOf_eq_iff t.isLt).mpr rfl, own, Option.getD_some] }

/-- Two tasks are allocated, the first one computes and goes to sleep, and the second starts. -/
theorem dispatched_twoTasks :
    ∃ m m', Reaches exactPlatform.launchTask.toBitVec launchTaskCode m m' ∧
      Starts ⟨0xa0000200, 2, 0xa2000000, 1, 100, 0⟩ m' := by
  let task : ℕ → Task := fun i =>
    if i = 0 then ⟨0xa0000100, 1, 0xa1000000, 1, 50, 0⟩ else ⟨0xa0000200, 2, 0xa2000000, 1, 100, 0⟩
  have two : 2 ≤ Config.osAvailTasks := by decide
  have apart : tcbOf 1 ≠ tcbOf 2 := by decide
  have exists_start : ∃ s₀, schedInit (allocateTasks exactPlatform task 2 (devInit bssKernel)) =
      .ok s₀ ∧ Start exactPlatform task 2 bssKernel s₀ := schedInit_start task two
  obtain ⟨s₀, started, first⟩ := exists_start
  have current : s₀.curTcb = some (tcbOf 1) := by
    rw [first.cur]
    decide
  have ready : IsLeast ((View.launch 2).ready : Set TcbPtr) (tcbOf 2) :=
    have below : ∀ t ∈ (View.launch 2).ready, tcbOf 2 ≤ t := by decide
    ⟨by decide, below⟩
  obtain ⟨q, slept, -⟩ := dispatchSleep_eq_ok (s := { s₀ with regs := default }) first.wf current
    (first.holds.best first.wf ready).2
  have computes : Run SwitchStep s₀ [(.work default, none)] { s₀ with regs := default } :=
    .snoc (.nil s₀) ⟨rfl, rfl⟩
  have sleeps : SwitchStep { s₀ with regs := default } (.sleep, some (tcbOf 1, default)) _ :=
    ⟨slept, by simp [SwitchEvent.leaves, current]⟩
  obtain ⟨m, laid, arg₀, arg₁⟩ := exists_laid { s₀ with regs := default } (tcbOf 2) (tcbOf 1)
  have switches := Switches.later started computes sleeps rfl rfl laid arg₀ arg₁
  have never : ∀ label ∈ [(SwitchEvent.work default, (none : Option SwitchOut)),
        (.sleep, some (tcbOf 1, default))],
      ∀ regs, label.2 ≠ some (tcbOf 2, regs) := by
    simp only [List.mem_cons, List.not_mem_nil, or_false]
    rintro label (rfl | rfl) regs out
    · exact absurd out (by simp)
    · exact apart (congrArg Prod.fst (Option.some.inj out))
  obtain ⟨m', reached, starts, -⟩ :=
    (dispatched two spread_packed switches).2 (by decide) (by decide) never
  exact ⟨_, m', reached, starts⟩

end Gravel
