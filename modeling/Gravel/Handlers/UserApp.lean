import Gravel.Kernel.State
import Gravel.Library.ArmProgram

/-!
# The start of the user program

`switch_user_app` leaves supervisor mode and pushes the arguments of the user program on its
stack, the last one first. `_start` of the C library finds them there and calls `main`.

## Main definitions

* `switchUserAppCode`, `startCode` — the instructions
* `Building` — the invariant of the loop over the arguments
* `MainCalled` — `main` is called with its arguments

## Main results

* `Building.step` — one more argument is on the stack
* `userApp_started` — from `switch_user_app` to `main`
-/

namespace Gravel

open Library Library.Arm

def Config.usrStack : Word := 0xa3000000

/-- `argc` is in r0, `argv` in r1. -/
def switchUserAppCode : List Op :=
  [ -- Store the context.
    .instr (.stmfd .sp true [.r 1, .r 2, .r 3, .r 4, .r 5, .r 6, .r 7, .r 8, .r 9, .r 10, .r 11,
      .r 12, .lr]),
    .instr (.mov (.r 4) .sp),
    -- Switch to user mode with interrupts unmasked.
    .instr (.mrsCpsr (.r 3)),
    .instr (.bic (.r 3) (.r 3) 0x80),
    .instr (.bic (.r 3) (.r 3) 0x1f),
    .orr (.r 3) (.r 3) 0x10,
    .instr (.msrCpsr (.r 3)),
    .instr (.ldrConst .sp Config.usrStack),
    .movImm (.r 2) 0,
    .instr (.stmfd .sp true [.r 2]),
    .instr (.mov (.r 2) (.r 0)),
    -- build_argv
    .subs (.r 2) (.r 2) 1,
    .blt 16,
    .ldrIndexed (.r 3) (.r 1) (.r 2),
    .instr (.stmfd .sp true [.r 3]),
    .b 11,
    -- load_usr
    .instr (.stmfd .sp true [.r 0]),
    .ldrPc Config.usrStartAddr.toBitVec ]

/-- `_start`, with the address of `main`. -/
def startCode (main : Word) : List Op :=
  [.instr (.ldr (.r 0) .sp 0), .instr (.add (.r 1) .sp 4), .bl main]

/-- The words of `argv` on the stack, up to its end mark. -/
def argvBase (n : ℕ) : Word := Config.usrStack - BitVec.ofNat 32 (4 * (n + 1))

/-- `main` is called. -/
structure MainCalled (main argc : Word) (n : ℕ) (args : ℕ → Word) (s : State) : Prop where
  user : s.bank = .user
  unmasked : s.Unmasked
  pc : s.pc = main
  argc : s.r 0 = argc
  argv : s.r 1 = argvBase n
  args : ∀ i < n, s.mem (s.r 1 + BitVec.ofNat 32 (4 * i)) = args i
  null : s.mem (s.r 1 + BitVec.ofNat 32 (4 * n)) = 0
  sp : s.sp .user = s.r 1 - 4

/-- The arguments from the index on are on the stack. -/
structure Building (base argc argv : Word) (n : ℕ) (arg : ℕ → Word) (j : ℕ) (s : State) :
    Prop where
  at_11 : At base 11 s
  inside : j ≤ n
  user : s.bank = .user
  unmasked : s.Unmasked
  r0 : s.r 0 = argc
  r1 : s.r 1 = argv
  left : (s.r 2).toInt.toNat = j
  sp : s.sp .user = argvBase n + BitVec.ofNat 32 (4 * j)
  pushed : ∀ i, j ≤ i → i < n → s.mem (argvBase n + BitVec.ofNat 32 (4 * i)) = arg i
  null : s.mem (argvBase n + BitVec.ofNat 32 (4 * n)) = 0
  args : ∀ i < n, s.mem (argv + BitVec.ofNat 32 (4 * i)) = arg i

/-- The words of the arguments, and those that are pushed on the stack of the program. -/
def ClearOfStack (argv : Word) (n : ℕ) : Prop :=
  4 * (n + 2) < 2 ^ 32 ∧
    ∀ i < n, 4 * (n + 2) ≤ (argv + BitVec.ofNat 32 (4 * i) - (argvBase n - 4)).toNat

variable {base main argc argv : Word} {n j : ℕ} {arg : ℕ → Word} {s : State} {q : Reg}

/-! ### Instructions -/

/-- `stmfd sp!, {q}` -/
theorem push_exec (user : s.bank = .user) :
    ((Instr.stmfd .sp true [q]).exec s).mem =
        Function.update s.mem (s.sp .user - 4) (s.reg .user q) ∧
      ((Instr.stmfd .sp true [q]).exec s).sp .user = s.sp .user - 4 := by
  constructor
  · simp only [Instr.exec, State.reg, user, storeWords, List.map_cons, List.map_nil]
    rfl
  · simp only [Instr.exec, State.reg, user, State.next, State.setReg, if_true,
      Function.update_self]
    rfl

/-- `subs` of one, where `blt` is not taken. -/
theorem toInt_sub_one {x : Word} (left : x.toInt.toNat = j + 1) :
    x.slt 1 = false ∧ (x - 1).toInt.toNat = j ∧ x - 1 = BitVec.ofNat 32 j := by
  have := x.toInt_lt
  have number : x.toNat = j + 1 := by
    rw [BitVec.toInt] at left
    have := x.isLt
    split at left <;> omega
  have small : j + 1 < 2 ^ 31 := by omega
  have less : x - 1 = BitVec.ofNat 32 j := by bv_omega
  refine ⟨?_, ?_, less⟩
  · rw [BitVec.slt, decide_eq_false_iff_not]
    have one : (1 : Word).toInt = 1 := by decide
    omega
  · rw [less, BitVec.toInt, BitVec.toNat_ofNat]
    split <;> omega

theorem offset_add (x y z : Word) : x + y - (x - z) = y + z := by grind

/-! ### The loop -/

/-- `subs` and `blt`, where the branch is not taken. -/
theorem Building.reaches_load (building : Building base argc argv n arg (j + 1) s) :
    ∃ t, Reaches base switchUserAppCode s t ∧ At base 13 t ∧ t.bank = .user ∧ t.Unmasked ∧
      t.r = Function.update s.r 2 (BitVec.ofNat 32 j) ∧ (t.r 2).toInt.toNat = j ∧ t.sp = s.sp ∧
      t.mem = s.mem := by
  obtain ⟨notLess, left, number⟩ := toInt_sub_one building.left
  let s₁ := (Op.subs (.r 2) (.r 2) 1).exec base s
  have taken : s₁.isLess = false := State.isLess_compare.trans notLess
  have at_12 : At base 12 s₁ := building.at_11.succ (Op.exec_pc rfl)
  have branch : (Op.blt 16).exec base s₁ = s₁.next := by
    rw [Op.exec, taken]
    rfl
  have r : s₁.next.r = Function.update s.r 2 (BitVec.ofNat 32 j) := by
    rw [← number]
    rfl
  refine ⟨s₁.next, ?_, at_12.succ rfl, State.compare_bank.trans building.user,
    (State.compare_getLsbD (by decide)).trans building.unmasked, r, ?_, rfl, rfl⟩
  · refine Reaches.head building.at_11 (by decide) rfl (by simp) ?_
    refine Reaches.head at_12 (by decide) rfl (by simp) ?_
    rw [branch]
    exact .refl
  · rw [r, Function.update_self, ← number, left]

/-- One more argument is on the stack. -/
theorem Building.step (clear : ClearOfStack argv n)
    (building : Building base argc argv n arg (j + 1) s) :
    ∃ t, Reaches base switchUserAppCode s t ∧ Building base argc argv n arg j t := by
  obtain ⟨t, first, at_13, user, unmasked, r, left, sp, mem⟩ := building.reaches_load
  have small := clear.1
  have inside : j < n := building.inside
  let u := (Op.ldrIndexed (.r 3) (.r 1) (.r 2)).exec base t
  have value : u.r 3 = arg j := by
    have word : u.r = Function.update t.r 3 (t.mem (t.r 1 + 4 * t.r 2)) := rfl
    have index : (4 : Word) * BitVec.ofNat 32 j = BitVec.ofNat 32 (4 * j) := by bv_omega
    rw [word, Function.update_self, mem, r, Function.update_self,
      Function.update_of_ne (by decide), building.r1, index, building.args j inside]
  have sp' : u.sp .user - 4 = argvBase n + BitVec.ofNat 32 (4 * j) := by
    have same : u.sp .user = s.sp .user := congrFun sp _
    rw [same, building.sp]
    bv_omega
  obtain ⟨stored, pushed⟩ := push_exec (s := u) (q := .r 3) user
  rw [sp'] at stored pushed
  let v := (Op.b 11).exec base ((Instr.stmfd .sp true [.r 3]).exec u)
  have memory : v.mem = Function.update s.mem (argvBase n + BitVec.ofNat 32 (4 * j)) (arg j) := by
    rw [← mem, ← value]
    exact stored
  have r' (i : Fin 13) (other : i ≠ 3) : v.r i = t.r i := Function.update_of_ne other _ _
  have other (i : ℕ) (different : i ≠ j) (below : i ≤ n) :
      v.mem (argvBase n + BitVec.ofNat 32 (4 * i)) =
        s.mem (argvBase n + BitVec.ofNat 32 (4 * i)) := by
    rw [memory, Function.update_of_ne]
    bv_omega
  refine ⟨v, first.trans ?_, ?_⟩
  · have code : switchUserAppCode.drop 13 =
        [.ldrIndexed (.r 3) (.r 1) (.r 2), .instr (.stmfd .sp true [.r 3])] ++
          switchUserAppCode.drop 15 := rfl
    obtain ⟨body, at_15⟩ := Reaches.straight at_13 (by decide) code rfl
    exact body.trans (Reaches.head at_15 (by decide) rfl (by simp) .refl)
  · exact
      { at_11 := rfl
        inside := inside.le
        user := user
        unmasked := unmasked
        r0 := by rw [r' 0 (by decide), r, Function.update_of_ne (by decide), building.r0]
        r1 := by rw [r' 1 (by decide), r, Function.update_of_ne (by decide), building.r1]
        left := by rw [r' 2 (by decide), left]
        sp := pushed
        pushed := by
          intro i above below
          by_cases own : i = j
          · subst own
            rw [memory, Function.update_self]
          · rw [other i own below.le, building.pushed i (by omega) below]
        null := by rw [other n inside.ne' le_rfl, building.null]
        args := by
          intro i below
          have apart := clear.2 i below
          rw [memory, Function.update_of_ne, building.args i below]
          rintro same
          rw [same, offset_add] at apart
          bv_omega }

/-! ### Before the loop -/

/-- The arguments, and the words where the context is stored. -/
def ClearOfContext (argv sp : Word) (n : ℕ) : Prop :=
  ∀ i < n, 52 ≤ (argv + BitVec.ofNat 32 (4 * i) - (sp - 52)).toNat

/-- The mode bits, set by way of r3. -/
def toUser (base : Word) (s : State) : State :=
  ((switchUserAppCode.drop 1).take 6).foldl (fun s op => op.exec base s) s

theorem toUser_r (i : Fin 13) (other : i ≠ 3 ∧ i ≠ 4) : (toUser base s).r i = s.r i := by
  simp only [toUser, switchUserAppCode, List.take, List.drop, List.foldl, Op.exec, Instr.exec,
    State.next, State.setReg, State.reg, Function.update_apply, if_neg other.1, if_neg other.2]

theorem toUser_cpsr : (toUser base s).cpsr = (s.cpsr &&& ~~~0x80 &&& ~~~0x1f) ||| 0x10 := by
  simp only [toUser, switchUserAppCode, List.take, List.drop, List.foldl, Op.exec, Instr.exec,
    State.next, State.setReg, State.reg, Function.update_apply, if_true]

theorem toUser_mem : (toUser base s).mem = s.mem := rfl

theorem toUser_bank : (toUser base s).bank = .user := by
  rw [State.bank, toUser_cpsr, bankOf_write (by decide)]
  decide

theorem toUser_unmasked : (toUser base s).Unmasked := by
  rw [State.Unmasked, toUser_cpsr]
  simp

/-- The context is stored, and the mode is user mode. -/
theorem reaches_user (bank : s.bank = .svc) (entry : s.pc = base) :
    ∃ t, Reaches base switchUserAppCode s t ∧ At base 7 t ∧ t.bank = .user ∧ t.Unmasked ∧
      t.r 0 = s.r 0 ∧ t.r 1 = s.r 1 ∧
      ∀ x, 52 ≤ (x - (s.sp .svc - 52)).toNat → t.mem x = s.mem x := by
  have at_0 : At base 0 s := by
    rw [At, entry]
    simp
  let context : List Reg :=
    [.r 1, .r 2, .r 3, .r 4, .r 5, .r 6, .r 7, .r 8, .r 9, .r 10, .r 11, .r 12, .lr]
  let s₁ := (Instr.stmfd .sp true context).exec s
  have at_1 : At base 1 s₁ := at_0.succ rfl
  have code : switchUserAppCode.drop 1 =
      (switchUserAppCode.drop 1).take 6 ++ switchUserAppCode.drop 7 := rfl
  obtain ⟨reached, at_7⟩ := Reaches.straight at_1 (by decide) code rfl
  refine ⟨toUser base s₁, ?_, at_7, toUser_bank, toUser_unmasked, ?_, ?_, ?_⟩
  · exact Reaches.head at_0 (by decide) rfl (by simp) reached
  · exact toUser_r 0 (by decide)
  · exact toUser_r 1 (by decide)
  · intro x outside
    rw [toUser_mem, Instr.stmfd_mem, bank]
    exact storeWords_outside (by simp [context]) outside

/-- The loop is entered with all arguments left. -/
theorem building_start (clear : ClearOfStack argv n) (context : ClearOfContext argv (s.sp .svc) n)
    (bank : s.bank = .svc) (entry : s.pc = base) (r0 : s.r 0 = argc) (r1 : s.r 1 = argv)
    (count : argc.toInt.toNat = n)
    (args : ∀ i < n, s.mem (argv + BitVec.ofNat 32 (4 * i)) = arg i) :
    ∃ t, Reaches base switchUserAppCode s t ∧ Building base argc argv n arg n t := by
  obtain ⟨t, first, at_7, user, unmasked, t0, t1, mem⟩ := reaches_user bank entry
  have small := clear.1
  let u := (Op.movImm (.r 2) 0).exec base ((Instr.ldrConst .sp Config.usrStack).exec t)
  have sp : u.sp = Function.update t.sp t.bank Config.usrStack := rfl
  have r : u.r = Function.update t.r 2 0 := rfl
  obtain ⟨stored, pushed⟩ := push_exec (q := .r 2) (show u.bank = .user from user)
  rw [sp, user, Function.update_self] at stored pushed
  let v := (Instr.mov (.r 2) (.r 0)).exec ((Instr.stmfd .sp true [.r 2]).exec u)
  have memory : v.mem = Function.update t.mem (Config.usrStack - 4) 0 := by
    have word : u.reg .user (.r 2) = 0 := by
      change u.r 2 = 0
      rw [r, Function.update_self]
    rw [← word]
    exact stored
  have r' : v.r = Function.update u.r 2 (u.r 0) := rfl
  have top : argvBase n + BitVec.ofNat 32 (4 * n) = Config.usrStack - 4 := by
    have words : BitVec.ofNat 32 (4 * (n + 1)) = BitVec.ofNat 32 (4 * n) + 4 := by bv_omega
    rw [argvBase, words]
    grind
  have code : switchUserAppCode.drop 7 =
      (switchUserAppCode.drop 7).take 4 ++ switchUserAppCode.drop 11 := rfl
  obtain ⟨second, at_11⟩ := Reaches.straight at_7 (by decide) code rfl
  refine ⟨v, first.trans second, ?_⟩
  exact
    { at_11 := at_11
      inside := le_rfl
      user := user
      unmasked := unmasked
      r0 := by
        rw [r', r, Function.update_of_ne (by decide), Function.update_of_ne (by decide), t0, r0]
      r1 := by
        rw [r', r, Function.update_of_ne (by decide), Function.update_of_ne (by decide), t1, r1]
      left := by
        rw [r', r, Function.update_self, Function.update_of_ne (by decide), t0, r0, count]
      sp := pushed.trans top.symm
      pushed := fun i above below => absurd below (not_lt.mpr above)
      null := by rw [top, memory, Function.update_self]
      args := by
        intro i below
        have apart := clear.2 i below
        rw [memory, Function.update_of_ne, mem _ (context i below), args i below]
        rintro same
        rw [same, ← top, offset_add] at apart
        bv_omega }

/-! ### After the loop -/

/-- All arguments are on the stack: `blt` leaves the loop. -/
theorem Building.reaches_start (building : Building base argc argv n arg 0 s) :
    ∃ t, Reaches base switchUserAppCode s t ∧ t.pc = Config.usrStartAddr.toBitVec ∧ t.bank = .user ∧
      t.Unmasked ∧ t.sp .user = argvBase n - 4 ∧
      t.mem = Function.update s.mem (argvBase n - 4) argc := by
  have less : (s.r 2).slt 1 = true := by
    have one : (1 : Word).toInt = 1 := by decide
    have := building.left
    rw [BitVec.slt, decide_eq_true_iff]
    omega
  let s₁ := (Op.subs (.r 2) (.r 2) 1).exec base s
  have taken : s₁.isLess = true := State.isLess_compare.trans less
  have user : s₁.bank = .user := State.compare_bank.trans building.user
  let s₂ := (Op.blt 16).exec base s₁
  have branch : s₂ = { s₁ with pc := base + BitVec.ofNat 32 (4 * 16) } := by
    simp only [s₂, Op.exec, taken, if_true]
  have at_12 : At base 12 s₁ := building.at_11.succ (Op.exec_pc rfl)
  have at_16 : At base 16 s₂ := by rw [branch]; rfl
  have sp : s₂.sp .user - 4 = argvBase n - 4 := by
    have same : s₂.sp .user = s.sp .user := by rw [branch]; rfl
    rw [same, building.sp]
    simp
  have user₂ : s₂.bank = .user := by rw [branch]; exact user
  obtain ⟨stored, pushed⟩ := push_exec (q := .r 0) user₂
  let t := (Op.ldrPc Config.usrStartAddr.toBitVec).exec base ((Instr.stmfd .sp true [.r 0]).exec s₂)
  refine ⟨t, ?_, rfl, user₂, ?_, pushed.trans sp, ?_⟩
  · refine Reaches.head building.at_11 (by decide) rfl (by simp) ?_
    refine Reaches.head at_12 (by decide) rfl (by simp) ?_
    refine Reaches.head at_16 (by decide) rfl (by simp) ?_
    exact Reaches.head (at_16.succ (Op.exec_pc rfl)) (by decide) rfl (by simp) .refl
  · have bit : t.cpsr.getLsbD 7 = s₁.cpsr.getLsbD 7 := by
      change s₂.cpsr.getLsbD 7 = _
      rw [branch]
    exact bit.trans ((State.compare_getLsbD (by decide)).trans building.unmasked)
  · have mem : s₂.mem = s.mem := by rw [branch]; rfl
    have value : s₂.reg .user (.r 0) = argc := by
      change s₂.r 0 = argc
      have same : s₂.r = s₁.r := by rw [branch]
      have r : s₁.r = Function.update s.r 2 (s.r 2 - 1) := rfl
      rw [same, r, Function.update_of_ne (by decide), building.r0]
    rw [sp, mem, value] at stored
    exact stored

/-- `_start` finds the arguments on the stack. -/
theorem reaches_main {t : State} (entry : t.pc = base) (user : t.bank = .user)
    (unmasked : t.Unmasked) (sp : t.sp .user = argvBase n - 4)
    (count : t.mem (argvBase n - 4) = argc)
    (args : ∀ i < n, t.mem (argvBase n + BitVec.ofNat 32 (4 * i)) = arg i)
    (null : t.mem (argvBase n + BitVec.ofNat 32 (4 * n)) = 0) :
    ∃ u, Reaches base (startCode main) t u ∧ MainCalled main argc n arg u := by
  have at_0 : At base 0 t := by
    rw [At, entry]
    simp
  have code : (startCode main).drop 0 =
      [.instr (.ldr (.r 0) .sp 0), .instr (.add (.r 1) .sp 4)] ++ [.bl main] := rfl
  obtain ⟨first, at_2⟩ := Reaches.straight at_0 (by decide) code rfl
  let t₁ := (Instr.ldr (.r 0) .sp 0).exec t
  let t₂ := (Instr.add (.r 1) .sp 4).exec t₁
  have r₁ : t₁.r = Function.update t.r 0 (t.mem (t.sp t.bank + 0)) := rfl
  have r₂ : t₂.r = Function.update t₁.r 1 (t.sp t.bank + 4) := rfl
  have argv : t₂.r 1 = argvBase n := by
    rw [r₂, Function.update_self, user, sp]
    exact BitVec.sub_add_cancel _ _
  refine ⟨(Op.bl main).exec base t₂, ?_, ?_⟩
  · exact first.trans (Reaches.head at_2 (by decide) rfl (by simp) .refl)
  · exact
      { user := user
        unmasked := unmasked
        pc := rfl
        argc := by
          change t₂.r 0 = argc
          rw [r₂, Function.update_of_ne (by decide), r₁, Function.update_self, user, sp]
          simpa using count
        argv := argv
        args := by
          intro i below
          change t.mem (t₂.r 1 + _) = _
          rw [argv, args i below]
        null := by
          change t.mem (t₂.r 1 + _) = _
          rw [argv, null]
        sp := by
          change t.sp .user = t₂.r 1 - 4
          rw [argv, sp] }

/-- From `switch_user_app`, in supervisor mode and with the arguments anywhere clear of the two
stacks, `main` is called in user mode with interrupts enabled, and finds `argc` and all words of
`argv` in order, with a null word after them. -/
theorem userApp_started (bank : s.bank = .svc) (entry : s.pc = base) (r0 : s.r 0 = argc)
    (r1 : s.r 1 = argv) (count : argc.toInt.toNat = n) (clear : ClearOfStack argv n)
    (context : ClearOfContext argv (s.sp .svc) n) :
    ∃ t u, Reaches base switchUserAppCode s t ∧ t.pc = Config.usrStartAddr.toBitVec ∧
      Reaches Config.usrStartAddr.toBitVec (startCode main) t u ∧
      MainCalled main argc n (fun i => s.mem (argv + BitVec.ofNat 32 (4 * i))) u := by
  obtain ⟨s₁, first, building⟩ :=
    building_start clear context bank entry r0 r1 count fun i _ => rfl
  obtain ⟨s₂, second, building⟩ :=
    Reaches.loop (I := Building base argc argv n _) (fun _ _ => Building.step clear) building
  obtain ⟨t, third, pc, user, unmasked, sp, mem⟩ := building.reaches_start
  have small := clear.1
  have other (i : ℕ) (inside : i ≤ n) :
      t.mem (argvBase n + BitVec.ofNat 32 (4 * i)) =
        s₂.mem (argvBase n + BitVec.ofNat 32 (4 * i)) := by
    rw [mem, Function.update_of_ne]
    bv_omega
  obtain ⟨u, started, called⟩ := reaches_main pc user unmasked sp
    (by rw [mem, Function.update_self])
    (fun i below => (other i below.le).trans (building.pushed i i.zero_le below))
    ((other n le_rfl).trans building.null)
  exact ⟨t, u, first.trans (second.trans third), pc, started, called⟩

/-- Two arguments; a word in memory is its own address. -/
theorem userApp_started_two :
    ∃ s t u, Reaches 0xa3000100 switchUserAppCode s t ∧ t.pc = Config.usrStartAddr.toBitVec ∧
      Reaches Config.usrStartAddr.toBitVec (startCode 0xa0000040) t u ∧
      MainCalled 0xa0000040 2 2 (fun i => 0xa3e00000 + BitVec.ofNat 32 (4 * i)) u := by
  let s : State :=
    { r := fun i => if i = 0 then 2 else if i = 1 then 0xa3e00000 else 0
      sp := fun _ => 0xa3edf000
      lr := fun _ => 0
      spsr := fun _ => 0
      pc := 0xa3000100
      cpsr := 0xd3
      mem := fun x => x }
  have supervisor : bankOf 0xd3 = .svc := by decide
  have clear : ClearOfStack 0xa3e00000 2 := by
    unfold ClearOfStack
    decide
  have context : ClearOfContext 0xa3e00000 0xa3edf000 2 := by
    unfold ClearOfContext
    decide
  exact ⟨s, userApp_started (s := s) supervisor rfl rfl rfl rfl clear context⟩

end Gravel
