import Ghost.Schedfair.Updates

/-!
# Windows of runnability

A task's share of a window is the difference of two readings of `accum_fair_share`, made by
whichever CPUs its wakeup and its block are traced on.
-/

set_option autoImplicit false

namespace Ghost.Schedfair

open Lib

section Windows

variable {Core Pid : Type} [DecidableEq Core] [Fintype Pid] [DecidableEq Pid]
  {nrMilliCpus : BitVec 32} {memory memory' : Memory Pid} {cpu cpu' : Cpu Pid}
  {system next : System Core Pid}

/-- The CPU is inside `task_wakeup` or `task_block` for a task. -/
def Cpu.Works (cpu : Cpu Pid) (pid : Pid) (runnable : Bool) : Prop :=
  match cpu.pc with
  | .post p becomes | .poke p becomes _ | .collect p becomes => p.pid = pid ∧ becomes = runnable
  | _ => False

omit [Fintype Pid] [DecidableEq Pid] in
private theorem Cpu.Works.concerns {pid : Pid} {runnable : Bool} (works : cpu.Works pid runnable) :
    cpu.Concerns pid := by
  obtain ⟨pc, todo⟩ := cpu
  cases pc with
  | ready => cases works
  | account p idx => cases works
  | _ p => exact .inl ⟨p, rfl, works.1⟩

omit [Fintype Pid] [DecidableEq Pid] in
theorem Cpu.Works.tracked {pid : Pid} {runnable : Bool} (works : cpu.Works pid runnable)
    (posts : cpu.Posts memory) : (memory.info pid).loadTracked = runnable := by
  obtain ⟨pc, todo⟩ := cpu
  cases pc with
  | ready => cases works
  | account p idx => cases works
  | _ p =>
      obtain ⟨rfl, rfl⟩ := works
      exact posts.1

/-- From the end of `task_wakeup` to the end of `task_block`. -/
def System.Open (system : System Core Pid) (pid : Pid) : Prop :=
  (∃ core, (system.cpus core).Works pid false) ∨
    (system.memory.info pid).loadTracked = true ∧ ∀ core, ¬(system.cpus core).Works pid true

/-- The same, if no other CPU works on the task. -/
def Cpu.Open (memory : Memory Pid) (cpu : Cpu Pid) (pid : Pid) : Prop :=
  cpu.Works pid false ∨ (memory.info pid).loadTracked = true ∧ ¬cpu.Works pid true

omit [DecidableEq Core] [Fintype Pid] [DecidableEq Pid] in
private theorem System.open_iff {core : Core} {pid : Pid}
    (others : ∀ other runnable, other ≠ core → ¬(system.cpus other).Works pid runnable) :
    system.Open pid ↔ (system.cpus core).Open system.memory pid := by
  have isCore : ∀ other runnable, (system.cpus other).Works pid runnable → other = core := by
    intro other runnable works
    by_contra different
    exact others other runnable different works
  constructor
  · intro isOpen
    obtain ⟨other, works⟩ | ⟨tracked, nobody⟩ := isOpen
    · exact .inl (isCore other false works ▸ works)
    · exact .inr ⟨tracked, nobody core⟩
  · intro isOpen
    obtain works | ⟨tracked, notCore⟩ := isOpen
    · exact .inl ⟨core, works⟩
    · exact .inr ⟨tracked, fun other works => notCore (isCore other true works ▸ works)⟩

/-- What a task has is part of what has accrued, and was so when it woke up. -/
structure Window (accum : BitVec 64) (ti : TaskInfo) (isOpen : Prop) : Prop where
  wake : ti.shareAtWake.toNat ≤ accum.toNat
  total : ti.totalCpuShare.toNat ≤ accum.toNat
  opened : isOpen → ti.totalCpuShare.toNat ≤ ti.shareAtWake.toNat

private theorem Window.mono {accum accum' : BitVec 64} {ti ti' : TaskInfo} {isOpen isOpen' : Prop}
    (window : Window accum ti isOpen) (grows : accum.toNat ≤ accum'.toNat)
    (wake : ti'.shareAtWake = ti.shareAtWake) (total : ti'.totalCpuShare = ti.totalCpuShare)
    (opens : isOpen' → isOpen) : Window accum' ti' isOpen' := by
  refine ⟨?_, ?_, fun isOpen => ?_⟩
  · rw [wake]
    exact window.wake.trans grows
  · rw [total]
    exact window.total.trans grows
  · rw [wake, total]
    exact window.opened (opens isOpen)

/-- The end of `task_block`. -/
theorem Window.toNat_collected {accum : BitVec 64} {ti : TaskInfo} (window : Window accum ti True) :
    (ti.totalCpuShare + (accum - ti.shareAtWake)).toNat =
      ti.totalCpuShare.toNat + (accum.toNat - ti.shareAtWake.toNat) := by
  have opened := window.opened trivial
  have wake := window.wake
  have isLt := accum.isLt
  rw [BitVec.toNat_add, BitVec.toNat_sub_of_le (BitVec.le_def.mpr wake)]
  omega

omit [Fintype Pid] [DecidableEq Pid] in
theorem afterPoke_works {p : TaskStruct Pid} {runnable becomes : Bool} {pid : Pid}
    (returned : Option PokePc) (todo : List (Call Pid)) :
    (⟨afterPoke p runnable returned, todo⟩ : Cpu Pid).Works pid becomes ↔
      p.pid = pid ∧ runnable = becomes := by
  cases returned <;> exact Iff.rfl

omit [Fintype Pid] [DecidableEq Pid] in
theorem Cpu.open_congr {pid : Pid} (tracked : (memory'.info pid).loadTracked =
      (memory.info pid).loadTracked)
    (works : ∀ runnable, cpu'.Works pid runnable ↔ cpu.Works pid runnable) :
    cpu'.Open memory' pid ↔ cpu.Open memory pid := by
  unfold Cpu.Open
  rw [tracked, works, works]

omit [Fintype Pid] in
/-- With its reading of `accum_fair_share` the call is over. -/
theorem Memory.collect_finished (p : TaskStruct Pid) (runnable : Bool) (todo : List (Call Pid))
    (pid : Pid) (becomes : Bool) :
    ¬(⟨(memory.collect p runnable).2, todo⟩ : Cpu Pid).Works pid becomes := by
  obtain isReady | ⟨idx, accounts⟩ := memory.collect_pc p runnable
  · rw [isReady]
    exact id
  · rw [accounts]
    exact id

private theorem Cpu.Accesses.window (accesses : Cpu.Accesses nrMilliCpus memory cpu memory' cpu')
    (posts : cpu.Posts memory)
    (grows : memory.globals.accumFairShare.toNat ≤ memory'.globals.accumFairShare.toNat) {pid : Pid}
    (window : Window memory.globals.accumFairShare (memory.info pid) (cpu.Open memory pid)) :
    Window memory'.globals.accumFairShare (memory'.info pid) (cpu'.Open memory' pid) := by
  cases accesses with
  | start call todo =>
      have starts := memory.start_starts call
      obtain ⟨isReady, same⟩ | ⟨runnable, isPost, tracked, changed⟩ := starts.outcome
      · obtain ⟨tracked, wake, total⟩ := same pid
        apply window.mono grows wake total
        rw [isReady]
        exact (Cpu.open_congr tracked fun _ => Iff.rfl).mp
      · by_cases isTask : pid = call.task.pid
        · subst isTask
          have info : (memory.start call).1.info call.task.pid =
              { memory.info call.task.pid with loadTracked := runnable } := by
            rw [changed, Function.update_self]
          rw [isPost]
          apply window.mono grows
          · rw [info]
          · rw [info]
          · intro isOpen
            obtain works | ⟨isTracked, notWaking⟩ := isOpen
            · right
              rw [tracked, works.2]
              exact ⟨rfl, id⟩
            · rw [info] at isTracked
              exact absurd ⟨rfl, isTracked⟩ notWaking
        · obtain ⟨sameTracked, wake, total⟩ := (memory.start_frames call isTask).shares
          apply window.mono grows wake total
          rw [isPost]
          refine (Cpu.open_congr sameTracked fun becomes => ?_).mp
          constructor
          · intro works
            exact isTask works.1.symm
          · exact False.elim
  | post p runnable todo => exact window.mono grows rfl rfl id
  | poke p runnable pc todo =>
      apply window.mono grows rfl rfl
      exact (Cpu.open_congr rfl fun becomes => afterPoke_works _ _).mp
  | collect p runnable todo =>
      have finished := memory.collect_finished p runnable todo pid
      by_cases isTask : pid = p.pid
      · subst isTask
        obtain ⟨tracked, -, present⟩ := posts
        have info := congrFun (Memory.collect_info present runnable) p.pid
        rw [Function.update_self] at info
        have accum := (memory.collect_retains p runnable).clockwork.accum
        rw [info, accum]
        cases runnable with
        | true => exact ⟨le_rfl, window.total, fun _ => window.total⟩
        | false =>
            have isOpen : (⟨.collect p false, todo⟩ : Cpu Pid).Open memory p.pid := .inl ⟨rfl, rfl⟩
            have opened := window.opened isOpen
            have collected := Window.toNat_collected ⟨window.wake, window.total, fun _ => opened⟩
            have wake := window.wake
            refine ⟨wake, ?_, ?_⟩
            · show (_ + _ : BitVec 64).toNat ≤ _
              rw [collected]
              omega
            · intro stillOpen
              obtain works | ⟨isTracked, -⟩ := stillOpen
              · exact absurd works (finished false)
              · rw [info] at isTracked
                exact absurd (tracked.symm.trans isTracked) Bool.false_ne_true
      · obtain ⟨tracked, wake, total⟩ := (memory.collect_frames p runnable isTask).shares
        apply window.mono grows wake total
        refine (Cpu.open_congr tracked fun becomes => ?_).mp
        constructor
        · intro works
          exact absurd works (finished becomes)
        · intro works
          exact absurd works.1.symm isTask
  | account p idx todo =>
      have same := memory.account_eq idx
      apply window.mono grows
      · rw [Memory.info, same]
        rfl
      · rw [Memory.info, same]
        rfl
      · apply (Cpu.open_congr _ fun becomes => Iff.rfl).mp
        rw [Memory.info, same]
        rfl

def Windows (system : System Core Pid) : Prop :=
  ∀ pid, Window system.memory.globals.accumFairShare (system.memory.info pid) (system.Open pid)

private theorem Windows.access (windows : Windows system) (posting : Posting system) {core : Core}
    (accesses : Cpu.Accesses nrMilliCpus system.memory (system.cpus core) memory' cpu')
    (grows : system.memory.globals.accumFairShare.toNat ≤ memory'.globals.accumFairShare.toNat) :
    Windows (system.setCpu memory' core cpu') := by
  intro pid
  by_cases concerned : (system.cpus core).Concerns pid
  · have others : ∀ other runnable, other ≠ core → ¬(system.cpus other).Works pid runnable := by
      intro other runnable different works
      exact different (posting.serial other core pid works.concerns concerned)
    have window := windows pid
    rw [System.open_iff others] at window
    have after := accesses.window (posting.cpus core) grows window
    rw [@System.open_iff _ _ _ core]
    · rw [System.setCpu_self]
      exact after
    · intro other runnable different
      rw [System.setCpu_of_ne _ _ _ different]
      exact others other runnable different
  · obtain ⟨tracked, wake, total⟩ := (accesses.frames concerned).shares
    have notCore : ∀ runnable, ¬cpu'.Works pid runnable :=
      fun runnable works => concerned (accesses.concerns works.concerns)
    apply (windows pid).mono grows wake total
    intro isOpen
    obtain ⟨other, works⟩ | ⟨isTracked, nobody⟩ := isOpen
    · by_cases isCore : other = core
      · rw [isCore, System.setCpu_self] at works
        exact absurd works (notCore false)
      · rw [System.setCpu_of_ne _ _ _ isCore] at works
        exact .inl ⟨other, works⟩
    · refine .inr ⟨tracked.symm.trans isTracked, fun other works => ?_⟩
      by_cases isCore : other = core
      · exact concerned (isCore ▸ works.concerns)
      · apply nobody other
        rwa [System.setCpu_of_ne _ _ _ isCore]

theorem Windows.step (windows : Windows system) (posting : Posting system)
    (updates : Updates nrMilliCpus system) {action : Action Core Pid}
    (stepped : system.Step nrMilliCpus action next) : Windows next := by
  have grows := updates.step_accum stepped
  cases stepped with
  | @trace core tracepoint isReady _ _ =>
      intro pid
      apply (windows pid).mono grows rfl rfl
      intro isOpen
      have outside : ∀ runnable, ¬(system.cpus core).Works pid runnable := by
        intro runnable works
        simp only [Cpu.Works, isReady] at works
      obtain ⟨other, works⟩ | ⟨isTracked, nobody⟩ := isOpen
      · by_cases isCore : other = core
        · rw [isCore, System.setCpu_self] at works
          cases works
        · rw [System.setCpu_of_ne _ _ _ isCore] at works
          exact .inl ⟨other, works⟩
      · refine .inr ⟨isTracked, fun other works => ?_⟩
        by_cases isCore : other = core
        · exact outside true (isCore ▸ works)
        · apply nobody other
          rwa [System.setCpu_of_ne _ _ _ isCore]
  | @access core effect accessed =>
      exact windows.access posting (Cpu.access_accesses accessed) grows
  | tick _ =>
      intro pid
      exact (windows pid).mono grows rfl rfl id

theorem windows_of_reachable (reachable : (schedfair Core Pid nrMilliCpus).Reachable system) :
    Windows system := by
  have holds := reachable.invariant
    (fun state => (Posting state ∧ Updates nrMilliCpus state) ∧ Windows state) ?_ ?_
  · exact holds.2
  · intro state initial
    refine ⟨⟨initial.posting, initial.updates⟩, fun pid => ?_⟩
    have fresh : state.memory.info pid = .fresh := by
      rw [Memory.info, initial.tasks]
      rfl
    rw [fresh]
    exact ⟨Nat.zero_le _, Nat.zero_le _, fun _ => le_rfl⟩
  · intro state action next holds stepped
    obtain ⟨⟨posting, updates⟩, windows⟩ := holds
    exact ⟨⟨posting.step stepped, updates.step posting stepped⟩,
      windows.step posting updates stepped⟩

/-- The shares of a task never wrap, whichever CPUs read `accum_fair_share` and however late: when
a block is accounted, the share at the wakeup is no more than what has accrued, and the sum of all
windows of a task is never more than the integral from the start. -/
theorem shares_within_accrued (reachable : (schedfair Core Pid nrMilliCpus).Reachable system) :
    (∀ pid, (system.memory.info pid).totalCpuShare.toNat ≤
      system.memory.globals.accumFairShare.toNat) ∧
    ∀ core p, (system.cpus core).pc = .collect p false →
      ((system.memory.info p.pid).totalCpuShare +
          (system.memory.globals.accumFairShare -
            (system.memory.info p.pid).shareAtWake)).toNat =
        (system.memory.info p.pid).totalCpuShare.toNat +
          (system.memory.globals.accumFairShare.toNat -
            (system.memory.info p.pid).shareAtWake.toNat) ∧
      (system.memory.info p.pid).shareAtWake.toNat ≤
        system.memory.globals.accumFairShare.toNat := by
  have windows := windows_of_reachable reachable
  refine ⟨fun pid => (windows pid).total, fun core p at_collect => ?_⟩
  have window := windows p.pid
  have isOpen : system.Open p.pid := by
    refine .inl ⟨core, ?_⟩
    simp only [Cpu.Works, at_collect]
    exact ⟨trivial, trivial⟩
  have opened := window.opened isOpen
  exact ⟨Window.toNat_collected ⟨window.wake, window.total, fun _ => opened⟩, window.wake⟩

/-- A task wakes up, runs for three milliseconds and blocks. -/
def wakeAndBlock : List (Action Bool Bool) :=
  .trace false (.schedWakeup (niceTask false)) :: List.replicate 14 (Action.access false) ++
    Action.tick 3000000 ::
      Action.trace true (.schedSwitch false ⟨false, 0, 1, 120⟩ ⟨true, 2, 0, 120⟩) ::
      List.replicate 17 (Action.access true)

theorem shares_within_accrued_block :
    ∃ system, (schedfair Bool Bool 4000).Reachable system ∧
      (system.cpus true).pc = .collect ⟨false, 0, 1, 120⟩ false ∧
      ((system.memory.info false).totalCpuShare + (system.memory.globals.accumFairShare -
        (system.memory.info false).shareAtWake)).toNat = 3000000 := by
  obtain ⟨system, reachable, holds⟩ := @booted_reaches 4000 wakeAndBlock
    (fun system => decide ((system.cpus true).pc = .collect ⟨false, 0, 1, 120⟩ false) &&
      decide (system.memory.globals.accumFairShare = 3000000) &&
      decide ((system.memory.info false).totalCpuShare = 0) &&
      decide ((system.memory.info false).shareAtWake = 0)) (by decide +kernel)
  simp only [Bool.and_eq_true, decide_eq_true_eq] at holds
  obtain ⟨⟨⟨at_collect, accum⟩, total⟩, wake⟩ := holds
  refine ⟨system, reachable, at_collect, ?_⟩
  rw [((shares_within_accrued reachable).2 true _ at_collect).1, accum, total, wake]
  rfl

end Windows

end Ghost.Schedfair
