import Ghost.Fifo.Placement

/-!
# The FIFO invariant

Every handler keeps the scheduler consistent, so no task is lost over any
sequence of messages and scheduling steps.
-/

set_option autoImplicit false

namespace Ghost.Fifo

open Lib
open O1 (Fault TaskPtr CpuId Effect Switchto check bind_eq_ok check_eq_ok)

namespace FifoScheduler

variable {scheduler next : FifoScheduler} {cpu : CpuId} {ptr : TaskPtr} {task task' : FifoTask}
  {moving : Option TaskPtr}

theorem init_consistent (cpus : List CpuId) : (init cpus).Consistent none where
  view _ := View.ext rfl rfl rfl
  located _ _ allocated := by cases allocated

namespace Consistent

/-- A change of a record that leaves its state and its CPU. -/
theorem adjust (consistent : scheduler.Consistent moving)
    (allocated : scheduler.tasks ptr = some task) (sameState : task'.runState = task.runState)
    (sameCpu : task'.cpu = task.cpu) : (scheduler.put ptr task').Consistent moving := by
  apply consistent.store
  · intro other _
    exact Iff.rfl
  · rw [consistent.view, allocated]
    simp [View.of, FifoTask.on, sameState, sameCpu]
  · intro found stored
    cases stored
    unfold FifoTask.Located
    rw [sameState, sameCpu]
    exact consistent.located ptr task allocated

/-- A task that is nowhere becomes runnable. -/
theorem takeUp (consistent : scheduler.Consistent none)
    (away : scheduler.view none ptr = View.away false) (runnable : task.runState = .kRunnable)
    (located : task.Located) : (scheduler.put ptr task).Consistent (some ptr) := by
  apply consistent.store
  · intro other different
    simp [different.symm]
  · rw [View.of_runnable runnable, view_away away (some ptr)]
    exact congrArg View.away (decide_eq_true rfl)
  · intro found stored
    cases stored
    exact located

/-- A task in hand, or blocked, is freed. -/
theorem free (consistent : scheduler.Consistent moving) (hand : moving = none ∨ moving = some ptr)
    {held : Bool} (away : scheduler.view moving ptr = View.away held) :
    (scheduler.setTasks (scheduler.tasks.free ptr)).Consistent none := by
  apply consistent.store
  · intro other different
    cases hand with
    | inl rests => simp [rests]
    | inr moves => simp [moves, different.symm]
  · rw [View.of_none, view_away away none]
    rfl
  · intro found stored
    cases stored

theorem emit (consistent : scheduler.Consistent moving) (effect : Effect) :
    (scheduler.emit effect).Consistent moving := ⟨consistent.view, consistent.located⟩

private theorem pingSwitchto_tasks (payload : Switchto) :
    (scheduler.pingSwitchto payload).tasks = scheduler.tasks := by
  unfold FifoScheduler.pingSwitchto
  split <;> rfl

private theorem pingSwitchto (consistent : scheduler.Consistent moving) (payload : Switchto) :
    (scheduler.pingSwitchto payload).Consistent moving := by
  unfold FifoScheduler.pingSwitchto
  split
  · exact consistent.emit _
  · exact consistent

private theorem assignCpu (consistent : scheduler.Consistent moving) {cpus : List CpuId}
    (result : scheduler.assignCpu cpus = .ok (cpu, next)) : next.Consistent moving := by
  unfold FifoScheduler.assignCpu at result
  dsimp only at result
  split at result
  · cases result
    exact ⟨consistent.view, consistent.located⟩
  · cases result

private theorem migrate (consistent : scheduler.Consistent (some ptr)) {seqnum : Nat}
    {associated : Bool}
    (result : scheduler.migrate ptr cpu seqnum associated = .ok next) : next.Consistent none := by
  simp only [FifoScheduler.migrate, bind_eq_ok, Tasks.read_eq_ok, check_eq_ok,
    Except.ok.injEq] at result
  obtain ⟨task, allocated, -, runnable, -, -, -, -, queued, queueing, rfl⟩ := result
  have away := consistent.view_runnable allocated runnable
  have placed : ((scheduler.emit (.associateTask task.gtid cpu seqnum)).put ptr
      { task with cpu := cpu.val }).Consistent (some ptr) := by
    apply (consistent.emit _).store
    · intro other _
      exact Iff.rfl
    · refine away.trans (Eq.symm ?_)
      exact View.of_runnable runnable
    · intro found stored
      cases stored
      exact .inr ⟨cpu, rfl⟩
  apply Consistent.emit
  apply enqueueOn_consistent placed ?_ queueing
  intro found stored
  cases (Tasks.put_self _).symm.trans stored
  rfl

/-! ## Task messages -/

private theorem taskNew (consistent : scheduler.Consistent none)
    (fresh : scheduler.tasks ptr = none)
    {cpus : List CpuId} {gtid seqnum : Nat} {runnable associated : Bool}
    (result : (scheduler.put ptr { gtid := gtid }).taskNew cpus ptr seqnum runnable associated =
      .ok next) : next.Consistent none := by
  have away : scheduler.view none ptr = View.away false := by
    rw [consistent.view, fresh]
    exact View.of_none
  have allocation : (scheduler.put ptr { gtid := gtid }).Consistent none := by
    apply consistent.store
    · intro other _
      exact Iff.rfl
    · exact away.trans (View.of_blocked rfl).symm
    · intro found stored
      cases stored
      exact .inl ⟨rfl, .inl rfl⟩
  simp only [FifoScheduler.taskNew, bind_eq_ok, Tasks.read_eq_ok] at result
  obtain ⟨task, allocated, result⟩ := result
  cases (Tasks.put_self _).symm.trans allocated
  split at result
  · simp only [bind_eq_ok] at result
    obtain ⟨⟨cpu, assigned⟩, assignment, result⟩ := result
    have located : ({ gtid := gtid, seqnum := seqnum, runState := .kRunnable } : FifoTask).Located :=
      .inl ⟨rfl, .inr rfl⟩
    have taken := allocation.takeUp away rfl located
    exact (taken.assignCpu assignment).migrate result
  · cases result
    exact allocation.adjust allocated rfl rfl

private theorem taskRunnable (consistent : scheduler.Consistent none) {cpus : List CpuId}
    {seqnum : Nat}
    {deferrable associated : Bool}
    (result : scheduler.taskRunnable cpus ptr seqnum deferrable associated = .ok next) :
    next.Consistent none := by
  simp only [FifoScheduler.taskRunnable, bind_eq_ok, Tasks.read_eq_ok, check_eq_ok] at result
  obtain ⟨task, allocated, -, blocked, result⟩ := result
  have located : ({ task with runState := .kRunnable, prioBoost := !deferrable } :
      FifoTask).Located := by
    cases consistent.located ptr task allocated with
    | inl unplaced => exact .inl ⟨unplaced.1, .inr rfl⟩
    | inr placed => exact .inr placed
  have taken := consistent.takeUp (consistent.view_blocked allocated blocked) rfl located
  split at result
  · simp only [bind_eq_ok] at result
    obtain ⟨⟨cpu, assigned⟩, assignment, result⟩ := result
    exact (taken.assignCpu assignment).migrate result
  · simp only [bind_eq_ok, cpuStateOf_eq_ok] at result
    obtain ⟨cpu, home, queueing⟩ := result
    apply enqueueOn_consistent taken ?_ queueing
    intro found stored
    cases (Tasks.put_self _).symm.trans stored
    exact home

private theorem view_moving (consistent : scheduler.Consistent (some ptr)) :
    scheduler.view (some ptr) ptr = View.away true := by
  obtain ⟨task, allocated, runnable⟩ := consistent.moving_iff.mp rfl
  exact consistent.view_runnable allocated runnable

private theorem taskDeparted (consistent : scheduler.Consistent none) {payload : Switchto}
    (result : scheduler.taskDeparted ptr payload = .ok next) : next.Consistent none := by
  simp only [FifoScheduler.taskDeparted, bind_eq_ok, Tasks.read_eq_ok, Except.ok.injEq] at result
  obtain ⟨task, allocated, taken, result, rfl⟩ := result
  split at result
  · have moved := (taskOffCpu_consistent consistent result).pingSwitchto payload
    exact moved.free (.inr rfl) moved.view_moving
  · split at result
    · next queued =>
        simp only [bind_eq_ok, cpuStateOf_eq_ok] at result
        obtain ⟨cpu, home, erasing⟩ := result
        have moved := (eraseOn_consistent consistent allocated queued home erasing).pingSwitchto
          payload
        exact moved.free (.inr rfl) moved.view_moving
    · simp only [bind_eq_ok, check_eq_ok, Except.ok.injEq] at result
      obtain ⟨-, blocked, rfl⟩ := result
      have pinged := consistent.pingSwitchto payload
      rw [← pingSwitchto_tasks payload] at allocated
      exact pinged.free (.inl rfl) (pinged.view_blocked allocated blocked)

private theorem taskDead (consistent : scheduler.Consistent none)
    (result : scheduler.taskDead ptr = .ok next) : next.Consistent none := by
  simp only [FifoScheduler.taskDead, bind_eq_ok, Tasks.read_eq_ok, check_eq_ok,
    Except.ok.injEq] at result
  obtain ⟨task, allocated, -, blocked, rfl⟩ := result
  exact consistent.free (.inl rfl) (consistent.view_blocked allocated blocked)

private theorem taskYield (consistent : scheduler.Consistent none) {payload : Switchto}
    (result : scheduler.taskYield ptr payload = .ok next) : next.Consistent none := by
  simp only [FifoScheduler.taskYield, bind_eq_ok, Tasks.read_eq_ok, cpuStateOf_eq_ok,
    Except.ok.injEq] at result
  obtain ⟨taken, leaving, task, allocated, cpu, home, queued, queueing, rfl⟩ := result
  apply Consistent.pingSwitchto
  apply enqueueOn_consistent (taskOffCpu_consistent consistent leaving) ?_ queueing
  intro found stored
  cases allocated.symm.trans stored
  exact home

private theorem taskBlocked (consistent : scheduler.Consistent none) {payload : Switchto}
    (result : scheduler.taskBlocked ptr payload = .ok next) : next.Consistent none := by
  simp only [FifoScheduler.taskBlocked, bind_eq_ok, Except.ok.injEq] at result
  obtain ⟨taken, leaving, rfl⟩ := result
  exact (taskOffCpu_consistent consistent leaving).pingSwitchto payload

/-- Requeueing the task in hand with other flags. -/
theorem requeue (consistent : scheduler.Consistent (some ptr))
    (allocated : scheduler.tasks ptr = some task) (sameState : task'.runState = task.runState)
    (sameCpu : task'.cpu = task.cpu) (home : task.cpu = cpu.val)
    (result : (scheduler.put ptr task').enqueueOn cpu ptr = .ok next) : next.Consistent none := by
  apply enqueueOn_consistent (consistent.adjust allocated sameState sameCpu) ?_ result
  intro found stored
  cases (Tasks.put_self _).symm.trans stored
  exact sameCpu.trans home

private theorem taskPreempted (consistent : scheduler.Consistent none) {payload : Switchto}
    (result : scheduler.taskPreempted ptr payload = .ok next) : next.Consistent none := by
  simp only [FifoScheduler.taskPreempted, bind_eq_ok, Tasks.read_eq_ok, cpuStateOf_eq_ok,
    Except.ok.injEq] at result
  obtain ⟨taken, leaving, task, allocated, cpu, home, queued, queueing, rfl⟩ := result
  apply Consistent.pingSwitchto
  apply (taskOffCpu_consistent consistent leaving).requeue allocated ?_ ?_ home queueing
  · rfl
  · rfl

private theorem advance (consistent : scheduler.Consistent none) {seqnum : Nat}
    (result : scheduler.advance ptr seqnum = .ok next) : next.Consistent none := by
  simp only [FifoScheduler.advance, bind_eq_ok, Tasks.read_eq_ok, check_eq_ok,
    Except.ok.injEq] at result
  obtain ⟨task, allocated, -, -, rfl⟩ := result
  exact consistent.adjust allocated rfl rfl

/-! ## Scheduling -/

/-- `next` is the current task, or was just dequeued. -/
theorem commitNext {chosen : TaskPtr} {agentBarrier : Nat} {committed : Bool}
    (consistent : scheduler.Consistent moving)
    (hand : moving = some chosen ∧ (scheduler.cpuStates cpu).current = none ∨
      moving = none ∧ (scheduler.cpuStates cpu).current = some chosen)
    (home : ∀ task, scheduler.tasks chosen = some task → task.cpu = cpu.val)
    (result : scheduler.commitNext cpu chosen agentBarrier committed = .ok next) :
    next.Consistent none := by
  simp only [FifoScheduler.commitNext, bind_eq_ok, Tasks.read_eq_ok] at result
  obtain ⟨task, allocated, result⟩ := result
  have opened := (consistent.emit (.openTxn cpu task.gtid task.seqnum agentBarrier)).emit
    (.commit cpu committed)
  split at result
  · exact taskOnCpu_consistent opened hand result
  · simp only [bind_eq_ok, Tasks.read_eq_ok] at result
    obtain ⟨taken, leaving, task', allocated', queueing⟩ := result
    split at leaving
    · next isCurrent =>
        cases hand with
        | inl held => cases held.2.symm.trans isCurrent
        | inr rests =>
            obtain ⟨rfl, -⟩ := rests
            obtain ⟨before, cpu', stored, home', reason⟩ := taskOffCpu_eq_ok.mp leaving
            have sameCpu : task'.cpu = before.cpu := by
              obtain ⟨-, -, rfl⟩ | ⟨-, -, rfl⟩ := reason
              · cases (Tasks.put_self _).symm.trans allocated'
                rfl
              · cases (Tasks.put_self _).symm.trans allocated'
                rfl
            have homeAfter : task'.cpu = cpu.val := sameCpu.trans (home before stored)
            apply (taskOffCpu_consistent opened leaving).requeue allocated' ?_ ?_ homeAfter queueing
            · rfl
            · rfl
    · next notCurrent =>
        cases leaving
        cases hand with
        | inl held =>
            obtain ⟨rfl, -⟩ := held
            apply opened.requeue allocated' ?_ ?_ (home task' allocated') queueing
            · rfl
            · rfl
        | inr rests => exact absurd rests.2 notCurrent

private theorem fifoSchedule (consistent : scheduler.Consistent none) {agentBarrier : Nat}
    {prioBoost committed : Bool}
    (result : scheduler.fifoSchedule cpu agentBarrier prioBoost committed = .ok next) :
    next.Consistent none := by
  simp only [FifoScheduler.fifoSchedule, bind_eq_ok] at result
  obtain ⟨⟨chosen, picked⟩, picking, result⟩ := result
  unfold pickNext at picking
  split at picking
  · cases picking
    cases result
    exact consistent.emit _
  · split at picking
    · next current isCurrent =>
        cases picking
        obtain ⟨task, allocated, -, home⟩ := consistent.current_iff.mp isCurrent
        apply consistent.commitNext (.inr ⟨rfl, isCurrent⟩) ?_ result
        intro found stored
        cases allocated.symm.trans stored
        exact home
    · next idle =>
        obtain ⟨moved, sameCurrent, popped⟩ := dequeueOn_consistent consistent picking
        have stillIdle : (picked.cpuStates cpu).current = none := sameCurrent.trans idle
        cases chosen with
        | none =>
            cases result
            exact moved.emit _
        | some chosen =>
            apply moved.commitNext (.inl ⟨rfl, stillIdle⟩) ?_ result
            intro found stored
            obtain ⟨task, allocated, home⟩ := popped chosen rfl
            cases allocated.symm.trans stored
            exact home

private theorem dispatchKnown (consistent : scheduler.Consistent none)
    {handled : Except Fault FifoScheduler} {seqnum : Option Nat}
    (kept : ∀ after, handled = .ok after → after.Consistent none)
    (result : scheduler.dispatchKnown ptr handled seqnum = .ok next) : next.Consistent none := by
  unfold FifoScheduler.dispatchKnown at result
  split at result
  · cases result
    exact consistent
  · rw [bind_eq_ok] at result
    obtain ⟨after, handling, result⟩ := result
    cases seqnum with
    | none =>
        cases result
        exact kept _ handling
    | some seqnum => exact (kept after handling).advance result

theorem dispatch (consistent : scheduler.Consistent none) {cpus : List CpuId} {event : Event}
    (result : scheduler.dispatch cpus event = .ok next) : next.Consistent none := by
  unfold FifoScheduler.dispatch at result
  cases event with
  | taskNew ptr gtid seqnum runnable associated =>
      dsimp only at result
      split at result
      · cases result
        exact consistent
      · next fresh => exact consistent.taskNew fresh result
  | taskRunnable => exact consistent.dispatchKnown (fun _ => consistent.taskRunnable) result
  | taskDeparted => exact consistent.dispatchKnown (fun _ => consistent.taskDeparted) result
  | taskDead => exact consistent.dispatchKnown (fun _ => consistent.taskDead) result
  | taskYield => exact consistent.dispatchKnown (fun _ => consistent.taskYield) result
  | taskBlocked => exact consistent.dispatchKnown (fun _ => consistent.taskBlocked) result
  | taskPreempted => exact consistent.dispatchKnown (fun _ => consistent.taskPreempted) result
  | taskSwitchto =>
      exact consistent.dispatchKnown (fun _ => taskOffCpu_consistent consistent) result
  | taskPriorityChanged =>
      apply consistent.dispatchKnown ?_ result
      intro after unchanged
      cases unchanged
      exact consistent
  | fifoSchedule => exact consistent.fifoSchedule result

end Consistent

end FifoScheduler

theorem schedulers_consistent {cpus : List CpuId} {scheduler : FifoScheduler}
    (reachable : (schedulers cpus).Reachable scheduler) : scheduler.Consistent none := by
  apply reachable.invariant (·.Consistent none)
  · intro first starts
    rw [starts]
    exact FifoScheduler.init_consistent cpus
  · intro before event after consistent moved
    exact consistent.dispatch moved

/-! ## The invariant -/

/-- Once in the queue of its own CPU, and in no other queue. -/
def FifoScheduler.QueuedOnce (scheduler : FifoScheduler) (ptr : TaskPtr) (task : FifoTask) : Prop :=
  ∃ cpu : CpuId, task.cpu = cpu.val ∧ (scheduler.cpuStates cpu).runQueue.rq.count ptr = 1 ∧
    ∀ other, other ≠ cpu → ptr ∉ (scheduler.cpuStates other).runQueue.rq

/-- The current task of its own CPU, and of no other. -/
def FifoScheduler.CurrentOnce (scheduler : FifoScheduler) (ptr : TaskPtr) (task : FifoTask) : Prop :=
  ∃ cpu : CpuId, task.cpu = cpu.val ∧
    ∀ other, (scheduler.cpuStates other).current = some ptr ↔ other = cpu

structure StateInvariant (scheduler : FifoScheduler) : Prop where
  queued : ∀ ptr task, scheduler.tasks ptr = some task →
    (task.runState = .kQueued ↔ scheduler.QueuedOnce ptr task)
  onCpu : ∀ ptr task, scheduler.tasks ptr = some task →
    (task.runState = .kOnCpu ↔ scheduler.CurrentOnce ptr task)
  noneRunnable : ∀ ptr task, scheduler.tasks ptr = some task → task.runState ≠ .kRunnable
  freed : ∀ ptr, scheduler.tasks ptr = none → ∀ cpu,
    ptr ∉ (scheduler.cpuStates cpu).runQueue.rq ∧ (scheduler.cpuStates cpu).current ≠ some ptr
  notLost : ∀ ptr task, scheduler.tasks ptr = some task → task.runState ≠ .kBlocked →
    scheduler.QueuedOnce ptr task ∨ scheduler.CurrentOnce ptr task

namespace FifoScheduler.Consistent

variable {scheduler : FifoScheduler} {ptr : TaskPtr} {task : FifoTask}
  (consistent : scheduler.Consistent none) (allocated : scheduler.tasks ptr = some task)

include consistent allocated

private theorem home_of_not_blocked
    (runState : task.runState = .kQueued ∨ task.runState = .kOnCpu) :
    ∃ cpu : CpuId, task.cpu = cpu.val := by
  cases consistent.located ptr task allocated with
  | inl unplaced =>
      obtain ⟨-, blocked | runnable⟩ := unplaced
      · simp [blocked] at runState
      · simp [runnable] at runState
  | inr placed => exact placed

private theorem queued_iff : task.runState = .kQueued ↔ scheduler.QueuedOnce ptr task := by
  constructor
  · intro queued
    obtain ⟨cpu, home⟩ := consistent.home_of_not_blocked allocated (.inl queued)
    refine ⟨cpu, home, ?_, ?_⟩
    · exact List.count_eq_one_of_mem (consistent.nodup cpu)
        (consistent.listed_iff.mpr ⟨task, allocated, queued, home⟩)
    · intro other different listed
      obtain ⟨found, stored, -, elsewhere⟩ := consistent.listed_iff.mp listed
      cases allocated.symm.trans stored
      exact different (Fin.ext (Int.ofNat.inj (elsewhere.symm.trans home)))
  · intro facts
    obtain ⟨cpu, -, once, -⟩ := facts
    have listed : ptr ∈ (scheduler.cpuStates cpu).runQueue.rq := by
      rw [← List.count_pos_iff, once]
      exact Nat.one_pos
    obtain ⟨found, stored, queued, -⟩ := consistent.listed_iff.mp listed
    cases allocated.symm.trans stored
    exact queued

private theorem onCpu_iff : task.runState = .kOnCpu ↔ scheduler.CurrentOnce ptr task := by
  constructor
  · intro onCpu
    obtain ⟨cpu, home⟩ := consistent.home_of_not_blocked allocated (.inr onCpu)
    refine ⟨cpu, home, ?_⟩
    intro other
    constructor
    · intro current
      obtain ⟨found, stored, -, elsewhere⟩ := consistent.current_iff.mp current
      cases allocated.symm.trans stored
      exact Fin.ext (Int.ofNat.inj (elsewhere.symm.trans home))
    · intro same
      rw [same]
      exact consistent.current_iff.mpr ⟨task, allocated, onCpu, home⟩
  · intro facts
    obtain ⟨cpu, -, unique⟩ := facts
    obtain ⟨found, stored, onCpu, -⟩ := consistent.current_iff.mp ((unique cpu).mpr rfl)
    cases allocated.symm.trans stored
    exact onCpu

theorem not_runnable : task.runState ≠ .kRunnable := by
  intro runnable
  cases consistent.moving_iff.mpr ⟨task, allocated, runnable⟩

end FifoScheduler.Consistent

/-- The invariant holds in every reachable state. -/
theorem fifo_invariant {cpus : List CpuId} {scheduler : FifoScheduler}
    (reachable : (schedulers cpus).Reachable scheduler) : StateInvariant scheduler := by
  have consistent := schedulers_consistent reachable
  constructor
  · intro ptr task allocated
    exact consistent.queued_iff allocated
  · intro ptr task allocated
    exact consistent.onCpu_iff allocated
  · intro ptr task allocated
    exact consistent.not_runnable allocated
  · intro ptr freed cpu
    constructor
    · intro listed
      obtain ⟨task, allocated, -⟩ := consistent.listed_iff.mp listed
      cases freed.symm.trans allocated
    · intro current
      obtain ⟨task, allocated, -⟩ := consistent.current_iff.mp current
      cases freed.symm.trans allocated
  · intro ptr task allocated notBlocked
    cases runState : task.runState with
    | kBlocked => exact absurd runState notBlocked
    | kRunnable => exact absurd runState (consistent.not_runnable allocated)
    | kQueued => exact .inl ((consistent.queued_iff allocated).mp runState)
    | kOnCpu => exact .inr ((consistent.onCpu_iff allocated).mp runState)

/-! ## A run -/

namespace FifoScheduler

/-- The scheduler after a sequence of events, or after none of them if one faults. -/
def after (cpus : List CpuId) (events : List Event) : FifoScheduler :=
  match events.foldlM (dispatch cpus) (init cpus) with
  | .ok scheduler => scheduler
  | .error _ => init cpus

theorem after_reachable (cpus : List CpuId) (events : List Event) :
    (schedulers cpus).Reachable (after cpus events) := by
  unfold after
  split
  · next scheduler replayed =>
      exact ⟨init cpus, events, rfl, .of_foldlM (fun _ _ _ moved => moved) replayed⟩
  · exact ⟨init cpus, [], rfl, .nil _⟩

end FifoScheduler

private theorem maxCpus_pos : 0 < O1.maxCpus := by decide

def firstCpu : CpuId := ⟨0, maxCpus_pos⟩

/-- Two tasks arrive; the first runs, blocks, and comes back as the target of a
switchto, while a commit of the second fails. -/
def switches : List Event :=
  [.taskNew 1 101 1 true true, .taskNew 2 102 1 true true, .fifoSchedule firstCpu 1 false true,
    .taskBlocked 1 2 ⟨false, firstCpu⟩, .fifoSchedule firstCpu 2 false false,
    .taskYield 1 3 ⟨true, firstCpu⟩, .fifoSchedule firstCpu 3 false true]

theorem fifo_invariant_switches :
    ((FifoScheduler.after [firstCpu] switches).cpuStates firstCpu).current = some 2 ∧
      ((FifoScheduler.after [firstCpu] switches).cpuStates firstCpu).runQueue.rq = [1] ∧
      StateInvariant (FifoScheduler.after [firstCpu] switches) :=
  ⟨by decide +kernel, by decide +kernel,
    fifo_invariant (FifoScheduler.after_reachable [firstCpu] switches)⟩

end Ghost.Fifo
