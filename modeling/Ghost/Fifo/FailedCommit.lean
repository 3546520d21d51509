import Ghost.Fifo.Invariant
import Ghost.O1.FailedCommit

/-!
# Failed commits of the FIFO scheduler

`FifoSchedule` undoes a dequeue as `O1Schedule` does: the boosted task goes back to
the front of the one deque.
-/

set_option autoImplicit false

namespace Ghost.Fifo

open Lib
open O1 (Fault TaskPtr CpuId Effect bind_eq_ok check_eq_ok)

/-- The queue is as it was, and so is everything else but for the boost of the task. -/
structure Undone (scheduler next : FifoScheduler) (cpu : CpuId) (ptr : TaskPtr)
    (task : FifoTask) : Prop where
  queue : (next.cpuStates cpu).runQueue = (scheduler.cpuStates cpu).runQueue
  others : ∀ other, other ≠ cpu → next.cpuStates other = scheduler.cpuStates other
  current : (next.cpuStates cpu).current = none
  tasks : next.tasks = Function.update scheduler.tasks ptr (some { task with prioBoost := true })
  queued : task.runState = .kQueued
  front : ∃ rest, (next.cpuStates cpu).runQueue.rq = ptr :: rest
  again : ∃ tasks rq, (next.cpuStates cpu).runQueue.dequeue next.tasks = .ok (tasks, rq, some ptr)

namespace FifoScheduler

variable {scheduler : FifoScheduler} {cpu : CpuId} {ptr : TaskPtr} {task : FifoTask}
  {rest : List TaskPtr}

private theorem commitNext_fails {agentBarrier : Nat}
    (idle : (scheduler.cpuStates cpu).current = none)
    (allocated : scheduler.tasks ptr = some task) (home : task.cpu = cpu.val)
    (runnable : task.runState = .kRunnable) :
    ∃ next, scheduler.commitNext cpu ptr agentBarrier false = .ok next ∧
      next.cpuStates = Function.update scheduler.cpuStates cpu
        ⟨none, ⟨ptr :: (scheduler.cpuStates cpu).runQueue.rq⟩⟩ ∧
      next.tasks = Function.update scheduler.tasks ptr
        (some { task with prioBoost := true, runState := .kQueued }) := by
  obtain ⟨opened, isOpened⟩ : ∃ opened, (scheduler.emit
      (.openTxn cpu task.gtid task.seqnum agentBarrier)).emit (.commit cpu false) = opened :=
    ⟨_, rfl⟩
  have sameCpus : opened.cpuStates = scheduler.cpuStates := by rw [← isOpened]; rfl
  have sameTasks : opened.tasks = scheduler.tasks := by rw [← isOpened]; rfl
  obtain ⟨next, enqueued, states, stored⟩ : ∃ next, (opened.put ptr
        { task with prioBoost := true }).enqueueOn cpu ptr = .ok next ∧
      next.cpuStates = Function.update opened.cpuStates cpu ⟨(opened.cpuStates cpu).current,
        ⟨ptr :: (opened.cpuStates cpu).runQueue.rq⟩⟩ ∧
      next.tasks = (opened.tasks.put ptr { task with prioBoost := true }).put ptr
        { task with prioBoost := true, runState := .kQueued } :=
    ⟨_, enqueueOn_eq_ok.mpr ⟨_, Tasks.put_self _, by simp [home], runnable, rfl⟩, rfl, rfl⟩
  refine ⟨next, ?_, ?_, ?_⟩
  · simp only [commitNext, Bool.false_eq_true, if_false, bind_eq_ok, Tasks.read_eq_ok]
    refine ⟨task, allocated, opened, ?_, task, sameTasks ▸ allocated, enqueued⟩
    rw [isOpened, if_neg (by simp [sameCpus, idle])]
  · rw [states, sameCpus, idle]
  · rw [stored, sameTasks]
    exact Function.update_idem ..

private theorem fifoSchedule_undone (consistent : scheduler.Consistent none)
    (idle : (scheduler.cpuStates cpu).current = none) {tasks : Tasks} {rq : FifoRq}
    (dequeues : (scheduler.cpuStates cpu).runQueue.dequeue scheduler.tasks =
      .ok (tasks, rq, some ptr)) (agentBarrier : Nat) :
    ∃ task next, scheduler.tasks ptr = some task ∧
      scheduler.fifoSchedule cpu agentBarrier false false = .ok next ∧
      Undone scheduler next cpu ptr task := by
  rcases dequeueOn_eq_ok consistent with ⟨vacant, -⟩ |
    ⟨front, task, rest, contents, allocated, queued, home, pops⟩
  · cases (FifoRq.dequeue_nil vacant).symm.trans dequeues
  · cases (FifoRq.dequeue_ok contents allocated queued).symm.trans dequeues
    generalize isPicked : (scheduler.setCpu cpu ⟨(scheduler.cpuStates cpu).current, ⟨rest⟩⟩).put ptr
      { task with runState := .kRunnable } = picked at pops
    have states : picked.cpuStates = Function.update scheduler.cpuStates cpu ⟨none, ⟨rest⟩⟩ := by
      rw [← isPicked, idle]
      rfl
    have stored : picked.tasks =
        Function.update scheduler.tasks ptr (some { task with runState := .kRunnable }) := by
      rw [← isPicked]
      rfl
    have pickedIdle : (picked.cpuStates cpu).current = none := by
      rw [states, Function.update_self]
    have pickedTask : picked.tasks ptr = some { task with runState := .kRunnable } := by
      rw [stored, Function.update_self]
    obtain ⟨next, fails, states', tasks⟩ :=
      @commitNext_fails _ _ _ _ agentBarrier pickedIdle pickedTask home rfl
    have queue : (next.cpuStates cpu).runQueue = (scheduler.cpuStates cpu).runQueue := by
      rw [states', Function.update_self, states, Function.update_self, ← contents]
    have boosted : next.tasks =
        Function.update scheduler.tasks ptr (some { task with prioBoost := true }) := by
      rw [tasks, stored, Function.update_idem, ← queued]
    refine ⟨task, next, allocated, ?_, ⟨queue, ?_, ?_, boosted, queued, ?_, ?_⟩⟩
    · simp only [fifoSchedule, bind_eq_ok]
      refine ⟨(some ptr, picked), ?_, fails⟩
      simp only [pickNext, Bool.false_eq_true, if_false, idle]
      exact pops
    · intro other different
      rw [states', Function.update_of_ne different, states, Function.update_of_ne different]
    · rw [states', Function.update_self]
    · exact ⟨rest, by rw [queue, contents]⟩
    · have storedNext : next.tasks ptr = some { task with prioBoost := true } := by
        rw [boosted, Function.update_self]
      rw [queue]
      exact ⟨_, _, FifoRq.dequeue_ok contents storedNext queued⟩

end FifoScheduler

/-- In both schedulers a commit that fails for a dequeued task leaves the run queue as
it was, with the task boosted at the front. -/
theorem failed_commit_undone :
    (∀ (cpus : List CpuId) (scheduler : O1.O1Scheduler) (cpu : CpuId) (ptr : TaskPtr)
      (heap : O1.Heap) (rq : O1.O1Rq) (agentBarrier : Nat) (started now : Int),
      (O1.schedulers cpus).Reachable scheduler → (scheduler.cpuStates cpu).current = none →
      (scheduler.cpuStates cpu).runQueue.dequeue scheduler.heap = .ok (heap, rq, some ptr) →
      ∃ task next, scheduler.heap.tasks ptr = some task ∧
        scheduler.o1Schedule cpu agentBarrier false started now false = .ok next ∧
        O1.Undone scheduler next cpu ptr task) ∧
    ∀ (cpus : List CpuId) (scheduler : FifoScheduler) (cpu : CpuId) (ptr : TaskPtr)
      (tasks : Tasks) (rq : FifoRq) (agentBarrier : Nat),
      (schedulers cpus).Reachable scheduler → (scheduler.cpuStates cpu).current = none →
      (scheduler.cpuStates cpu).runQueue.dequeue scheduler.tasks = .ok (tasks, rq, some ptr) →
      ∃ task next, scheduler.tasks ptr = some task ∧
        scheduler.fifoSchedule cpu agentBarrier false false = .ok next ∧
        Undone scheduler next cpu ptr task := by
  constructor
  · intro cpus scheduler cpu ptr heap rq agentBarrier started now reachable idle dequeues
    exact O1.O1Scheduler.o1Schedule_undone (O1.schedulers_consistent reachable) idle dequeues
      agentBarrier started now
  · intro cpus scheduler cpu ptr tasks rq agentBarrier reachable idle dequeues
    exact FifoScheduler.fifoSchedule_undone (schedulers_consistent reachable) idle dequeues
      agentBarrier

/-- Two tasks wait, under either scheduler. -/
def waiting : FifoScheduler :=
  .after [firstCpu] [.taskNew 1 101 1 true true, .taskNew 2 102 1 true true]

def waitingO1 : O1.O1Scheduler :=
  .after [firstCpu] [.taskNew 1 101 1 0 true true, .taskNew 2 102 1 (-5) true true]

private theorem exists_of_toOption {Result : Type} {result : Except Fault Result}
    {value : Option TaskPtr} {popped : Result → Option TaskPtr}
    (evaluates : result.toOption.map popped = some value) :
    ∃ after, result = .ok after ∧ popped after = value := by
  cases result with
  | error fault => cases evaluates
  | ok after => exact ⟨after, rfl, Option.some.inj evaluates⟩

theorem failed_commit_undone_waiting :
    (∃ task next, waitingO1.heap.tasks 2 = some task ∧
      waitingO1.o1Schedule firstCpu 1 false 0 0 false = .ok next ∧
      O1.Undone waitingO1 next firstCpu 2 task) ∧
    ∃ task next, waiting.tasks 1 = some task ∧
      waiting.fifoSchedule firstCpu 1 false false = .ok next ∧
      Undone waiting next firstCpu 1 task := by
  constructor
  · have reachable : (O1.schedulers [firstCpu]).Reachable waitingO1 :=
      O1.O1Scheduler.after_reachable _ _
    have popped : ((waitingO1.cpuStates firstCpu).runQueue.dequeue
        waitingO1.heap).toOption.map (·.2.2) = some (some 2) := by decide +kernel
    obtain ⟨⟨heap, rq, _⟩, dequeues, rfl⟩ := exists_of_toOption popped
    exact failed_commit_undone.1 _ _ firstCpu 2 heap rq 1 0 0 reachable (by decide +kernel) dequeues
  · have reachable : (schedulers [firstCpu]).Reachable waiting :=
      FifoScheduler.after_reachable _ _
    have popped : ((waiting.cpuStates firstCpu).runQueue.dequeue
        waiting.tasks).toOption.map (·.2.2) = some (some 1) := by decide +kernel
    obtain ⟨⟨tasks, rq, _⟩, dequeues, rfl⟩ := exists_of_toOption popped
    exact failed_commit_undone.2 _ _ firstCpu 1 tasks rq 1 reachable (by decide +kernel) dequeues

end Ghost.Fifo
