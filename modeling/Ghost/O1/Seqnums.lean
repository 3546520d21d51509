import Ghost.O1.HandOff

/-!
# Sequence numbers of tasks

Only `Advance` and the arrival of a task write sequence numbers: every handler
leaves those of all tasks as they are, and frees at most its own task.
-/

set_option autoImplicit false

namespace Ghost.O1

open Lib

def Heap.seqnums (heap : Heap) (ptr : TaskPtr) : Option Nat :=
  (heap.tasks ptr).map (·.seqnum)

namespace Heap

variable {heap heap' : Heap} {ptr : TaskPtr} {task : O1Task}

private theorem seqnums_store {value : Option O1Task}
    (stored : heap'.tasks = Function.update heap.tasks ptr value) :
    heap'.seqnums = Function.update heap.seqnums ptr (value.map (·.seqnum)) := by
  funext other
  unfold seqnums
  rw [stored]
  by_cases same : other = ptr
  · rw [same, Function.update_self, Function.update_self]
  · rw [Function.update_of_ne same, Function.update_of_ne same]

/-- A write that keeps the sequence number. -/
theorem seqnums_keep (allocated : heap.tasks ptr = some task) {task' : O1Task}
    (stored : heap'.tasks = Function.update heap.tasks ptr (some task'))
    (same : task'.seqnum = task.seqnum) : heap'.seqnums = heap.seqnums := by
  have here : heap.seqnums ptr = some task'.seqnum := by
    unfold seqnums
    rw [allocated, same]
    rfl
  rw [seqnums_store stored, Option.map_some, ← here, Function.update_eq_self]

end Heap

namespace O1Scheduler

variable {scheduler next : O1Scheduler} {cpu : CpuId} {ptr : TaskPtr} {task : O1Task}

/-! ## Run queues -/

theorem enqueueOn_seqnums (result : scheduler.enqueueOn cpu ptr = .ok next) :
    next.heap.seqnums = scheduler.heap.seqnums := by
  simp only [enqueueOn, bind_eq_ok, Except.ok.injEq] at result
  obtain ⟨⟨heap, rq⟩, pushing, rfl⟩ := result
  obtain ⟨task, idx, able, ⟨-, rfl, -⟩ | ⟨-, rfl, -⟩⟩ := O1Rq.enqueue_eq_ok.mp pushing
  · exact Heap.seqnums_keep able.allocated (Heap.put_tasks _) rfl
  · exact Heap.seqnums_keep able.allocated (Heap.putGranted_tasks _) rfl

private theorem dequeueOn_seqnums {popped : Option TaskPtr}
    (result : scheduler.dequeueOn cpu = .ok (popped, next)) :
    next.heap.seqnums = scheduler.heap.seqnums := by
  simp only [dequeueOn, bind_eq_ok, Except.ok.injEq, Prod.mk.injEq] at result
  obtain ⟨⟨heap, rq, popped'⟩, popping, -, rfl⟩ := result
  unfold O1Rq.dequeue at popping
  split at popping
  · cases popping
    rfl
  · simp only [bind_eq_ok] at popping
    obtain ⟨⟨front, active⟩, -, popping⟩ := popping
    cases front with
    | none => cases popping
    | some front =>
        simp only [bind_eq_ok, Heap.read_eq_ok, Except.ok.injEq, Prod.mk.injEq] at popping
        obtain ⟨task, allocated, -, -, rfl, -, -⟩ := popping
        exact Heap.seqnums_keep allocated (Heap.put_tasks _) rfl

private theorem eraseOn_seqnums (result : scheduler.eraseOn cpu ptr = .ok next) :
    next.heap.seqnums = scheduler.heap.seqnums := by
  simp only [eraseOn, bind_eq_ok, Except.ok.injEq] at result
  obtain ⟨⟨heap, rq⟩, erasing, rfl⟩ := result
  obtain ⟨task, idx, allocated, -, -, rfl, -⟩ := O1Rq.erase_eq_ok.mp erasing
  exact Heap.seqnums_keep allocated (Heap.put_tasks _) rfl

/-! ## Helpers of the handlers -/

theorem assignCpu_seqnums {cpus : List CpuId} (result : scheduler.assignCpu cpus = .ok (cpu, next)) :
    next.heap.seqnums = scheduler.heap.seqnums := by
  have placed : next.placed none = scheduler.placed none := assignCpu_placed result
  exact congrArg (fun placement => placement.heap.seqnums) placed

private theorem migrate_seqnums {seqnum : Nat} {associated : Bool}
    (result : scheduler.migrate ptr cpu seqnum associated = .ok next) :
    next.heap.seqnums = scheduler.heap.seqnums := by
  simp only [migrate, bind_eq_ok, Heap.read_eq_ok, check_eq_ok, Except.ok.injEq] at result
  obtain ⟨task, allocated, -, -, -, -, -, -, queued, queueing, rfl⟩ := result
  have placing : (scheduler.heap.put ptr { task with cpu := cpu.val }).seqnums =
      scheduler.heap.seqnums := Heap.seqnums_keep allocated (Heap.put_tasks _) rfl
  exact (enqueueOn_seqnums queueing).trans placing

private theorem pingSwitchto_seqnums (payload : Switchto) :
    (scheduler.pingSwitchto payload).heap.seqnums = scheduler.heap.seqnums := by
  unfold pingSwitchto
  split <;> rfl

private theorem taskOffCpu_seqnums {blocked fromSwitchto : Bool} {now : Int}
    (result : scheduler.taskOffCpu ptr blocked fromSwitchto now = .ok next) :
    next.heap.seqnums = scheduler.heap.seqnums := by
  simp only [taskOffCpu, bind_eq_ok, Heap.read_eq_ok] at result
  obtain ⟨task, allocated, cpu, -, result⟩ := result
  split at result
  · cases result
    exact Heap.seqnums_keep allocated rfl rfl
  · simp only [bind_eq_ok, Except.ok.injEq] at result
    obtain ⟨-, -, -, -, rfl⟩ := result
    exact Heap.seqnums_keep allocated (Heap.put_tasks _) rfl

private theorem taskOnCpu_seqnums {now : Int}
    (result : scheduler.taskOnCpu ptr cpu now = .ok next) :
    next.heap.seqnums = scheduler.heap.seqnums := by
  simp only [taskOnCpu, bind_eq_ok, Heap.read_eq_ok, Except.ok.injEq] at result
  obtain ⟨task, allocated, rfl⟩ := result
  exact Heap.seqnums_keep allocated rfl rfl

private theorem requeue_seqnums {task' : O1Task} (allocated : scheduler.heap.tasks ptr = some task)
    (result : (scheduler.put ptr task').enqueueOn cpu ptr = .ok next)
    (same : task'.seqnum = task.seqnum) : next.heap.seqnums = scheduler.heap.seqnums :=
  (enqueueOn_seqnums result).trans (Heap.seqnums_keep allocated (Heap.put_tasks _) same)

/-! ## Task messages -/

theorem arrive_seqnums (scheduler : O1Scheduler) (ptr : TaskPtr) (task task' : O1Task) :
    ((scheduler.put ptr task).heap.putGranted ptr task').seqnums =
      Function.update scheduler.heap.seqnums ptr (some task'.seqnum) := by
  have arrived : (scheduler.put ptr task).heap.seqnums =
      Function.update scheduler.heap.seqnums ptr _ := Heap.seqnums_store (Heap.put_tasks _)
  rw [Heap.seqnums_store (Heap.putGranted_tasks task'), arrived, Function.update_idem]
  rfl

theorem taskNew_seqnums {cpus : List CpuId} {gtid seqnum : Nat} {nice : Int}
    {runnable associated : Bool}
    (result : (scheduler.put ptr { gtid := gtid }).taskNew cpus ptr seqnum nice runnable associated =
      .ok next) :
    next.heap.seqnums = Function.update scheduler.heap.seqnums ptr (some seqnum) := by
  simp only [taskNew, bind_eq_ok, Heap.read_eq_ok] at result
  obtain ⟨task, allocated, result⟩ := result
  split at result
  · simp only [bind_eq_ok] at result
    obtain ⟨⟨cpu, assigned⟩, assignment, migration⟩ := result
    rw [migrate_seqnums migration, assignCpu_seqnums assignment]
    exact arrive_seqnums scheduler ptr _ _
  · cases result
    exact arrive_seqnums scheduler ptr _ _

theorem taskRunnable_seqnums {cpus : List CpuId} {seqnum : Nat} {deferrable associated : Bool}
    (result : scheduler.taskRunnable cpus ptr seqnum deferrable associated = .ok next) :
    next.heap.seqnums = scheduler.heap.seqnums := by
  simp only [taskRunnable, bind_eq_ok, Heap.read_eq_ok] at result
  obtain ⟨task, allocated, -, -, result⟩ := result
  have waking : (scheduler.heap.put ptr { task with
      runState := .kRunnable, prioBoost := !deferrable }).seqnums = scheduler.heap.seqnums :=
    Heap.seqnums_keep allocated (Heap.put_tasks _) rfl
  split at result
  · simp only [bind_eq_ok] at result
    obtain ⟨⟨cpu, assigned⟩, assignment, migration⟩ := result
    rw [migrate_seqnums migration, assignCpu_seqnums assignment]
    exact waking
  · simp only [bind_eq_ok] at result
    obtain ⟨cpu, -, queueing⟩ := result
    exact (enqueueOn_seqnums queueing).trans waking

private theorem free_seqnums (scheduler : O1Scheduler) (ptr : TaskPtr) :
    (scheduler.heap.free ptr).seqnums = Function.update scheduler.heap.seqnums ptr none :=
  @Heap.seqnums_store scheduler.heap _ ptr none rfl

theorem taskDeparted_seqnums {payload : Switchto} {now : Int}
    (result : scheduler.taskDeparted ptr payload now = .ok next) :
    next.heap.seqnums = Function.update scheduler.heap.seqnums ptr none := by
  simp only [taskDeparted, bind_eq_ok, Heap.read_eq_ok, Except.ok.injEq] at result
  obtain ⟨task, allocated, taken, leaving, rfl⟩ := result
  have same : taken.heap.seqnums = scheduler.heap.seqnums := by
    split at leaving
    · exact taskOffCpu_seqnums leaving
    · split at leaving
      · simp only [bind_eq_ok] at leaving
        obtain ⟨cpu, -, erasing⟩ := leaving
        exact eraseOn_seqnums erasing
      · simp only [bind_eq_ok, Except.ok.injEq] at leaving
        obtain ⟨-, -, rfl⟩ := leaving
        rfl
  rw [setHeap_heap, free_seqnums, pingSwitchto_seqnums, same]

theorem taskDead_seqnums (result : scheduler.taskDead ptr = .ok next) :
    next.heap.seqnums = Function.update scheduler.heap.seqnums ptr none := by
  simp only [taskDead, bind_eq_ok, Except.ok.injEq] at result
  obtain ⟨task, -, -, -, rfl⟩ := result
  exact free_seqnums scheduler ptr

theorem taskYield_seqnums {payload : Switchto} {now : Int}
    (result : scheduler.taskYield ptr payload now = .ok next) :
    next.heap.seqnums = scheduler.heap.seqnums := by
  simp only [taskYield, bind_eq_ok, Except.ok.injEq] at result
  obtain ⟨taken, leaving, task, -, cpu, -, queued, queueing, rfl⟩ := result
  rw [pingSwitchto_seqnums, enqueueOn_seqnums queueing, taskOffCpu_seqnums leaving]

theorem taskBlocked_seqnums {payload : Switchto} {now : Int}
    (result : scheduler.taskBlocked ptr payload now = .ok next) :
    next.heap.seqnums = scheduler.heap.seqnums := by
  simp only [taskBlocked, bind_eq_ok, Except.ok.injEq] at result
  obtain ⟨taken, leaving, rfl⟩ := result
  rw [pingSwitchto_seqnums, taskOffCpu_seqnums leaving]

theorem taskPreempted_seqnums {payload : Switchto} {now : Int}
    (result : scheduler.taskPreempted ptr payload now = .ok next) :
    next.heap.seqnums = scheduler.heap.seqnums := by
  simp only [taskPreempted, bind_eq_ok, Heap.read_eq_ok, Except.ok.injEq] at result
  obtain ⟨taken, leaving, task, allocated, cpu, -, queued, queueing, rfl⟩ := result
  rw [pingSwitchto_seqnums, requeue_seqnums allocated queueing rfl, taskOffCpu_seqnums leaving]

theorem taskSwitchto_seqnums {now : Int} (result : scheduler.taskSwitchto ptr now = .ok next) :
    next.heap.seqnums = scheduler.heap.seqnums :=
  taskOffCpu_seqnums result

theorem taskPriorityChanged_seqnums {nice : Int}
    (result : scheduler.taskPriorityChanged ptr nice = .ok next) :
    next.heap.seqnums = scheduler.heap.seqnums := by
  simp only [taskPriorityChanged, bind_eq_ok, Heap.read_eq_ok] at result
  obtain ⟨task, allocated, result⟩ := result
  split at result
  · simp only [bind_eq_ok, Heap.read_eq_ok] at result
    obtain ⟨cpu, -, erased, erasing, task', allocated', queueing⟩ := result
    rw [requeue_seqnums allocated' queueing rfl, eraseOn_seqnums erasing]
  · cases result
    exact Heap.seqnums_keep allocated (Heap.put_tasks _) rfl

theorem advance_seqnums {seqnum : Nat} (result : scheduler.advance ptr seqnum = .ok next) :
    next.heap.seqnums = Function.update scheduler.heap.seqnums ptr (some seqnum) := by
  simp only [advance, bind_eq_ok, Except.ok.injEq] at result
  obtain ⟨task, -, -, -, rfl⟩ := result
  exact Heap.seqnums_store (Heap.put_tasks _)

/-- `Advance` succeeds exactly on a task that is behind. -/
theorem advance_ok_iff {seqnum : Nat} : (∃ next, scheduler.advance ptr seqnum = .ok next) ↔
    ∃ behind, scheduler.heap.seqnums ptr = some behind ∧ behind < seqnum := by
  simp only [advance, bind_eq_ok, Heap.read_eq_ok, check_eq_ok, Heap.seqnums, Option.map_eq_some_iff]
  constructor
  · intro found
    obtain ⟨next, task, allocated, -, behind, -⟩ := found
    exact ⟨task.seqnum, ⟨task, allocated, rfl⟩, behind⟩
  · intro found
    obtain ⟨-, ⟨task, allocated, rfl⟩, behind⟩ := found
    exact ⟨_, task, allocated, (), behind, rfl⟩

/-! ## Ticks and scheduling -/

theorem cpuTick_seqnums {now later : Int} (result : scheduler.cpuTick cpu now later = .ok next) :
    next.heap.seqnums = scheduler.heap.seqnums := by
  unfold cpuTick at result
  dsimp only at result
  split at result
  · cases result
    rfl
  · simp only [bind_eq_ok, Heap.read_eq_ok] at result
    obtain ⟨task, allocated, result⟩ := result
    split at result
    · cases result
      exact Heap.seqnums_keep allocated (Heap.put_tasks _) rfl
    · cases result
      exact Heap.seqnums_keep allocated (Heap.put_tasks _) rfl

private theorem takePreemption_seqnums (result : scheduler.takePreemption cpu = .ok next) :
    next.heap.seqnums = scheduler.heap.seqnums := by
  unfold takePreemption at result
  dsimp only at result
  split at result
  · split at result
    · cases result
      rfl
    · split at result
      · simp only [bind_eq_ok, Heap.read_eq_ok, Except.ok.injEq] at result
        obtain ⟨task, allocated, rfl⟩ := result
        exact Heap.seqnums_keep allocated (Heap.putGranted_tasks _) rfl
      · cases result
        rfl
  · cases result
    rfl

private theorem pickNext_seqnums {prioBoost : Bool} {chosen : Option TaskPtr}
    (result : scheduler.pickNext cpu prioBoost = .ok (chosen, next)) :
    next.heap.seqnums = scheduler.heap.seqnums := by
  unfold pickNext at result
  split at result
  · cases result
    rfl
  · split at result
    · cases result
      rfl
    · exact dequeueOn_seqnums result

private theorem commitNext_seqnums {agentBarrier : Nat} {now : Int} {committed : Bool}
    (result : scheduler.commitNext cpu ptr agentBarrier now committed = .ok next) :
    next.heap.seqnums = scheduler.heap.seqnums := by
  simp only [commitNext, bind_eq_ok, Heap.read_eq_ok] at result
  obtain ⟨task, -, result⟩ := result
  split at result
  · have switched := taskOnCpu_seqnums result
    exact switched
  · simp only [bind_eq_ok, Heap.read_eq_ok] at result
    obtain ⟨taken, leaving, task', allocated', queueing⟩ := result
    rw [requeue_seqnums allocated' queueing rfl]
    split at leaving
    · have left := taskOffCpu_seqnums leaving
      exact left
    · cases leaving
      rfl

theorem o1Schedule_seqnums {agentBarrier : Nat} {prioBoost committed : Bool} {started now : Int}
    (result : scheduler.o1Schedule cpu agentBarrier prioBoost started now committed = .ok next) :
    next.heap.seqnums = scheduler.heap.seqnums := by
  simp only [o1Schedule, bind_eq_ok] at result
  obtain ⟨taken, taking, ⟨chosen, picked⟩, picking, result⟩ := result
  have before : picked.heap.seqnums = scheduler.heap.seqnums := by
    have requeued := takePreemption_seqnums taking
    exact (pickNext_seqnums picking).trans requeued
  cases chosen with
  | none =>
      cases result
      exact before
  | some chosen => exact (commitNext_seqnums result).trans before

end O1Scheduler

end Ghost.O1
