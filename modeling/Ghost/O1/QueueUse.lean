import Ghost.O1.Epochs
import Ghost.O1.Invariant

/-!
# How the scheduler uses its run queues

Whatever the scheduler does, each of its run queues lives a life of its own: it
sees permitted queue operations and, between them, writes that leave queued tasks
alone. So what holds of every run queue holds of those of the scheduler.
-/

set_option autoImplicit false

namespace Ghost.O1

open Lib

/-- One run queue with the heap it shares. -/
def Placement.lane (place : Placement) (cpu : CpuId) : RqState :=
  { heap := place.heap, rq := place.queue cpu }

section Lanes

variable {place after : Placement} {cpu : CpuId} {ptr : TaskPtr}

/-- A step that leaves the queue and its tasks alone. -/
theorem lane_write (sameQueue : after.queue cpu = place.queue cpu)
    (kept : ∀ idx ptr, ptr ∈ (place.queue cpu).contents idx → ∀ task,
      place.heap.tasks ptr = some task → ∃ task', after.heap.tasks ptr = some task' ∧
        task'.runState = task.runState ∧ task'.staticPriority = task.staticPriority ∧
        task'.remainingTime = task.remainingTime) :
    ∃ label, quietQueues.step (place.lane cpu) label (after.lane cpu) := by
  refine ⟨(.write after.heap, none), fun idx ptr member task allocated => ?_,
    fun idx ptr member task allocated => ?_, ?_⟩
  · obtain ⟨task', allocated', -, -, remaining⟩ := kept idx ptr member task allocated
    exact ⟨task', allocated', remaining⟩
  · obtain ⟨task', allocated', state, priority, -⟩ := kept idx ptr member task allocated
    exact ⟨task', allocated', state, priority⟩
  · simp [RqOp.perform, Placement.lane, sameQueue]

/-- Any change to a task that is not in the queue is such a step. -/
theorem lane_store {value : Option O1Task} (sameQueue : after.queue cpu = place.queue cpu)
    (stored : after.heap.tasks = Function.update place.heap.tasks ptr value)
    (outside : ∀ idx, ptr ∉ (place.queue cpu).contents idx) :
    ∃ label, quietQueues.step (place.lane cpu) label (after.lane cpu) := by
  refine lane_write sameQueue fun idx other member task allocated => ⟨task, ?_, rfl, rfl, rfl⟩
  rw [stored, Function.update_of_ne, allocated]
  rintro rfl
  exact outside idx member

/-- A task that leaves one queue is in no other. -/
private theorem left_elsewhere (consistent : place.Consistent) {cpu' : CpuId} {rq : O1Rq}
    {idx : Fin kNumPrio} (gains : rq.contents.Gains idx ptr (place.queue cpu').contents)
    (different : cpu ≠ cpu') (idx' : Fin kNumPrio) : ptr ∉ (place.queue cpu).contents idx' :=
  fun member => different (consistent.queued_once (gains.mem_iff.mpr (.inr ⟨rfl, rfl⟩)) member).1

private theorem Transfer.lane (transfer : Transfer place after) (consistent : place.Consistent)
    (cpu : CpuId) : ∃ label, quietQueues.step (place.lane cpu) label (after.lane cpu) := by
  cases transfer with
  | @arrive ptr task fresh moving state =>
      refine lane_store rfl (Heap.putGranted_tasks task) fun idx member => ?_
      obtain ⟨_, allocated, -⟩ := (consistent.sound cpu).queued idx ptr member
      simp [fresh] at allocated
  | @adjust ptr task task' allocated stays =>
      refine lane_write rfl fun idx other member found stored => ?_
      by_cases same : other = ptr
      · subst same
        obtain rfl : task = found := Option.some.inj (allocated.symm.trans stored)
        obtain ⟨_, stored', queued, -⟩ := (consistent.sound cpu).queued idx other member
        obtain rfl := Option.some.inj (allocated.symm.trans stored')
        exact ⟨task', by simp, stays.runState, stays.priority queued, stays.remaining⟩
      · exact ⟨found, by simp [same, stored], rfl, rfl, rfl⟩
  | wake allocated blocked moving runnable remaining =>
      exact lane_store rfl rfl (consistent.outside allocated (by simp [blocked]) cpu)
  | @enqueue cpu' ptr task heap rq moving allocated home result =>
      obtain ⟨_, idx, able, -, -, stored⟩ := (consistent.sound cpu').enqueue result
      have outside := consistent.outside able.allocated (by simp [able.runnable])
      by_cases here : cpu = cpu'
      · subst here
        refine ⟨(.enqueue ptr, none), trivial, ⟨⟨_, idx, able⟩, outside cpu⟩, ?_⟩
        simp only [RqOp.perform, Placement.lane, result, Function.update_self]
        rfl
      · exact lane_store (Function.update_of_ne here ..) stored (outside cpu)
  | @dequeue cpu' ptr heap rq moving result =>
      by_cases here : cpu = cpu'
      · subst here
        refine ⟨(.dequeue, some ptr), trivial, trivial, ?_⟩
        simp only [RqOp.perform, Placement.lane, result, Function.update_self]
        rfl
      · rcases (consistent.sound cpu').dequeue result with ⟨nothing, -⟩ |
          ⟨_, _, _, same, -, -, rfl, -, -, gains⟩
        · cases nothing
        · cases same
          exact lane_store (Function.update_of_ne here ..) rfl
            (left_elsewhere consistent gains here)
  | @erase cpu' ptr heap rq moving result =>
      obtain ⟨_, idx, -, -, -, rfl, -, -, gains⟩ := (consistent.sound cpu').erase result
      by_cases here : cpu = cpu'
      · subst here
        refine ⟨(.erase ptr, none), trivial, ⟨idx, gains.mem_iff.mpr (.inr ⟨rfl, rfl⟩)⟩, ?_⟩
        simp only [RqOp.perform, Placement.lane, result, Function.update_self]
        rfl
      · exact lane_store (Function.update_of_ne here ..) rfl (left_elsewhere consistent gains here)
  | offCpu now blocked allocated onCpu home moving =>
      exact lane_store rfl rfl (consistent.outside allocated (by simp [onCpu]) cpu)
  | onCpu now moving allocated idle =>
      have runnable := consistent.moving_runnable moving allocated
      exact lane_store rfl rfl (consistent.outside allocated (by simp [runnable]) cpu)
  | @free ptr task allocated reason =>
      have notQueued : task.runState ≠ .kQueued := by
        rcases reason with ⟨blocked, -⟩ | moving
        · simp [blocked]
        · simp [consistent.moving_runnable moving allocated]
      exact lane_store rfl rfl (consistent.outside allocated notQueued cpu)

/-- Every run queue of the placement is one that can arise. -/
def Placement.Quiet (place : Placement) : Prop := ∀ cpu, quietQueues.Reachable (place.lane cpu)

theorem Placement.Quiet.step (quiet : place.Quiet)
    (lanes : ∀ cpu, ∃ label, quietQueues.step (place.lane cpu) label (after.lane cpu)) :
    after.Quiet := by
  intro cpu
  obtain ⟨label, moved⟩ := lanes cpu
  exact (quiet cpu).step moved

private theorem Transfers.quiet (transfers : Transfers place after) (consistent : place.Consistent)
    (quiet : place.Quiet) : after.Quiet := by
  induction transfers with
  | refl => exact quiet
  | tail before last ih => exact ih.step (last.lane (Transfers.consistent before consistent))

/-- Writing the task on a CPU concerns no queue. -/
private theorem quiet_current {heap : Heap} {task : O1Task} {value : Option O1Task}
    (quiet : place.Quiet) (consistent : place.Consistent)
    (current : place.current cpu = some ptr) (allocated : place.heap.tasks ptr = some task)
    (stored : heap.tasks = Function.update place.heap.tasks ptr value) :
    ({ place with heap := heap } : Placement).Quiet := by
  have onCpu := (consistent.current_onCpu current allocated).1
  exact quiet.step fun cpu => lane_store rfl stored
    (consistent.outside allocated (by simp [onCpu]) cpu)

private theorem Tick.quiet {now later : Int} (tick : Tick cpu now later place after)
    (consistent : place.Consistent) (quiet : place.Quiet) : after.Quiet := by
  cases tick with
  | idle => exact quiet
  | charge current allocated => exact quiet_current quiet consistent current allocated rfl

private theorem Preemption.quiet {preemptCurr : Bool}
    (taking : Preemption cpu preemptCurr place after)
    (consistent : place.Consistent) (quiet : place.Quiet) : after.Quiet := by
  cases taking with
  | keep => exact quiet
  | drop => exact quiet
  | renew _ current _ allocated => exact quiet_current quiet consistent current allocated rfl

private theorem Finish.quiet {prioBoost committed : Bool} {now : Int}
    (finish : Finish cpu prioBoost committed now place after) (consistent : place.Consistent)
    (settled : place.moving = none) (quiet : place.Quiet) : after.Quiet := by
  rcases finish.transfers_or_recommit consistent settled with
    transfers | ⟨-, -, ptr, task, current, allocated, rfl⟩
  · exact transfers.quiet consistent quiet
  · exact quiet_current quiet consistent current allocated rfl

end Lanes

/-- The run queues of a scheduler only see permitted operations and quiet writes. -/
theorem schedulers_quiet {cpus : List CpuId} {scheduler : O1Scheduler}
    (reachable : (schedulers cpus).Reachable scheduler) (cpu : CpuId) :
    quietQueues.Reachable
      { heap := scheduler.heap, rq := (scheduler.cpuStates cpu).runQueue } := by
  have both : (scheduler.placed none).Consistent ∧ (scheduler.placed none).Quiet := by
    refine reachable.invariant (fun scheduler =>
      (scheduler.placed none).Consistent ∧ (scheduler.placed none).Quiet) ?_ ?_
    · rintro _ rfl
      exact ⟨consistent_init cpus, fun cpu =>
        ⟨((O1Scheduler.init cpus).placed none).lane cpu, [], rfl, .nil _⟩⟩
    · intro scheduler event next found moved
      obtain ⟨consistent, quiet⟩ := found
      refine ⟨dispatch_consistent consistent moved, ?_⟩
      cases O1Scheduler.dispatch_does consistent moved with
      | message _ transfers => exact transfers.quiet consistent quiet
      | tick tick => exact tick.quiet consistent quiet
      | @schedule _ _ _ _ started _ taken taking finishing =>
          have noted := consistent.note (.entered started)
          refine finishing.quiet (taking.consistent noted) rfl (taking.quiet noted ?_)
          exact quiet.step fun cpu => lane_write rfl fun _ _ _ task allocated =>
            ⟨task, allocated, rfl, rfl, rfl⟩
  exact both.2 cpu

end Ghost.O1
