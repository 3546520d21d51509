import Ghost.O1.Invariant

/-!
# Changing the priority of a queued task

`TaskPriorityChanged` takes the task out of its bucket and enqueues it again. Every
queued task has slice left, since one that arrived without was granted a new slice on
its way into the expired array. So `Enqueue`, which decides from the remaining time,
always inserts it into the active array: a task that waits for the next epoch joins
the current one.
-/

set_option autoImplicit false

namespace Ghost.O1

open Lib

namespace PrioArray

/-- The other tasks of a bucket, in order. -/
def others (array : PrioArray) (ptr : TaskPtr) (idx : Fin kNumPrio) : List TaskPtr :=
  (array.queues idx).filter (· ≠ ptr)

private theorem others_grow (array : PrioArray) (idx : Fin kNumPrio) (ptr : TaskPtr)
    (front : Bool) :
    (array.grow idx ptr front).others ptr = array.others ptr := by
  funext other
  unfold others grow
  by_cases same : other = idx
  · subst same
    cases front <;> simp [pushed]
  · simp [same]

private theorem others_shrink {array : PrioArray} {idx : Fin kNumPrio} {ptr : TaskPtr}
    (unique : (array.queues idx).Nodup) :
    (array.shrink idx ((array.queues idx).erase ptr)).others ptr = array.others ptr := by
  funext other
  unfold others shrink
  by_cases same : other = idx
  · subst same
    simp [unique.erase_eq_filter, bne, Bool.beq_eq_decide_eq]
  · simp [same]

end PrioArray

/-- The task moved to the bucket of its new priority in the array it was in, with the
same slice left, and everyone else stayed. -/
structure KeepsEpoch (scheduler next : O1Scheduler) (ptr : TaskPtr) (task : O1Task) (nice : Int) :
    Prop where
  active : ∀ cpu idx, ptr ∈ (scheduler.cpuStates cpu).runQueue.active.queues idx →
    ∃ idx', kBasePrio + (idx' : Fin kNumPrio).val = 120 + nice ∧
      ptr ∈ (next.cpuStates cpu).runQueue.active.queues idx'
  expired : ∀ cpu idx, ptr ∈ (scheduler.cpuStates cpu).runQueue.expired.queues idx →
    ∃ idx', kBasePrio + (idx' : Fin kNumPrio).val = 120 + nice ∧
      ptr ∈ (next.cpuStates cpu).runQueue.expired.queues idx'
  once : ∃ task', next.heap.tasks ptr = some task' ∧ task'.remainingTime = task.remainingTime ∧
    task'.runState = .kQueued ∧ next.QueuedOnce ptr task'
  othersActive : ∀ cpu, (next.cpuStates cpu).runQueue.active.others ptr =
    (scheduler.cpuStates cpu).runQueue.active.others ptr
  othersExpired : ∀ cpu, (next.cpuStates cpu).runQueue.expired.others ptr =
    (scheduler.cpuStates cpu).runQueue.expired.others ptr

namespace O1Scheduler

variable {scheduler : O1Scheduler} {ptr : TaskPtr} {task : O1Task} {nice : Int}

/-- The queue that `Erase` leaves. -/
def Leaves (rq : O1Rq) (ptr : TaskPtr) (idx : Fin kNumPrio) (rest : O1Rq) : Prop :=
  (ptr ∈ rq.active.queues idx ∧
    { rq with active := rq.active.shrink idx ((rq.active.queues idx).erase ptr) } = rest) ∨
  (ptr ∉ rq.active.queues idx ∧ ptr ∈ rq.expired.queues idx ∧
    { rq with expired := rq.expired.shrink idx ((rq.expired.queues idx).erase ptr) } = rest)

private theorem taskPriorityChanged_queued (consistent : (scheduler.placed none).Consistent)
    (allocated : scheduler.heap.tasks ptr = some task) (queued : task.runState = .kQueued)
    (lower : -20 ≤ nice) (upper : nice ≤ 19) :
    ∃ (next : O1Scheduler) (cpu : CpuId) (idx idx' : Fin kNumPrio) (rest : O1Rq),
      scheduler.taskPriorityChanged ptr nice = .ok next ∧
      ptr ∈ (scheduler.cpuStates cpu).runQueue.contents idx ∧
      kBasePrio + idx'.val = 120 + nice ∧
      Leaves (scheduler.cpuStates cpu).runQueue ptr idx rest ∧
      next.cpuStates = Function.update scheduler.cpuStates cpu
        { scheduler.cpuStates cpu with
          runQueue := { rest with active := rest.active.grow idx' ptr task.prioBoost } } ∧
      next.heap.tasks = Function.update scheduler.heap.tasks ptr
        (some { task with staticPriority := 120 + nice }) := by
  obtain ⟨positive, cpu, idx, member⟩ := consistent.queued ptr task allocated queued
  have home : task.cpu = cpu.val := consistent.home cpu idx ptr task member allocated
  obtain ⟨found, stored, -, bucket⟩ := (consistent.sound cpu).queued idx ptr member
  cases allocated.symm.trans stored
  have leaves : ∃ rest, Leaves (scheduler.cpuStates cpu).runQueue ptr idx rest := by
    by_cases inActive : ptr ∈ (scheduler.cpuStates cpu).runQueue.active.queues idx
    · exact ⟨_, .inl ⟨inActive, rfl⟩⟩
    · exact ⟨_, .inr ⟨inActive, (List.mem_append.mp member).resolve_left inActive, rfl⟩⟩
  obtain ⟨rest, leaves⟩ := leaves
  have erasing : (scheduler.cpuStates cpu).runQueue.erase scheduler.heap ptr =
      .ok (scheduler.heap.put ptr { task with runState := .kRunnable }, rest) :=
    O1Rq.erase_eq_ok.mpr ⟨task, idx, allocated, queued, bucket, rfl, leaves⟩
  have inRange : (20 + nice).toNat < kNumPrio := by
    unfold kNumPrio
    omega
  have rebucketed : kBasePrio + ((20 + nice).toNat : Int) = 120 + nice := by
    unfold kBasePrio
    omega
  have erased := eraseOn_of_eq erasing
  generalize isErased : (scheduler.setCpu cpu { scheduler.cpuStates cpu with
    runQueue := rest }).setHeap (scheduler.heap.put ptr { task with runState := .kRunnable }) =
      middle at erased
  have queue : (middle.cpuStates cpu).runQueue = rest := by simp [← isErased]
  have runnable : middle.heap.tasks ptr = some { task with runState := .kRunnable } := by
    simp [← isErased]
  have able : O1Rq.Enqueueable (middle.put ptr { task with
        runState := .kRunnable, staticPriority := 120 + nice }).heap ptr
      { task with runState := .kRunnable, staticPriority := 120 + nice } ⟨_, inRange⟩ :=
    ⟨Function.update_self .., by simp [home], rfl, rebucketed.symm⟩
  obtain ⟨next, enqueued, states, stored⟩ := enqueueOn_active able positive
  refine ⟨next, cpu, idx, ⟨_, inRange⟩, rest, ?_, member, rebucketed, leaves, ?_, ?_⟩
  · simp only [taskPriorityChanged, bind_eq_ok, Heap.read_eq_ok]
    refine ⟨task, allocated, ?_⟩
    rw [if_pos queued]
    simp only [bind_eq_ok, Heap.read_eq_ok, cpuStateOf_eq_ok]
    exact ⟨cpu, home, middle, erased, _, runnable, enqueued⟩
  · rw [states, put_cpuStates, queue]
    simp [← isErased]
  · simp [stored, ← isErased, queued]

end O1Scheduler

private theorem PrioArray.mem_grow_self (array : PrioArray) (idx : Fin kNumPrio) (ptr : TaskPtr)
    (front : Bool) : ptr ∈ (array.grow idx ptr front).queues idx := by
  unfold grow
  cases front <;> simp [pushed]

section Epoch

variable {cpus : List CpuId} {scheduler : O1Scheduler} {ptr : TaskPtr} {task : O1Task} {nice : Int}

/-- A queued task keeps its epoch under a change of its priority if and only if it is in
the active array. -/
theorem taskPriorityChanged_keepsEpoch_iff (reachable : (schedulers cpus).Reachable scheduler)
    (allocated : scheduler.heap.tasks ptr = some task) (queued : task.runState = .kQueued)
    (lower : -20 ≤ nice) (upper : nice ≤ 19) :
    ∃ next, scheduler.taskPriorityChanged ptr nice = .ok next ∧
      (KeepsEpoch scheduler next ptr task nice ↔
        ∃ cpu idx, ptr ∈ (scheduler.cpuStates cpu).runQueue.active.queues idx) := by
  have consistent := schedulers_consistent reachable
  obtain ⟨next, cpu, idx, idx', rest, handled, member, rebucketed, leaves, states, tasks⟩ :=
    O1Scheduler.taskPriorityChanged_queued consistent allocated queued lower upper
  have consistent' :=
    (O1Scheduler.taskPriorityChanged_transfers handled consistent).consistent consistent
  have unique := (consistent.sound cpu).unique idx
  have apart := List.nodup_append.mp unique
  have here : (next.cpuStates cpu).runQueue =
      { rest with active := rest.active.grow idx' ptr task.prioBoost } := by
    rw [states, Function.update_self]
  have elsewhere : ∀ other, other ≠ cpu → next.cpuStates other = scheduler.cpuStates other := by
    intro other different
    rw [states, Function.update_of_ne different]
  refine ⟨next, handled, ?_⟩
  rcases leaves with ⟨inActive, rfl⟩ | ⟨notActive, inExpired, rfl⟩
  · refine iff_of_true ?_ ⟨cpu, idx, inActive⟩
    constructor
    · intro other at_ there
      obtain ⟨rfl, -⟩ := consistent.queued_once member (List.mem_append_left _ there)
      refine ⟨idx', rebucketed, ?_⟩
      rw [here]
      exact PrioArray.mem_grow_self ..
    · intro other at_ there
      obtain ⟨rfl, rfl⟩ := consistent.queued_once member (List.mem_append_right _ there)
      exact absurd rfl (apart.2.2 ptr inActive ptr there)
    · have stored : next.heap.tasks ptr = some { task with staticPriority := 120 + nice } := by
        rw [tasks, Function.update_self]
      exact ⟨_, stored, rfl, queued, O1Scheduler.queuedOnce consistent' stored queued⟩
    · intro other
      by_cases same : other = cpu
      · subst same
        rw [here, PrioArray.others_grow]
        exact PrioArray.others_shrink apart.1
      · rw [elsewhere other same]
    · intro other
      by_cases same : other = cpu
      · subst same
        rw [here]
      · rw [elsewhere other same]
  · refine iff_of_false ?_ ?_
    · intro keeps
      obtain ⟨at_, -, there⟩ := keeps.expired cpu idx inExpired
      rw [here] at there
      dsimp only [PrioArray.shrink] at there
      by_cases same : at_ = idx
      · subst same
        rw [Function.update_self] at there
        exact apart.2.1.not_mem_erase there
      · rw [Function.update_of_ne same] at there
        exact same (consistent.queued_once member (List.mem_append_right _ there)).2
    · intro active
      obtain ⟨other, at_, there⟩ := active
      obtain ⟨rfl, rfl⟩ := consistent.queued_once member (List.mem_append_left _ there)
      exact notActive there

end Epoch

/-! ## A task that used up its slice -/

/-- The first of two tasks runs for two slices and is preempted. -/
def outrun : O1Scheduler :=
  .after [firstCpu]
    [.taskNew 1 101 1 0 true true, .taskNew 2 102 1 0 true true,
      .o1Schedule firstCpu 1 false 0 0 true, .taskPreempted 1 2 ⟨false, firstCpu⟩ 20000000]

theorem outrun_reachable : (schedulers [firstCpu]).Reachable outrun :=
  O1Scheduler.after_reachable _ _

/-- Then its priority is changed. -/
def outrunChanged : O1Scheduler := ((outrun.taskPriorityChanged 1 5).toOption).getD outrun

/-- It waits in the expired array and comes out in the active one. -/
theorem outrun_changes_epoch :
    (schedulers [firstCpu]).Reachable outrun ∧
    1 ∈ (outrun.cpuStates firstCpu).runQueue.expired.queues niceZero ∧
    outrun.taskPriorityChanged 1 5 = .ok outrunChanged ∧
    (∃ idx, 1 ∈ (outrunChanged.cpuStates firstCpu).runQueue.active.queues idx) ∧
    ∀ task, ¬KeepsEpoch outrun outrunChanged 1 task 5 := by
  have waits : 1 ∈ (outrun.cpuStates firstCpu).runQueue.expired.queues niceZero := by
    decide +kernel
  have handled : outrun.taskPriorityChanged 1 5 = .ok outrunChanged := by
    have succeeds : (outrun.taskPriorityChanged 1 5).toOption.isSome = true := by decide +kernel
    unfold outrunChanged
    cases result : outrun.taskPriorityChanged 1 5 with
    | error fault =>
        rw [result] at succeeds
        cases succeeds
    | ok next => rfl
  have gone : ∀ idx, 1 ∉ (outrunChanged.cpuStates firstCpu).runQueue.expired.queues idx := by
    decide +kernel
  refine ⟨outrun_reachable, waits, handled, by decide +kernel, ?_⟩
  intro task keeps
  obtain ⟨idx, -, there⟩ := keeps.expired firstCpu niceZero waits
  exact gone idx there

/-- The task that still waits for its turn. -/
def waitingTask : O1Task :=
  { gtid := 102, seqnum := 1, staticPriority := 120, runState := .kQueued, cpu := 0
    remainingTime := timeSlice }

theorem taskPriorityChanged_keepsEpoch_iff_waiting :
    ∃ next, outrun.taskPriorityChanged 2 5 = .ok next ∧
      KeepsEpoch outrun next 2 waitingTask 5 := by
  have allocated : outrun.heap.tasks 2 = some waitingTask := by decide +kernel
  have active : 2 ∈ (outrun.cpuStates firstCpu).runQueue.active.queues niceZero := by
    decide +kernel
  have lower : (-20 : Int) ≤ 5 := by decide
  have upper : (5 : Int) ≤ 19 := by decide
  obtain ⟨next, handled, keeps⟩ :=
    taskPriorityChanged_keepsEpoch_iff outrun_reachable allocated rfl lower upper
  exact ⟨next, handled, keeps.mpr ⟨firstCpu, niceZero, active⟩⟩

end Ghost.O1
