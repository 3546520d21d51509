import Ghost.O1.Invariant

/-!
# Failed commits

When the transaction for a dequeued task fails, `O1Schedule` boosts the task and
enqueues it again. Every queued task has slice left, so `Enqueue` puts it back at the
front of the bucket of the active array that `Dequeue` took it from.
-/

set_option autoImplicit false

namespace Ghost.O1

open Lib

/-- The queue that `Dequeue` and the boosted `Enqueue` leave. -/
def O1Rq.restored (rq : O1Rq) (idx : Fin kNumPrio) (ptr : TaskPtr) (rest : List TaskPtr) : O1Rq :=
  { rq with active := (rq.active.shrink idx rest).grow idx ptr true }

section Restored

variable {rq : O1Rq} {idx : Fin kNumPrio} {ptr : TaskPtr} {rest : List TaskPtr}

private theorem O1Rq.restored_queues (front : rq.active.queues idx = ptr :: rest) :
    (rq.restored idx ptr rest).active.queues = rq.active.queues := by
  simp only [O1Rq.restored, PrioArray.grow, PrioArray.shrink, PrioArray.pushed, if_true,
    Function.update_self, Function.update_idem]
  rw [← front, Function.update_eq_self]

private theorem O1Rq.Coherent.restored (coherent : rq.Coherent)
    (front : rq.active.queues idx = ptr :: rest) :
    (rq.restored idx ptr rest).Coherent := by
  have occupied : rq.active.queues idx ≠ [] := by
    rw [front]
    exact List.cons_ne_nil ptr rest
  exact ⟨(coherent.1.shrink occupied rest).grow idx ptr true, coherent.2⟩

private theorem O1Rq.restored_turned (coherent : rq.Coherent)
    (front : rq.active.queues idx = ptr :: rest) :
    (rq.restored idx ptr rest).turned = rq.restored idx ptr rest := by
  unfold O1Rq.turned
  refine if_neg ?_
  rw [PrioArray.empty_iff (coherent.restored front).1, O1Rq.restored_queues front]
  intro vacant
  cases front.symm.trans (vacant idx)

private theorem O1Rq.dequeue_restored (coherent : rq.Coherent)
    (lowest : rq.active.queues.Lowest idx)
    (front : rq.active.queues idx = ptr :: rest) {heap : Heap} {task : O1Task}
    (allocated : heap.tasks ptr = some task) (queued : task.runState = .kQueued) :
    ∃ heap' rq', (rq.restored idx ptr rest).dequeue heap = .ok (heap', rq', some ptr) := by
  have queues := O1Rq.restored_queues front
  have turned := O1Rq.restored_turned coherent front
  have lowest' : (rq.restored idx ptr rest).turned.active.queues.Lowest idx := by
    rw [turned, queues]
    exact lowest
  have front' : (rq.restored idx ptr rest).turned.active.queues idx = ptr :: rest := by
    rw [turned, queues, front]
  exact ⟨_, _, O1Rq.dequeue_front (coherent.restored front) lowest' front' allocated queued⟩

private theorem O1Rq.dequeue_some (coherent : rq.Coherent) {heap heap' : Heap} {rq' : O1Rq}
    (dequeues : rq.dequeue heap = .ok (heap', rq', some ptr)) :
    ∃ idx rest, rq.turned.active.queues.Lowest idx ∧ rq.turned.active.queues idx = ptr :: rest := by
  rcases O1Rq.dequeue_spec coherent heap with ⟨-, nothing⟩ |
    ⟨idx, other, rest, lowest, front, pops⟩
  · cases nothing.symm.trans dequeues
  · rw [pops] at dequeues
    simp only [bind_eq_ok, Except.ok.injEq, Prod.mk.injEq] at dequeues
    obtain ⟨_, -, _, -, -, -, same⟩ := dequeues
    cases same
    exact ⟨idx, rest, lowest, front⟩

end Restored

/-- The queue is as it was, up to the exchange of its arrays, and so is everything
else but for the boost of the task. -/
structure Undone (scheduler next : O1Scheduler) (cpu : CpuId) (ptr : TaskPtr) (task : O1Task) :
    Prop where
  active : (next.cpuStates cpu).runQueue.active.queues =
    (scheduler.cpuStates cpu).runQueue.turned.active.queues
  expired : (next.cpuStates cpu).runQueue.expired.queues =
    (scheduler.cpuStates cpu).runQueue.turned.expired.queues
  others : ∀ other, other ≠ cpu → next.cpuStates other = scheduler.cpuStates other
  current : (next.cpuStates cpu).current = none
  tasks : next.heap.tasks =
    Function.update scheduler.heap.tasks ptr (some { task with prioBoost := true })
  queued : task.runState = .kQueued
  front : ∃ idx rest, task.staticPriority = kBasePrio + (idx : Fin kNumPrio).val ∧
    (next.cpuStates cpu).runQueue.active.queues idx = ptr :: rest
  again : ∃ heap rq, (next.cpuStates cpu).runQueue.dequeue next.heap = .ok (heap, rq, some ptr)

namespace O1Scheduler

variable {scheduler : O1Scheduler} {cpu : CpuId} {ptr : TaskPtr} {task : O1Task}
  {idx : Fin kNumPrio} {rest : List TaskPtr}

private theorem takePreemption_idle (idle : (scheduler.cpuStates cpu).current = none) :
    ∃ next, scheduler.takePreemption cpu = .ok next ∧ next.heap = scheduler.heap ∧
      (next.cpuStates cpu).runQueue = (scheduler.cpuStates cpu).runQueue ∧
      (next.cpuStates cpu).current = none ∧
      ∀ other, other ≠ cpu → next.cpuStates other = scheduler.cpuStates other := by
  by_cases preempt : (scheduler.cpuStates cpu).preemptCurr = true
  · refine ⟨scheduler.setCpu cpu
      { current := none, runQueue := (scheduler.cpuStates cpu).runQueue, preemptCurr := false },
      ?_, rfl, by simp, by simp, ?_⟩
    · simp only [takePreemption, preempt, if_true, idle]
    · intro other different
      simp [different]
  · refine ⟨scheduler, ?_, rfl, rfl, idle, fun _ _ => rfl⟩
    simp only [takePreemption, preempt, Bool.false_eq_true, if_false]

private theorem commitNext_fails {agentBarrier : Nat} {now : Int}
    (idle : (scheduler.cpuStates cpu).current = none)
    (allocated : scheduler.heap.tasks ptr = some task) (home : task.cpu = cpu.val)
    (runnable : task.runState = .kRunnable) (positive : 0 < task.remainingTime)
    (bucket : task.staticPriority = kBasePrio + idx.val) :
    ∃ next, scheduler.commitNext cpu ptr agentBarrier now false = .ok next ∧
      next.cpuStates = Function.update scheduler.cpuStates cpu { scheduler.cpuStates cpu with
        runQueue := { (scheduler.cpuStates cpu).runQueue with
          active := (scheduler.cpuStates cpu).runQueue.active.grow idx ptr true } } ∧
      next.heap.tasks = Function.update scheduler.heap.tasks ptr
        (some { task with prioBoost := true, runState := .kQueued }) := by
  obtain ⟨opened, isOpened⟩ : ∃ opened, (scheduler.emit
      (.openTxn cpu task.gtid task.seqnum agentBarrier)).emit (.commit cpu false) = opened :=
    ⟨_, rfl⟩
  have sameCpus : opened.cpuStates = scheduler.cpuStates := by rw [← isOpened]; rfl
  have sameHeap : opened.heap = scheduler.heap := by rw [← isOpened]; rfl
  have able : O1Rq.Enqueueable (opened.put ptr { task with prioBoost := true }).heap ptr
      { task with prioBoost := true } idx :=
    ⟨Function.update_self .., by simp [home], runnable, bucket⟩
  obtain ⟨next, enqueued, states, stored⟩ := enqueueOn_active able positive
  refine ⟨next, ?_, ?_, ?_⟩
  · simp only [commitNext, Bool.false_eq_true, if_false, bind_eq_ok, Heap.read_eq_ok]
    refine ⟨task, allocated, opened, ?_, task, sameHeap ▸ allocated, enqueued⟩
    rw [isOpened, if_neg (by simp [sameCpus, idle])]
  · rw [states, put_cpuStates, sameCpus]
  · simp [stored, sameHeap]

theorem o1Schedule_undone (consistent : (scheduler.placed none).Consistent)
    (idle : (scheduler.cpuStates cpu).current = none) {heap : Heap} {rq : O1Rq}
    (dequeues : (scheduler.cpuStates cpu).runQueue.dequeue scheduler.heap =
      .ok (heap, rq, some ptr)) (agentBarrier : Nat) (started now : Int) :
    ∃ task next, scheduler.heap.tasks ptr = some task ∧
      scheduler.o1Schedule cpu agentBarrier false started now false = .ok next ∧
      Undone scheduler next cpu ptr task := by
  have sound : (scheduler.cpuStates cpu).runQueue.Sound scheduler.heap := consistent.sound cpu
  have coherent := sound.coherent.turned
  obtain ⟨idx, rest, lowest, front⟩ := O1Rq.dequeue_some sound.coherent dequeues
  have member : ptr ∈ (scheduler.cpuStates cpu).runQueue.contents idx := by
    refine ((scheduler.cpuStates cpu).runQueue.contents_turned idx).mem_iff.mp ?_
    rw [O1Rq.contents, front]
    exact List.mem_cons_self
  obtain ⟨task, allocated, queued, bucket⟩ := sound.queued idx ptr member
  obtain ⟨positive, -⟩ := consistent.queued ptr task allocated queued
  have home := consistent.home cpu idx ptr task member allocated
  obtain ⟨taken, takes, sameHeap, sameQueue, stillIdle, elsewhere⟩ :=
    @takePreemption_idle (scheduler.setHeap (scheduler.heap.note (.entered started))) cpu idle
  have storedTaken : taken.heap.tasks ptr = some task := by
    rw [sameHeap]
    exact allocated
  have pops := O1Rq.dequeue_front sound.coherent lowest front storedTaken queued
  rw [← setHeap_cpuStates, ← sameQueue] at pops
  obtain ⟨picked, picks, states, stored⟩ : ∃ picked, taken.dequeueOn cpu = .ok (some ptr, picked) ∧
      picked.cpuStates = Function.update taken.cpuStates cpu { taken.cpuStates cpu with
        runQueue := { (taken.cpuStates cpu).runQueue.turned with
          active := (taken.cpuStates cpu).runQueue.turned.active.shrink idx rest } } ∧
      picked.heap = taken.heap.put ptr { task with runState := .kRunnable } :=
    ⟨_, dequeueOn_of_eq pops, rfl, rfl⟩
  have pickedIdle : (picked.cpuStates cpu).current = none := by
    rw [states, Function.update_self]
    exact stillIdle
  have pickedTask : picked.heap.tasks ptr = some { task with runState := .kRunnable } := by
    simp [stored]
  obtain ⟨next, fails, states', tasks⟩ :=
    @commitNext_fails _ _ _ _ _ agentBarrier now pickedIdle pickedTask home rfl positive bucket
  have queue : (next.cpuStates cpu).runQueue =
      (scheduler.cpuStates cpu).runQueue.turned.restored idx ptr rest := by
    rw [states', states]
    simp only [Function.update_self, sameQueue, setHeap_cpuStates]
    rfl
  have boosted : next.heap.tasks = Function.update scheduler.heap.tasks ptr
      (some { task with prioBoost := true }) := by
    simp [tasks, stored, sameHeap, queued]
  refine ⟨task, next, allocated, ?_, ?_⟩
  · simp only [o1Schedule, bind_eq_ok]
    refine ⟨taken, takes, (some ptr, picked), ?_, fails⟩
    simp only [pickNext, Bool.false_eq_true, if_false, stillIdle]
    exact picks
  · refine ⟨?_, ?_, ?_, ?_, boosted, queued, ?_, ?_⟩
    · rw [queue, O1Rq.restored_queues front]
    · rw [queue]
      rfl
    · intro other different
      rw [states', Function.update_of_ne different, states, Function.update_of_ne different]
      exact elsewhere other different
    · rw [states', Function.update_self]
      exact pickedIdle
    · refine ⟨idx, rest, bucket, ?_⟩
      rw [queue, O1Rq.restored_queues front, front]
    · have storedNext : next.heap.tasks ptr = some { task with prioBoost := true } := by
        rw [boosted, Function.update_self]
      rw [queue]
      exact O1Rq.dequeue_restored coherent lowest front storedNext queued

end O1Scheduler

end Ghost.O1
