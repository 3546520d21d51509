import Ghost.Lib.StackRotation
import Ghost.O1.Invariant

/-!
# Rounds of tasks with equal priority

Tasks of one priority share a CPU and each runs until its slice expires. One
round is the tick that expires the slice, the `O1Schedule` that puts the next
task on the CPU, and the `TaskPreempted` message of the old one. That message
boosts the old task, so it enters the expired deque at its front.
-/

set_option autoImplicit false

namespace Ghost.O1

open Lib

namespace O1Scheduler

variable {scheduler : O1Scheduler} {cpu : CpuId} {ptr : TaskPtr} {task : O1Task}

/-! ## The three steps of a round -/

private theorem cpuTick_expires {now : Int} (later : Int)
    (current : (scheduler.cpuStates cpu).current = some ptr)
    (allocated : scheduler.heap.tasks ptr = some task)
    (expires : task.remainingTime - (now - task.runtimeAtLastPick) ≤ 0) :
    scheduler.cpuTick cpu now later =
      .ok ((scheduler.put ptr (task.updateRemainingTime false now later).1).setCpu cpu
        { scheduler.cpuStates cpu with preemptCurr := true }) := by
  simp only [cpuTick, current, bind_eq_ok, Heap.read_eq_ok]
  refine ⟨task, allocated, ?_⟩
  simp [O1Task.updateRemainingTime, expires, O1Task.setRuntimeAtLastPick]

private theorem takePreemption_drops {prev : TaskPtr}
    (preempt : (scheduler.cpuStates cpu).preemptCurr = true)
    (current : (scheduler.cpuStates cpu).current = some prev)
    (occupied : (scheduler.cpuStates cpu).runQueue.empty = false) :
    scheduler.takePreemption cpu = .ok (scheduler.setCpu cpu
      { current := none, runQueue := (scheduler.cpuStates cpu).runQueue, preemptCurr := false }) := by
  simp only [takePreemption, preempt, if_true, current, occupied, Bool.false_eq_true, if_false]

private theorem commitNext_commits (agentBarrier : Nat) (now : Int)
    (allocated : scheduler.heap.tasks ptr = some task) :
    ∃ next, scheduler.commitNext cpu ptr agentBarrier now true = .ok next ∧
      next.cpuStates cpu = { scheduler.cpuStates cpu with current := some ptr } ∧
      next.heap = (scheduler.heap.put ptr (task.onCpu cpu now)).note (.onCpu ptr now) := by
  simp only [commitNext, taskOnCpu, if_true, bind_eq_ok, Heap.read_eq_ok, emit_heap, Except.ok.injEq]
  exact ⟨_, ⟨task, allocated, task, allocated, rfl⟩, by simp, rfl⟩

/-- `O1Schedule` replaces a task whose preemption is pending. -/
theorem o1Schedule_switches (agentBarrier : Nat) {started : Int} (now : Int) {prev : TaskPtr}
    {heap : Heap} {rq : O1Rq} (preempt : (scheduler.cpuStates cpu).preemptCurr = true)
    (current : (scheduler.cpuStates cpu).current = some prev)
    (occupied : (scheduler.cpuStates cpu).runQueue.empty = false)
    (popping : (scheduler.cpuStates cpu).runQueue.dequeue (scheduler.heap.note (.entered started)) =
      .ok (heap, rq, some ptr))
    (allocated : heap.tasks ptr = some task) :
    ∃ next, scheduler.o1Schedule cpu agentBarrier false started now true = .ok next ∧
      next.cpuStates cpu = { current := some ptr, runQueue := rq, preemptCurr := false } ∧
      next.heap = (heap.put ptr (task.onCpu cpu now)).note (.onCpu ptr now) := by
  obtain ⟨dropped, isDropped⟩ : ∃ dropped, (scheduler.setHeap
    (scheduler.heap.note (.entered started))).setCpu cpu
      { current := none, runQueue := (scheduler.cpuStates cpu).runQueue, preemptCurr := false } =
      dropped := ⟨_, rfl⟩
  have taking : (scheduler.setHeap (scheduler.heap.note (.entered started))).takePreemption cpu =
      .ok dropped := by
    rw [← isDropped]
    exact takePreemption_drops preempt current occupied
  have idle : dropped.cpuStates cpu =
      { current := none, runQueue := (scheduler.cpuStates cpu).runQueue, preemptCurr := false } := by
    simp [← isDropped]
  have picking : dropped.pickNext cpu false = .ok (some ptr, (dropped.setCpu cpu
      { dropped.cpuStates cpu with runQueue := rq }).setHeap heap) := by
    simp only [pickNext, Bool.false_eq_true, if_false, idle]
    have pops : (dropped.cpuStates cpu).runQueue.dequeue dropped.heap = .ok (heap, rq, some ptr) := by
      rw [idle, ← isDropped]
      exact popping
    rw [dequeueOn_of_eq pops, idle]
  have committing : ((dropped.setCpu cpu
      { dropped.cpuStates cpu with runQueue := rq }).setHeap heap).heap.tasks ptr = some task :=
    allocated
  obtain ⟨next, commits, cs, stored⟩ := commitNext_commits agentBarrier now committing
  refine ⟨next, ?_, ?_, stored⟩
  · simp only [o1Schedule, bind_eq_ok]
    exact ⟨dropped, taking, (some ptr, _), picking, commits⟩
  · rw [cs]
    simp [idle]

private theorem taskOffCpu_leaves (fromSwitchto : Bool) (now : Int)
    (allocated : scheduler.heap.tasks ptr = some task) (onCpu : task.runState = .kOnCpu)
    (home : task.cpu = cpu.val) (notCurrent : (scheduler.cpuStates cpu).current ≠ some ptr) :
    scheduler.taskOffCpu ptr false fromSwitchto now =
      .ok ((scheduler.setCpu cpu (scheduler.cpuStates cpu)).setHeap
        ((scheduler.heap.put ptr { task with
          runState := .kRunnable
          remainingTime := task.remainingTime - (now - task.runtimeAtLastPick) }).note
            (.offCpu ptr now))) := by
  simp only [taskOffCpu, bind_eq_ok, Heap.read_eq_ok, cpuStateOf_eq_ok]
  refine ⟨task, allocated, cpu, home, ?_⟩
  simp [onCpu, O1Task.updateRemainingTime, notCurrent]

private theorem enqueueOn_expires (cpu : CpuId) {idx : Fin kNumPrio}
    (able : O1Rq.Enqueueable scheduler.heap ptr task idx) (exhausted : task.remainingTime ≤ 0) :
    ∃ next, scheduler.enqueueOn cpu ptr = .ok next ∧
      next.cpuStates cpu = { scheduler.cpuStates cpu with
        runQueue := { (scheduler.cpuStates cpu).runQueue with
          expired := (scheduler.cpuStates cpu).runQueue.expired.grow idx ptr task.prioBoost } } ∧
      next.heap = scheduler.heap.putGranted ptr { task with runState := .kQueued } := by
  simp only [enqueueOn, O1Rq.enqueue_eq_ok.mpr ⟨task, idx, able, .inr ⟨exhausted, rfl, rfl⟩⟩]
  exact ⟨_, rfl, by simp, rfl⟩

private theorem pingSwitchto_heap (payload : Switchto) :
    (scheduler.pingSwitchto payload).heap = scheduler.heap := by
  unfold pingSwitchto
  split <;> rfl

private theorem pingSwitchto_cpuStates (payload : Switchto) :
    (scheduler.pingSwitchto payload).cpuStates = scheduler.cpuStates := by
  unfold pingSwitchto
  split <;> rfl

/-- `TaskPreempted` of a task that was replaced and has used up its slice. -/
theorem taskPreempted_expires (payload : Switchto) {now : Int} {idx : Fin kNumPrio}
    (allocated : scheduler.heap.tasks ptr = some task) (onCpu : task.runState = .kOnCpu)
    (home : task.cpu = cpu.val) (bucket : task.staticPriority = kBasePrio + idx.val)
    (notCurrent : (scheduler.cpuStates cpu).current ≠ some ptr)
    (expired : task.remainingTime - (now - task.runtimeAtLastPick) ≤ 0) :
    ∃ next, scheduler.taskPreempted ptr payload now = .ok next ∧
      next.cpuStates cpu = { scheduler.cpuStates cpu with
        runQueue := { (scheduler.cpuStates cpu).runQueue with
          expired := (scheduler.cpuStates cpu).runQueue.expired.grow idx ptr true } } ∧
      (∀ other, other ≠ ptr → next.heap.tasks other = scheduler.heap.tasks other) ∧
      ∃ task', next.heap.tasks ptr = some task' ∧ task'.seqnum = task.seqnum := by
  have leaving := taskOffCpu_leaves payload.fromSwitchto now allocated onCpu home notCurrent
  obtain ⟨off, isOff⟩ : ∃ off : O1Task, { task with
      runState := .kRunnable
      remainingTime := task.remainingTime - (now - task.runtimeAtLastPick) } = off := ⟨_, rfl⟩
  obtain ⟨left, isLeft⟩ : ∃ left, (scheduler.setCpu cpu (scheduler.cpuStates cpu)).setHeap
      ((scheduler.heap.put ptr off).note (.offCpu ptr now)) = left := ⟨_, rfl⟩
  rw [isOff, isLeft] at leaving
  have leftTasks : left.heap.tasks = Function.update scheduler.heap.tasks ptr (some off) := by
    rw [← isLeft]
    rfl
  have leftCpu : left.cpuStates cpu = scheduler.cpuStates cpu := by
    rw [← isLeft]
    simp
  have offHome : off.cpu = cpu.val := by rw [← isOff, home]
  have able : O1Rq.Enqueueable (left.put ptr { off with preempted := true, prioBoost := true }).heap
      ptr { off with preempted := true, prioBoost := true } idx :=
    ⟨Function.update_self .., by simp [offHome], by rw [← isOff], by rw [← isOff, ← bucket]⟩
  obtain ⟨queued, queueing, queuedCpu, queuedHeap⟩ := enqueueOn_expires cpu able
    (by rw [← isOff]; exact expired)
  refine ⟨queued.pingSwitchto payload, ?_, ?_, ?_, ?_⟩
  · simp only [taskPreempted, bind_eq_ok, Heap.read_eq_ok, cpuStateOf_eq_ok, Except.ok.injEq]
    exact ⟨left, leaving, off, by rw [leftTasks, Function.update_self], cpu, offHome, queued,
      queueing, rfl⟩
  · rw [pingSwitchto_cpuStates, queuedCpu]
    simp [leftCpu]
  · intro other different
    rw [pingSwitchto_heap, queuedHeap]
    simp [leftTasks, different]
  · rw [pingSwitchto_heap, queuedHeap]
    exact ⟨_, Function.update_self .., by rw [← isOff]; rfl⟩

end O1Scheduler

/-! ## Contention -/

/-- One deque of the array is occupied at most. -/
def onlyBucket (idx : Fin kNumPrio) (queue : List TaskPtr) : Buckets kNumPrio TaskPtr :=
  Function.update (fun _ => []) idx queue

/-- One task is on the CPU, and the tasks that wait for it have the same priority. -/
structure Contended (scheduler : O1Scheduler) (cpu : CpuId) (idx : Fin kNumPrio)
    (rotation : Rotation TaskPtr) : Prop where
  consistent : (scheduler.placed none).Consistent
  current : (scheduler.cpuStates cpu).current = some rotation.current
  active : (scheduler.cpuStates cpu).runQueue.active.queues = onlyBucket idx rotation.active
  expired : (scheduler.cpuStates cpu).runQueue.expired.queues = onlyBucket idx rotation.expired
  priority : ∀ task, scheduler.heap.tasks rotation.current = some task →
    task.staticPriority = kBasePrio + idx.val

namespace Contended

variable {scheduler : O1Scheduler} {cpu : CpuId} {idx : Fin kNumPrio} {rotation : Rotation TaskPtr}

private theorem onlyBucket_vacant {queue : List TaskPtr} :
    (onlyBucket idx queue).Vacant ↔ queue = [] := by
  constructor
  · intro vacant
    simpa [onlyBucket] using vacant idx
  · rintro rfl other
    simp [onlyBucket]

private theorem onlyBucket_lowest {next : TaskPtr} {rest : List TaskPtr} :
    (onlyBucket idx (next :: rest)).Lowest idx where
  occupied := by simp [onlyBucket]
  below other before := by simp [onlyBucket, Function.update_of_ne (ne_of_lt before)]

private theorem contents_idx (contended : Contended scheduler cpu idx rotation) :
    (scheduler.cpuStates cpu).runQueue.contents idx = rotation.active ++ rotation.expired := by
  simp [O1Rq.contents, contended.active, contended.expired, onlyBucket]

/-- The contending tasks are distinct. -/
theorem nodup (contended : Contended scheduler cpu idx rotation) : rotation.items.Nodup := by
  refine List.nodup_cons.mpr ⟨fun waits => ?_, ?_⟩
  · obtain ⟨task, allocated, onCpu, -⟩ := contended.consistent.current cpu _ contended.current
    refine contended.consistent.outside allocated (by simp [onCpu]) cpu idx ?_
    exact contended.contents_idx ▸ waits
  · exact contended.contents_idx ▸ (contended.consistent.sound cpu).unique idx

/-- The arrays from which the next `Dequeue` takes, and the turn it makes. -/
theorem turned (contended : Contended scheduler cpu idx rotation)
    (several : 2 ≤ rotation.items.length) :
    ∃ next rest expired, rotation.turn = ⟨next, rest, rotation.current :: expired⟩ ∧
      next ∈ rotation.active ++ rotation.expired ∧
      (scheduler.cpuStates cpu).runQueue.turned.active.queues = onlyBucket idx (next :: rest) ∧
      (scheduler.cpuStates cpu).runQueue.turned.expired.queues = onlyBucket idx expired := by
  have activeEmpty := PrioArray.empty_iff (contended.consistent.sound cpu).coherent.1
  change (scheduler.cpuStates cpu).runQueue.active.empty = true ↔
    (scheduler.cpuStates cpu).runQueue.active.queues.Vacant at activeEmpty
  rw [contended.active, onlyBucket_vacant] at activeEmpty
  have activeQueues := contended.active
  have expiredQueues := contended.expired
  obtain ⟨current, active, expired⟩ := rotation
  dsimp only at activeEmpty activeQueues expiredQueues
  cases active with
  | cons next active =>
      refine ⟨next, active, expired, rfl, List.mem_cons_self, ?_⟩
      rw [O1Rq.turned, if_neg (by simp [activeEmpty])]
      exact ⟨activeQueues, expiredQueues⟩
  | nil =>
      cases expired with
      | nil => simp [Rotation.items] at several
      | cons next expired =>
          refine ⟨next, expired, [], rfl, List.mem_cons_self, ?_⟩
          rw [O1Rq.turned, if_pos (by simp [activeEmpty])]
          exact ⟨expiredQueues, activeQueues⟩

end Contended

/-! ## Rounds -/

/-- What the environment chooses in a round. -/
structure RoundInput where
  tick : Int
  later : Int
  started : Int
  picked : Int
  preempted : Int
  agentBarrier : Nat
  seqnum : Nat
  payload : Switchto

namespace RoundInput

/-- The tick, the scheduling call whose commit succeeds, and the message of the
task that was replaced. -/
def events (input : RoundInput) (cpu : CpuId) (prev : TaskPtr) : List Event :=
  [.cpuTick cpu input.tick input.later,
    .o1Schedule cpu input.agentBarrier false input.started input.picked true,
    .taskPreempted prev input.seqnum input.payload input.preempted]

/-- The clock does not go back, and the tick finds the slice used up. -/
structure Expires (input : RoundInput) (clock : Int) (task : O1Task) : Prop where
  ordered : clock ≤ input.tick ∧ input.tick ≤ input.later ∧ input.later ≤ input.started ∧
    input.started ≤ input.picked ∧ input.picked ≤ input.preempted
  exhausted : task.remainingTime - (input.tick - task.runtimeAtLastPick) ≤ 0

end RoundInput

/-- Rounds on one CPU, labelled with the task that is dispatched. The state
carries the latest clock read. -/
def rounds (cpus : List CpuId) (cpu : CpuId) : Machine (O1Scheduler × Int) TaskPtr where
  initial state := state.1 = .init cpus
  step state dispatched next := ∃ prev task input,
    (state.1.cpuStates cpu).current = some prev ∧ state.1.heap.tasks prev = some task ∧
      RoundInput.Expires input state.2 task ∧
      (schedulers cpus).Run state.1 (input.events cpu prev) next.1 ∧
      next.2 = input.preempted ∧ (next.1.cpuStates cpu).current = some dispatched

section Round

variable {cpus : List CpuId} {scheduler : O1Scheduler} {cpu : CpuId} {idx : Fin kNumPrio}
  {rotation : Rotation TaskPtr} {task : O1Task}

/-- The tick and the scheduling call of a round. -/
theorem Contended.switch (contended : Contended scheduler cpu idx rotation)
    (several : 2 ≤ rotation.items.length)
    (allocated : scheduler.heap.tasks rotation.current = some task) {tick : Int} (later : Int)
    (exhausted : task.remainingTime - (tick - task.runtimeAtLastPick) ≤ 0) (agentBarrier : Nat)
    (started picked : Int) :
    ∃ ticked switched rq next rest expired,
      scheduler.cpuTick cpu tick later = .ok ticked ∧
      ticked.o1Schedule cpu agentBarrier false started picked true = .ok switched ∧
      rotation.turn = ⟨next, rest, rotation.current :: expired⟩ ∧ next ≠ rotation.current ∧
      switched.cpuStates cpu = { current := some next, runQueue := rq, preemptCurr := false } ∧
      rq.active.queues = onlyBucket idx rest ∧ rq.expired.queues = onlyBucket idx expired ∧
      switched.heap.tasks rotation.current = some (task.updateRemainingTime false tick later).1 ∧
      ∃ nextTask, switched.heap.tasks next = some nextTask ∧
        nextTask.staticPriority = kBasePrio + idx.val := by
  obtain ⟨next, rest, expired, turn, waits, activeQueues, expiredQueues⟩ := contended.turned several
  have sound : (scheduler.cpuStates cpu).runQueue.Sound scheduler.heap :=
    contended.consistent.sound cpu
  obtain ⟨nextTask, nextAllocated, nextQueued, nextBucket⟩ :=
    sound.queued idx next (contended.contents_idx.symm ▸ waits)
  have different : next ≠ rotation.current := by
    rintro rfl
    exact (List.nodup_cons.mp contended.nodup).1 waits
  have ticking := O1Scheduler.cpuTick_expires later contended.current allocated exhausted
  obtain ⟨ticked, isTicked⟩ : ∃ ticked, (scheduler.put rotation.current
      (task.updateRemainingTime false tick later).1).setCpu cpu
      { scheduler.cpuStates cpu with preemptCurr := true } = ticked := ⟨_, rfl⟩
  rw [isTicked] at ticking
  have tickedCpu : ticked.cpuStates cpu = { scheduler.cpuStates cpu with preemptCurr := true } := by
    simp [← isTicked]
  have tickedHeap : ticked.heap = scheduler.heap.put rotation.current
      (task.updateRemainingTime false tick later).1 := by
    simp [← isTicked]
  have nextTicked : (ticked.heap.note (.entered started)).tasks next = some nextTask := by
    simpa [tickedHeap, different] using nextAllocated
  have front : (scheduler.cpuStates cpu).runQueue.turned.active.queues idx = next :: rest := by
    rw [activeQueues]
    simp [onlyBucket]
  have popping := O1Rq.dequeue_front sound.coherent
    (activeQueues.symm ▸ Contended.onlyBucket_lowest) front nextTicked nextQueued
  have occupied : (scheduler.cpuStates cpu).runQueue.empty = false := by
    rw [← Bool.not_eq_true, O1Rq.empty_iff]
    intro vacant
    have nothing := vacant idx
    rw [contended.contents_idx] at nothing
    rw [nothing] at waits
    exact absurd waits List.not_mem_nil
  have running : (ticked.cpuStates cpu).current = some rotation.current := by
    simp [tickedCpu, contended.current]
  obtain ⟨switched, switching, switchedCpu, switchedHeap⟩ := O1Scheduler.o1Schedule_switches
    agentBarrier picked (by simp [tickedCpu]) running (by simp [tickedCpu, occupied])
    (by rw [tickedCpu]; exact popping) (Function.update_self ..)
  refine ⟨ticked, switched, _, next, rest, expired, ticking, switching, turn, different, switchedCpu,
    ?_, expiredQueues, ?_, ({ nextTask with runState := .kRunnable } : O1Task).onCpu cpu picked,
    ?_, nextBucket⟩
  · simp [PrioArray.shrink, activeQueues, onlyBucket]
  · simp [switchedHeap, tickedHeap, different.symm]
  · simp [switchedHeap]

/-- The message of the replaced task completes the turn. -/
theorem Contended.turn (cpus : List CpuId) (contended : Contended scheduler cpu idx rotation)
    (several : 2 ≤ rotation.items.length)
    (allocated : scheduler.heap.tasks rotation.current = some task) {input : RoundInput}
    {clock : Int} (expires : input.Expires clock task) :
    ∃ ticked switched requeued : O1Scheduler,
      (schedulers cpus).step scheduler (.cpuTick cpu input.tick input.later) ticked ∧
      (schedulers cpus).step ticked
        (.o1Schedule cpu input.agentBarrier false input.started input.picked true) switched ∧
      (∀ after, (schedulers cpus).step switched
          (.taskPreempted rotation.current input.seqnum input.payload input.preempted) after ↔
        requeued.advance rotation.current input.seqnum = .ok after) ∧
      (∃ task', requeued.heap.tasks rotation.current = some task' ∧ task'.seqnum = task.seqnum) ∧
      ∀ after, requeued.advance rotation.current input.seqnum = .ok after →
        Contended after cpu idx rotation.turn := by
  have running := contended.consistent.current_onCpu contended.current allocated
  obtain ⟨ticked, switched, rq, next, rest, expired, ticking, switching, turn, different, switchedCpu,
    activeQueues, expiredQueues, prevStored, nextTask, nextStored, nextBucket⟩ :=
    contended.switch several allocated input.later expires.exhausted input.agentBarrier
      input.started input.picked
  have stillExpired : (task.updateRemainingTime false input.tick input.later).1.remainingTime -
      (input.preempted -
        (task.updateRemainingTime false input.tick input.later).1.runtimeAtLastPick) ≤ 0 := by
    have ordered := expires.ordered
    have exhausted := expires.exhausted
    simp only [O1Task.updateRemainingTime, O1Task.setRuntimeAtLastPick, Bool.false_eq_true, if_false]
    omega
  obtain ⟨requeued, preempting, requeuedCpu, others, task', stored, sameSeqnum⟩ :=
    O1Scheduler.taskPreempted_expires input.payload prevStored running.1 running.2
      (contended.priority task allocated) (by simp [switchedCpu, different]) stillExpired
  have ticks : (schedulers cpus).step scheduler (.cpuTick cpu input.tick input.later) ticked :=
    ticking
  have switches : (schedulers cpus).step ticked
      (.o1Schedule cpu input.agentBarrier false input.started input.picked true) switched := switching
  have dispatched : ∀ after, (schedulers cpus).step switched
      (.taskPreempted rotation.current input.seqnum input.payload input.preempted) after ↔
      requeued.advance rotation.current input.seqnum = .ok after := by
    intro after
    simp only [schedulers, O1Scheduler.dispatch, O1Scheduler.dispatchKnown, prevStored, preempting,
      bind_eq_ok, Except.ok.injEq, exists_eq_left']
  refine ⟨ticked, switched, requeued, ticks, switches, dispatched, ⟨task', stored, sameSeqnum⟩,
    fun after advancing => ?_⟩
  have consistent := dispatch_consistent (dispatch_consistent
    (dispatch_consistent contended.consistent ticks) switches) ((dispatched after).mpr advancing)
  simp only [O1Scheduler.advance, bind_eq_ok, Heap.read_eq_ok, check_eq_ok, Except.ok.injEq]
    at advancing
  obtain ⟨_, _, -, -, rfl⟩ := advancing
  rw [turn]
  refine ⟨consistent, ?_, ?_, ?_, ?_⟩
  · simp [requeuedCpu, switchedCpu]
  · simp [requeuedCpu, switchedCpu, activeQueues]
  · simp [requeuedCpu, switchedCpu, expiredQueues, PrioArray.grow, PrioArray.pushed, onlyBucket]
  · intro found allocated
    rw [O1Scheduler.put_heap, Heap.put_tasks, Function.update_of_ne different, others next different,
      nextStored, Option.some.injEq] at allocated
    rw [← allocated, nextBucket]

/-- A round turns the rotation and dispatches its next task. -/
theorem Contended.round {state next : O1Scheduler × Int} {dispatched : TaskPtr}
    (contended : Contended state.1 cpu idx rotation) (several : 2 ≤ rotation.items.length)
    (moved : (rounds cpus cpu).step state dispatched next) :
    Contended next.1 cpu idx rotation.turn ∧ dispatched = rotation.turn.current := by
  obtain ⟨prev, task, input, current, allocated, expires, run, -, isDispatched⟩ := moved
  obtain rfl : rotation.current = prev := Option.some.inj (contended.current.symm.trans current)
  obtain ⟨ticked, switched, requeued, ticks, switches, requeues, -, turned⟩ :=
    contended.turn cpus several allocated expires
  cases run with
  | cons first rest =>
      cases ticks.symm.trans first
      cases rest with
      | cons second rest =>
          cases switches.symm.trans second
          cases rest with
          | cons third rest =>
              cases rest
              have after := turned _ ((requeues _).mp third)
              exact ⟨after, Option.some.inj (isDispatched.symm.trans after.current)⟩

/-- Another round is always possible. -/
theorem Contended.exists_round (cpus : List CpuId) {state : O1Scheduler × Int}
    (contended : Contended state.1 cpu idx rotation) (several : 2 ≤ rotation.items.length) :
    ∃ next, (rounds cpus cpu).step state rotation.turn.current next := by
  obtain ⟨task, allocated, -⟩ := contended.consistent.current cpu _ contended.current
  obtain ⟨clock, late, ripe⟩ : ∃ clock, state.2 ≤ clock ∧
      task.remainingTime + task.runtimeAtLastPick ≤ clock :=
    ⟨max state.2 (task.remainingTime + task.runtimeAtLastPick), le_max_left _ _, le_max_right _ _⟩
  obtain ⟨input, isInput⟩ : ∃ input : RoundInput,
      input = ⟨clock, clock, clock, clock, clock, 0, task.seqnum + 1, ⟨false, cpu⟩⟩ := ⟨_, rfl⟩
  have expires : input.Expires state.2 task := by
    subst isInput
    exact ⟨⟨late, le_refl _, le_refl _, le_refl _, le_refl _⟩, by dsimp only; omega⟩
  obtain ⟨ticked, switched, requeued, ticks, switches, requeues, ⟨task', stored, sameSeqnum⟩, turned⟩ :=
    contended.turn cpus several allocated expires
  have advances : requeued.advance rotation.current input.seqnum =
      .ok (requeued.put rotation.current { task' with seqnum := input.seqnum }) := by
    simp only [O1Scheduler.advance, bind_eq_ok, Heap.read_eq_ok, check_eq_ok]
    refine ⟨task', stored, (), ?_, rfl⟩
    rw [sameSeqnum, isInput]
    exact Nat.lt_succ_self _
  refine ⟨(_, input.preempted), _, task, input, contended.current, allocated, expires,
    .cons ticks (.cons switches (.cons ((requeues _).mpr advances) (.nil _))), rfl, ?_⟩
  exact (turned _ advances).current

private theorem turn_several (several : 2 ≤ rotation.items.length) :
    2 ≤ rotation.turn.items.length := by
  rw [rotation.turn_perm.length_eq]
  exact several

/-- The dispatches of any number of rounds are those of the rotation. -/
theorem Contended.run {state last : O1Scheduler × Int} {dispatched : List TaskPtr}
    (run : (rounds cpus cpu).Run state dispatched last)
    (contended : Contended state.1 cpu idx rotation) (several : 2 ≤ rotation.items.length) :
    dispatched = rotation.dispatches dispatched.length := by
  induction run generalizing rotation with
  | nil => rfl
  | cons moved _ ih =>
      obtain ⟨turned, rfl⟩ := contended.round several moved
      exact congrArg (_ :: ·) (ih turned (turn_several several))

theorem Contended.exists_run (cpus : List CpuId) {state : O1Scheduler × Int}
    (contended : Contended state.1 cpu idx rotation) (several : 2 ≤ rotation.items.length)
    (count : Nat) : ∃ last, (rounds cpus cpu).Run state (rotation.dispatches count) last := by
  induction count generalizing state rotation with
  | zero => exact ⟨state, .nil _⟩
  | succ count ih =>
      obtain ⟨next, moved⟩ := contended.exists_round cpus several
      obtain ⟨last, run⟩ := ih (contended.round several moved).1 (turn_several several)
      exact ⟨last, .cons moved run⟩

end Round

/-- Every window of as many consecutive dispatches as there are tasks holds each
of them once. -/
def RoundRobin (cpus : List CpuId) (cpu : CpuId) (tasks : List TaskPtr)
    (state : O1Scheduler × Int) : Prop :=
  ∀ dispatched last, (rounds cpus cpu).Run state dispatched last →
    ∀ skipped, skipped + tasks.length ≤ dispatched.length →
      ((dispatched.drop skipped).take tasks.length).Perm tasks

/-- What the rounds dispatch is round-robin exactly when the rotation is. -/
theorem Contended.roundRobin_iff {cpus : List CpuId} {state : O1Scheduler × Int} {cpu : CpuId}
    {idx : Fin kNumPrio} {rotation : Rotation TaskPtr}
    (contended : Contended state.1 cpu idx rotation) (several : 2 ≤ rotation.items.length) :
    RoundRobin cpus cpu rotation.items state ↔
      ∀ skipped, ((Rotation.turn^[skipped] rotation).dispatches rotation.items.length).Perm
        rotation.items := by
  constructor
  · intro fair skipped
    obtain ⟨last, run⟩ := contended.exists_run cpus several
      (skipped + rotation.items.length)
    have window := fair _ last run skipped (by simp)
    rwa [Rotation.take_drop_dispatches _ _ (le_refl _)] at window
  · intro fair dispatched last run skipped fits
    have sequence := contended.run run several
    rw [sequence, Rotation.take_drop_dispatches _ _ fits]
    exact fair skipped

/-- Tasks of equal priority that run until their slices expire take turns exactly
when there are two of them. -/
theorem roundRobin_iff_two {cpus : List CpuId} {state : O1Scheduler × Int} {cpu : CpuId}
    {idx : Fin kNumPrio} {rotation : Rotation TaskPtr}
    (contended : Contended state.1 cpu idx rotation) (several : 2 ≤ rotation.items.length) :
    RoundRobin cpus cpu rotation.items state ↔ rotation.items.length = 2 := by
  rw [contended.roundRobin_iff several]
  exact Rotation.windows_perm_iff contended.nodup several

/-! ## Two tasks and three -/

/-- Tasks of nice 0 arrive on one CPU, and the first is put on it. -/
def gathered (tasks : List TaskPtr) : O1Scheduler :=
  .after [firstCpu] (tasks.map (fun ptr => .taskNew ptr ptr 1 0 true true) ++
    [.o1Schedule firstCpu 1 false 0 0 true])

private theorem gathered_contended (first : TaskPtr) (others : List TaskPtr)
    (current : ((gathered (first :: others)).cpuStates firstCpu).current = some first)
    (active : ∀ idx, ((gathered (first :: others)).cpuStates firstCpu).runQueue.active.queues idx =
      onlyBucket niceZero others idx)
    (expired : ∀ idx, ((gathered (first :: others)).cpuStates firstCpu).runQueue.expired.queues idx =
      onlyBucket niceZero [] idx)
    (priority : ∀ task ∈ (gathered (first :: others)).heap.tasks first,
      task.staticPriority = kBasePrio + niceZero.val) :
    ∃ scheduler, (schedulers [firstCpu]).Reachable scheduler ∧
      Contended scheduler firstCpu niceZero ⟨first, others, []⟩ := by
  have reachable : (schedulers [firstCpu]).Reachable (gathered (first :: others)) :=
    O1Scheduler.after_reachable _ _
  exact ⟨_, reachable, schedulers_consistent reachable, current, funext active, funext expired,
    priority⟩

theorem roundRobin_iff_two_pair :
    ∃ scheduler, (schedulers [firstCpu]).Reachable scheduler ∧
      Contended scheduler firstCpu niceZero ⟨1, [2], []⟩ ∧
      (RoundRobin [firstCpu] firstCpu [1, 2] (scheduler, 0) ↔ [1, 2].length = 2) := by
  obtain ⟨scheduler, reachable, contended⟩ := gathered_contended 1 [2]
    (by decide +kernel) (by decide +kernel) (by decide +kernel) (by decide +kernel)
  exact ⟨scheduler, reachable, contended,
    @roundRobin_iff_two [firstCpu] (scheduler, 0) firstCpu niceZero ⟨1, [2], []⟩ contended (by decide)⟩

/-- Three tasks: the second is dispatched twice before the first comes again. -/
theorem roundRobin_fails_trio :
    ∃ scheduler, (schedulers [firstCpu]).Reachable scheduler ∧
      Contended scheduler firstCpu niceZero ⟨1, [2, 3], []⟩ ∧
      (∃ last, (rounds [firstCpu] firstCpu).Run (scheduler, 0) [2, 3, 2] last) ∧
      ¬ RoundRobin [firstCpu] firstCpu [1, 2, 3] (scheduler, 0) := by
  obtain ⟨scheduler, reachable, contended⟩ := gathered_contended 1 [2, 3]
    (by decide +kernel) (by decide +kernel) (by decide +kernel) (by decide +kernel)
  obtain ⟨last, run⟩ : ∃ last, (rounds [firstCpu] firstCpu).Run (scheduler, 0) [2, 3, 2] last :=
    @Contended.exists_run firstCpu niceZero ⟨1, [2, 3], []⟩ [firstCpu] (scheduler, 0) contended
      (by decide) 3
  refine ⟨scheduler, reachable, contended, ⟨last, run⟩, fun fair => ?_⟩
  have window := fair _ last run 0 (by decide)
  exact absurd window (by decide)

end Ghost.O1
