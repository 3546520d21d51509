import Ghost.O1.Placement

/-!
# Handlers as transfers

Each message handler is a sequence of transfers from a placement with nothing
moving to another. `O1Schedule` is treated apart: it first takes a pending
preemption and then finishes in one of five ways.
-/

set_option autoImplicit false

namespace Ghost.O1

open Lib Relation

abbrev Transfers := ReflTransGen Transfer

theorem Transfers.consistent {before after : Placement} (transfers : Transfers before after)
    (consistent : before.Consistent) : after.Consistent := by
  induction transfers with
  | refl => exact consistent
  | tail _ last ih => exact last.consistent ih

namespace O1Scheduler

variable {scheduler next : O1Scheduler} {cpu : CpuId} {ptr : TaskPtr} {task : O1Task}
  {moving : Option TaskPtr}

/-! ## Updates of a scheduler -/

@[simp] theorem placed_heap : (scheduler.placed moving).heap = scheduler.heap := rfl

@[simp] theorem placed_current : (scheduler.placed moving).current = scheduler.currents := rfl

@[simp] theorem setHeap_cpuStates (heap : Heap) :
    (scheduler.setHeap heap).cpuStates = scheduler.cpuStates := rfl

@[simp] theorem put_cpuStates : (scheduler.put ptr task).cpuStates = scheduler.cpuStates := rfl

@[simp] theorem setCpu_cpuStates (cs : CpuState) :
    (scheduler.setCpu cpu cs).cpuStates = Function.update scheduler.cpuStates cpu cs := rfl

@[simp] theorem setHeap_heap (heap : Heap) : (scheduler.setHeap heap).heap = heap := rfl

@[simp] theorem setHeap_currents (heap : Heap) :
    (scheduler.setHeap heap).currents = scheduler.currents := rfl

@[simp] theorem setHeap_queues (heap : Heap) :
    (scheduler.setHeap heap).queues = scheduler.queues := rfl

@[simp] theorem put_heap : (scheduler.put ptr task).heap = scheduler.heap.put ptr task := rfl

@[simp] theorem put_currents : (scheduler.put ptr task).currents = scheduler.currents := rfl

@[simp] theorem put_queues : (scheduler.put ptr task).queues = scheduler.queues := rfl

@[simp] theorem emit_heap (effect : Effect) : (scheduler.emit effect).heap = scheduler.heap := rfl

@[simp] theorem emit_cpuStates (effect : Effect) :
    (scheduler.emit effect).cpuStates = scheduler.cpuStates := rfl

@[simp] theorem emit_currents (effect : Effect) :
    (scheduler.emit effect).currents = scheduler.currents := rfl

@[simp] theorem emit_queues (effect : Effect) :
    (scheduler.emit effect).queues = scheduler.queues := rfl

@[simp] theorem setCpu_heap (cs : CpuState) : (scheduler.setCpu cpu cs).heap = scheduler.heap := rfl

@[simp] theorem setCpu_currents (cs : CpuState) :
    (scheduler.setCpu cpu cs).currents = Function.update scheduler.currents cpu cs.current := by
  funext other
  by_cases same : other = cpu
  · subst same
    simp [currents, setCpu]
  · simp [currents, setCpu, same]

@[simp] theorem setCpu_queues (cs : CpuState) :
    (scheduler.setCpu cpu cs).queues = Function.update scheduler.queues cpu cs.runQueue := by
  funext other
  by_cases same : other = cpu
  · subst same
    simp [queues, setCpu]
  · simp [queues, setCpu, same]

@[simp] theorem update_currents :
    Function.update scheduler.currents cpu (scheduler.cpuStates cpu).current =
      scheduler.currents := Function.update_eq_self _ _

@[simp] theorem update_queues :
    Function.update scheduler.queues cpu (scheduler.cpuStates cpu).runQueue =
      scheduler.queues := Function.update_eq_self _ _

private theorem placed_pingSwitchto (payload : Switchto) :
    (scheduler.pingSwitchto payload).placed moving = scheduler.placed moving := by
  unfold pingSwitchto
  split <;> rfl

@[simp] theorem cpuStateOf_eq_ok : cpuStateOf task = .ok cpu ↔ task.cpu = cpu.val := by
  have bound := cpu.isLt
  unfold cpuStateOf
  split
  · next inRange =>
      rw [Except.ok.injEq, Fin.ext_iff]
      dsimp only
      omega
  · next outside =>
      simp only [reduceCtorEq, false_iff]
      omega

/-! ## Run queues -/

section RunQueues

variable {heap : Heap} {rq : O1Rq}

private theorem enqueueOn_of_eq
    (enqueues : (scheduler.cpuStates cpu).runQueue.enqueue scheduler.heap ptr = .ok (heap, rq)) :
    scheduler.enqueueOn cpu ptr = .ok ((scheduler.setCpu cpu
      { scheduler.cpuStates cpu with runQueue := rq }).setHeap heap) := by
  simp only [enqueueOn, bind_eq_ok, Except.ok.injEq]
  exact ⟨_, enqueues, rfl⟩

/-- A task with slice left enters the active array. -/
theorem enqueueOn_active {idx : Fin kNumPrio}
    (able : O1Rq.Enqueueable scheduler.heap ptr task idx) (positive : 0 < task.remainingTime) :
    ∃ next, scheduler.enqueueOn cpu ptr = .ok next ∧
      next.cpuStates = Function.update scheduler.cpuStates cpu { scheduler.cpuStates cpu with
        runQueue := { (scheduler.cpuStates cpu).runQueue with
          active := (scheduler.cpuStates cpu).runQueue.active.grow idx ptr task.prioBoost } } ∧
      next.heap = scheduler.heap.put ptr { task with runState := .kQueued } := by
  have enqueues : (scheduler.cpuStates cpu).runQueue.enqueue scheduler.heap ptr = .ok (_, _) :=
    O1Rq.enqueue_eq_ok.mpr ⟨task, idx, able, .inl ⟨positive, rfl, rfl⟩⟩
  exact ⟨_, enqueueOn_of_eq enqueues, rfl, rfl⟩

theorem dequeueOn_of_eq {popped : Option TaskPtr}
    (dequeues : (scheduler.cpuStates cpu).runQueue.dequeue scheduler.heap =
      .ok (heap, rq, popped)) :
    scheduler.dequeueOn cpu = .ok (popped, (scheduler.setCpu cpu
      { scheduler.cpuStates cpu with runQueue := rq }).setHeap heap) := by
  simp only [dequeueOn, bind_eq_ok, Except.ok.injEq]
  exact ⟨_, dequeues, rfl⟩

theorem eraseOn_of_eq
    (erases : (scheduler.cpuStates cpu).runQueue.erase scheduler.heap ptr = .ok (heap, rq)) :
    scheduler.eraseOn cpu ptr = .ok ((scheduler.setCpu cpu
      { scheduler.cpuStates cpu with runQueue := rq }).setHeap heap) := by
  simp only [eraseOn, bind_eq_ok, Except.ok.injEq]
  exact ⟨_, erases, rfl⟩

end RunQueues

private theorem enqueueOn_transfer (allocated : scheduler.heap.tasks ptr = some task)
    (home : task.cpu = cpu.val) (result : scheduler.enqueueOn cpu ptr = .ok next) :
    Transfer (scheduler.placed (some ptr)) (next.placed none) := by
  simp only [enqueueOn, bind_eq_ok, Except.ok.injEq] at result
  obtain ⟨⟨heap, rq⟩, result, rfl⟩ := result
  have transfer := Transfer.enqueue (scheduler.placed (some ptr)) rfl allocated home result
  simpa [placed] using transfer

private theorem eraseOn_transfer (result : scheduler.eraseOn cpu ptr = .ok next) :
    Transfer (scheduler.placed none) (next.placed (some ptr)) := by
  simp only [eraseOn, bind_eq_ok, Except.ok.injEq] at result
  obtain ⟨⟨heap, rq⟩, result, rfl⟩ := result
  have transfer := Transfer.erase (scheduler.placed none) rfl result
  simpa [placed] using transfer

private theorem eraseOn_stored (result : scheduler.eraseOn cpu ptr = .ok next)
    (allocated : scheduler.heap.tasks ptr = some task) :
    next.heap.tasks ptr = some { task with runState := .kRunnable } := by
  simp only [eraseOn, bind_eq_ok, Except.ok.injEq] at result
  obtain ⟨⟨heap, rq⟩, result, rfl⟩ := result
  obtain ⟨task', -, allocated', -, -, rfl, -⟩ := O1Rq.erase_eq_ok.mp result
  obtain rfl : task = task' := Option.some.inj (allocated.symm.trans allocated')
  exact Function.update_self ..

/-! ## Helpers of the handlers -/

private theorem stays_of_runnable {task' : O1Task} (runnable : task.runState = .kRunnable)
    (runState : task'.runState = task.runState) (remaining : task'.remainingTime = task.remainingTime)
    (lastPick : task'.runtimeAtLastPick = task.runtimeAtLastPick) : task.Stays task' :=
  ⟨runState, .inl runnable, by simp [runnable], remaining, lastPick⟩

/-- `TaskOffCpu` moves the task, from its CPU or, after a switchto, from blocked. -/
theorem taskOffCpu_transfer {blocked fromSwitchto : Bool} {now : Int}
    (result : scheduler.taskOffCpu ptr blocked fromSwitchto now = .ok next) :
    Transfer (scheduler.placed none) (next.placed (if blocked then none else some ptr)) := by
  simp only [taskOffCpu, bind_eq_ok, Heap.read_eq_ok, cpuStateOf_eq_ok] at result
  obtain ⟨task, allocated, cpu, home, result⟩ := result
  split at result
  · next onCpu =>
      have transfer := Transfer.offCpu (scheduler.placed none) now blocked
        allocated onCpu home rfl
      simp only [O1Task.updateRemainingTime, if_true, Bool.false_eq_true, if_false,
        Except.ok.injEq] at result
      subst result
      by_cases same : (scheduler.cpuStates cpu).current = some ptr
      · rw [if_pos (show (scheduler.placed none).current cpu = some ptr from same)] at transfer
        simpa [placed, O1Task.updateRemainingTime, same] using transfer
      · rw [if_neg (show (scheduler.placed none).current cpu ≠ some ptr from same)] at transfer
        simpa [placed, O1Task.updateRemainingTime, same] using transfer
  · next notOnCpu =>
      simp only [bind_eq_ok, check_eq_ok, Except.ok.injEq] at result
      obtain ⟨-, -, -, isBlocked, rfl⟩ := result
      cases blocked with
      | true =>
          exact .adjust _ allocated
            ⟨isBlocked.symm, .inr rfl, fun _ => rfl, rfl, rfl⟩
      | false =>
          exact .wake _ allocated isBlocked rfl rfl rfl

private theorem taskOffCpu_cpu {task' : O1Task} {blocked fromSwitchto : Bool} {now : Int}
    (result : scheduler.taskOffCpu ptr blocked fromSwitchto now = .ok next)
    (allocated : scheduler.heap.tasks ptr = some task)
    (allocated' : next.heap.tasks ptr = some task') : task'.cpu = task.cpu := by
  simp only [taskOffCpu, bind_eq_ok, Heap.read_eq_ok, cpuStateOf_eq_ok] at result
  obtain ⟨found, stored, cpu, home, result⟩ := result
  obtain rfl : task = found := Option.some.inj (allocated.symm.trans stored)
  split at result
  · cases result
    simp only [setHeap_heap, Heap.note_tasks, Heap.put_tasks, Function.update_self,
      Option.some.injEq] at allocated'
    rw [← allocated']
    rfl
  · simp only [bind_eq_ok, check_eq_ok, Except.ok.injEq] at result
    obtain ⟨-, -, -, -, rfl⟩ := result
    simp only [put_heap, Heap.put_tasks, Function.update_self, Option.some.injEq] at allocated'
    rw [← allocated']

theorem assignCpu_placed {cpus : List CpuId} (result : scheduler.assignCpu cpus = .ok (cpu, next)) :
    next.placed moving = scheduler.placed moving := by
  unfold assignCpu at result
  dsimp only at result
  split at result
  · cases result
    rfl
  · cases result

private theorem migrate_transfers {seqnum : Nat} {associated : Bool}
    (result : scheduler.migrate ptr cpu seqnum associated = .ok next) :
    Transfers (scheduler.placed (some ptr)) (next.placed none) := by
  simp only [migrate, bind_eq_ok, Heap.read_eq_ok, check_eq_ok, Except.ok.injEq] at result
  obtain ⟨task, allocated, -, runnable, -, -, -, -, queued, result, rfl⟩ := result
  have placing : Transfer (scheduler.placed (some ptr))
      ((scheduler.put ptr { task with cpu := cpu.val }).placed (some ptr)) :=
    .adjust _ allocated
      (stays_of_runnable runnable rfl rfl rfl)
  have queueing := enqueueOn_transfer (Function.update_self ..) rfl result
  exact .tail (.single placing) queueing

/-- Requeueing a task that has just got off its CPU. -/
theorem requeue_transfers {task' : O1Task}
    (result : (scheduler.put ptr task').enqueueOn cpu ptr = .ok next)
    (allocated : scheduler.heap.tasks ptr = some task) (stays : task.Stays task')
    (home : task'.cpu = cpu.val) :
    Transfers (scheduler.placed (some ptr)) (next.placed none) := by
  have adjusting : Transfer (scheduler.placed (some ptr))
      ((scheduler.put ptr task').placed (some ptr)) :=
    .adjust _ allocated stays
  exact .tail (.single adjusting) (enqueueOn_transfer (by simp [put]) home result)

private theorem advance_transfer {seqnum : Nat} (result : scheduler.advance ptr seqnum = .ok next) :
    Transfer (scheduler.placed none) (next.placed none) := by
  simp only [advance, bind_eq_ok, Heap.read_eq_ok, check_eq_ok, Except.ok.injEq] at result
  obtain ⟨task, allocated, -, -, rfl⟩ := result
  exact .adjust _ allocated
    ⟨rfl, .inr rfl, fun _ => rfl, rfl, rfl⟩

/-! ## Task messages -/

private theorem taskNew_transfers {cpus : List CpuId} {gtid seqnum : Nat} {nice : Int}
    {runnable associated : Bool} (fresh : scheduler.heap.tasks ptr = none)
    (result : (scheduler.put ptr { gtid := gtid }).taskNew cpus ptr seqnum nice runnable associated =
      .ok next) :
    Transfers (scheduler.placed none) (next.placed none) := by
  have allocation : ∀ task : O1Task, (scheduler.heap.put ptr { gtid := gtid }).putGranted ptr task =
      scheduler.heap.putGranted ptr task := by
    intro task
    simp [Heap.putGranted, Heap.put, Heap.note]
  simp only [taskNew, bind_eq_ok, Heap.read_eq_ok] at result
  obtain ⟨task, allocated, result⟩ := result
  split at result
  · simp only [bind_eq_ok] at result
    obtain ⟨⟨cpu, assigned⟩, assignment, result⟩ := result
    have admission := Transfer.arrive (scheduler.placed none) { task with
      seqnum := seqnum, runState := .kRunnable, staticPriority := 120 + nice } fresh rfl (.inr rfl)
    refine .trans (.single admission) ?_
    have migration := migrate_transfers result
    rw [assignCpu_placed assignment] at migration
    simp only [put, setHeap_heap, allocation] at migration
    exact migration
  · rw [Except.ok.injEq] at result
    subst result
    have admission := Transfer.arrive (scheduler.placed none) { task with
      seqnum := seqnum, runState := .kBlocked, staticPriority := 120 + nice } fresh rfl (.inl rfl)
    simp only [put, setHeap_heap, allocation]
    exact .single admission

private theorem taskRunnable_transfers {cpus : List CpuId} {seqnum : Nat}
    {deferrable associated : Bool}
    (result : scheduler.taskRunnable cpus ptr seqnum deferrable associated = .ok next) :
    Transfers (scheduler.placed none) (next.placed none) := by
  simp only [taskRunnable, bind_eq_ok, Heap.read_eq_ok, check_eq_ok] at result
  obtain ⟨task, allocated, -, blocked, result⟩ := result
  have waking : Transfer (scheduler.placed none) ((scheduler.put ptr { task with
      runState := .kRunnable, prioBoost := !deferrable }).placed (some ptr)) :=
    .wake _ allocated blocked rfl rfl rfl
  refine .trans (.single waking) ?_
  split at result
  · simp only [bind_eq_ok] at result
    obtain ⟨⟨cpu, assigned⟩, assignment, result⟩ := result
    rw [← assignCpu_placed assignment]
    exact migrate_transfers result
  · simp only [bind_eq_ok, cpuStateOf_eq_ok] at result
    obtain ⟨cpu, home, result⟩ := result
    exact .single (enqueueOn_transfer (Function.update_self ..) home result)

private theorem taskDeparted_transfers {payload : Switchto} {now : Int}
    (result : scheduler.taskDeparted ptr payload now = .ok next)
    (consistent : (scheduler.placed none).Consistent) :
    Transfers (scheduler.placed none) (next.placed none) := by
  simp only [taskDeparted, bind_eq_ok, Heap.read_eq_ok, Except.ok.injEq] at result
  obtain ⟨task, allocated, taken, result, rfl⟩ := result
  have freed : ∀ {moving}, (taken.placed moving).Consistent →
      (∃ task, taken.heap.tasks ptr = some task ∧ task.runState = .kBlocked ∧ moving = none) ∨
        moving = some ptr →
      Transfer (taken.placed moving) (({ taken.pingSwitchto payload with
        heap := (taken.pingSwitchto payload).heap.free ptr } : O1Scheduler).placed none) := by
    intro moving consistent reason
    have step : ∀ task, taken.heap.tasks ptr = some task →
        task.runState = .kBlocked ∧ moving = none ∨ moving = some ptr →
        Transfer (taken.placed moving) { taken.placed moving with
          heap := taken.heap.free ptr, moving := none } :=
      fun task allocated reason => .free _ allocated reason
    have same : ({ taken.pingSwitchto payload with
        heap := (taken.pingSwitchto payload).heap.free ptr } : O1Scheduler).placed none =
        { taken.placed moving with heap := taken.heap.free ptr, moving := none } := by
      unfold pingSwitchto
      split <;> rfl
    rw [same]
    rcases reason with ⟨task, allocated, blocked, rest⟩ | moves
    · exact step task allocated (.inl ⟨blocked, rest⟩)
    · obtain ⟨task, allocated, -⟩ := (consistent.moving ptr).mp moves
      exact step task allocated (.inr moves)
  split at result
  · have leaving := taskOffCpu_transfer result
    exact .tail (.single leaving) (freed (leaving.consistent consistent) (.inr rfl))
  · split at result
    · simp only [bind_eq_ok, cpuStateOf_eq_ok] at result
      obtain ⟨cpu, home, result⟩ := result
      have erasing := eraseOn_transfer result
      exact .tail (.single erasing) (freed (erasing.consistent consistent) (.inr rfl))
    · simp only [bind_eq_ok, check_eq_ok, Except.ok.injEq] at result
      obtain ⟨-, blocked, rfl⟩ := result
      exact .single (freed consistent (.inl ⟨task, allocated, blocked, rfl⟩))

private theorem taskDead_transfer (result : scheduler.taskDead ptr = .ok next) :
    Transfer (scheduler.placed none) (next.placed none) := by
  simp only [taskDead, bind_eq_ok, Heap.read_eq_ok, check_eq_ok, Except.ok.injEq] at result
  obtain ⟨task, allocated, -, blocked, rfl⟩ := result
  exact .free _ allocated (.inl ⟨blocked, rfl⟩)

private theorem taskYield_transfers {payload : Switchto} {now : Int}
    (result : scheduler.taskYield ptr payload now = .ok next) :
    Transfers (scheduler.placed none) (next.placed none) := by
  simp only [taskYield, bind_eq_ok, Heap.read_eq_ok, cpuStateOf_eq_ok, Except.ok.injEq] at result
  obtain ⟨taken, leaving, task, allocated, cpu, home, queued, queueing, rfl⟩ := result
  rw [placed_pingSwitchto]
  exact .tail (.single (taskOffCpu_transfer leaving)) (enqueueOn_transfer allocated home queueing)

private theorem taskBlocked_transfer {payload : Switchto} {now : Int}
    (result : scheduler.taskBlocked ptr payload now = .ok next) :
    Transfer (scheduler.placed none) (next.placed none) := by
  simp only [taskBlocked, bind_eq_ok, Except.ok.injEq] at result
  obtain ⟨taken, leaving, rfl⟩ := result
  rw [placed_pingSwitchto]
  exact taskOffCpu_transfer leaving

private theorem taskPreempted_transfers {payload : Switchto} {now : Int}
    (result : scheduler.taskPreempted ptr payload now = .ok next) :
    Transfers (scheduler.placed none) (next.placed none) := by
  simp only [taskPreempted, bind_eq_ok, Heap.read_eq_ok, cpuStateOf_eq_ok, Except.ok.injEq] at result
  obtain ⟨taken, leaving, task, allocated, cpu, home, queued, queueing, rfl⟩ := result
  rw [placed_pingSwitchto]
  exact .trans (.single (taskOffCpu_transfer leaving)) (requeue_transfers queueing allocated
    ⟨rfl, .inr rfl, fun _ => rfl, rfl, rfl⟩ home)

theorem taskPriorityChanged_transfers {nice : Int}
    (result : scheduler.taskPriorityChanged ptr nice = .ok next)
    (consistent : (scheduler.placed none).Consistent) :
    Transfers (scheduler.placed none) (next.placed none) := by
  simp only [taskPriorityChanged, bind_eq_ok, Heap.read_eq_ok] at result
  obtain ⟨task, allocated, result⟩ := result
  split at result
  · next queued =>
      simp only [bind_eq_ok, Heap.read_eq_ok, cpuStateOf_eq_ok] at result
      obtain ⟨cpu, home, erased, erasing, task', allocated', queueing⟩ := result
      have leaving := eraseOn_transfer erasing
      have runnable := (leaving.consistent consistent).moving_runnable rfl allocated'
      have home' : task'.cpu = cpu.val := by
        rw [eraseOn_stored erasing allocated, Option.some.injEq] at allocated'
        rw [← allocated', home]
      exact .trans (.single leaving) (requeue_transfers queueing allocated'
        (stays_of_runnable runnable rfl rfl rfl) home')
  · next notQueued =>
      rw [Except.ok.injEq] at result
      subst result
      exact .single (.adjust _ allocated
        ⟨rfl, .inr rfl, fun queued => absurd queued notQueued, rfl, rfl⟩)

end O1Scheduler

/-! ## Ticks and scheduling -/

/-- What a tick does. -/
inductive Tick (cpu : CpuId) (now later : Int) (place : Placement) : Placement → Prop
  | idle : place.current cpu = none → Tick cpu now later place place
  | charge {ptr : TaskPtr} {task : O1Task} :
      place.current cpu = some ptr → place.heap.tasks ptr = some task →
      Tick cpu now later place
        { place with heap := place.heap.put ptr (task.updateRemainingTime false now later).1 }

/-- What `O1Schedule` does about `preempt_curr`. -/
inductive Preemption (cpu : CpuId) (preemptCurr : Bool) (place : Placement) : Placement → Prop
  | keep : preemptCurr = false ∨ place.current cpu = none → Preemption cpu preemptCurr place place
  | drop {prev : TaskPtr} :
      preemptCurr = true → place.current cpu = some prev → ¬ (place.queue cpu).contents.Vacant →
      Preemption cpu preemptCurr place
        { place with current := Function.update place.current cpu none }
  | renew {prev : TaskPtr} {task : O1Task} :
      preemptCurr = true → place.current cpu = some prev → (place.queue cpu).contents.Vacant →
      place.heap.tasks prev = some task →
      Preemption cpu preemptCurr place { place with heap := place.heap.putGranted prev task }

/-- How `O1Schedule` ends after that. -/
inductive Finish (cpu : CpuId) (prioBoost committed : Bool) (now : Int) (place : Placement) :
    Placement → Prop
  | yield :
      prioBoost = true ∨ place.current cpu = none ∧ (place.queue cpu).contents.Vacant →
      Finish cpu prioBoost committed now place place
  | switch {ptr : TaskPtr} {task : O1Task} {heap : Heap} {rq : O1Rq} :
      prioBoost = false → committed = true → place.current cpu = none →
      (place.queue cpu).dequeue place.heap = .ok (heap, rq, some ptr) →
      heap.tasks ptr = some task →
      Finish cpu prioBoost committed now place
        { place with
          heap := (heap.put ptr (task.onCpu cpu now)).note (.onCpu ptr now)
          current := Function.update place.current cpu (some ptr)
          queue := Function.update place.queue cpu rq }
  | requeue {ptr : TaskPtr} {task : O1Task} {heap heap' : Heap} {rq rq' : O1Rq} :
      prioBoost = false → committed = false → place.current cpu = none →
      (place.queue cpu).dequeue place.heap = .ok (heap, rq, some ptr) →
      heap.tasks ptr = some task →
      rq.enqueue (heap.put ptr { task with prioBoost := true }) ptr = .ok (heap', rq') →
      Finish cpu prioBoost committed now place
        { place with heap := heap', queue := Function.update place.queue cpu rq' }
  | recommit {ptr : TaskPtr} {task : O1Task} :
      prioBoost = false → committed = true → place.current cpu = some ptr →
      place.heap.tasks ptr = some task →
      Finish cpu prioBoost committed now place
        { place with heap := (place.heap.put ptr (task.onCpu cpu now)).note (.onCpu ptr now) }
  | evict {after : Placement} :
      prioBoost = false → committed = false → place.current cpu ≠ none → Transfers place after →
      Finish cpu prioBoost committed now place after

namespace O1Scheduler

variable {scheduler next : O1Scheduler} {cpu : CpuId} {ptr : TaskPtr} {task : O1Task}

private theorem cpuTick_tick {now later : Int}
    (result : scheduler.cpuTick cpu now later = .ok next) :
    Tick cpu now later (scheduler.placed none) (next.placed none) := by
  unfold cpuTick at result
  dsimp only at result
  split at result
  · next idle =>
      cases result
      exact .idle idle
  · next ptr current =>
      simp only [bind_eq_ok, Heap.read_eq_ok] at result
      obtain ⟨task, allocated, result⟩ := result
      have charge : Tick cpu now later (scheduler.placed none) _ := .charge current allocated
      split at result
      · cases result
        simpa [placed] using charge
      · cases result
        exact charge

theorem takePreemption_preemption (result : scheduler.takePreemption cpu = .ok next) :
    Preemption cpu (scheduler.cpuStates cpu).preemptCurr (scheduler.placed none)
      (next.placed none) := by
  unfold takePreemption at result
  dsimp only at result
  split at result
  · next preempt =>
      split at result
      · next idle =>
          cases result
          have keep : Preemption cpu (scheduler.cpuStates cpu).preemptCurr (scheduler.placed none) _ :=
            .keep (.inr idle)
          simpa [placed] using keep
      · next prev current =>
          split at result
          · next empty =>
              simp only [bind_eq_ok, Heap.read_eq_ok, Except.ok.injEq] at result
              obtain ⟨task, allocated, rfl⟩ := result
              have renew : Preemption cpu _ (scheduler.placed none) _ :=
                .renew preempt current (O1Rq.empty_iff.mp empty) allocated
              simpa [placed] using renew
          · next occupied =>
              cases result
              have drop : Preemption cpu _ (scheduler.placed none) _ :=
                .drop preempt current (O1Rq.empty_iff.not.mp occupied)
              simpa [placed] using drop
  · next none =>
      cases result
      exact .keep (.inl (by simpa using none))

/-- A commit of the current task. -/
theorem commitCurrent_finish {agentBarrier : Nat} {now : Int} {committed : Bool}
    (current : scheduler.currents cpu = some ptr)
    (consistent : (scheduler.placed none).Consistent)
    (result : scheduler.commitNext cpu ptr agentBarrier now committed = .ok next) :
    Finish cpu false committed now (scheduler.placed none) (next.placed none) := by
  simp only [commitNext, bind_eq_ok, Heap.read_eq_ok] at result
  obtain ⟨task, allocated, result⟩ := result
  split at result
  · next committed =>
      simp only [taskOnCpu, bind_eq_ok, Heap.read_eq_ok, Except.ok.injEq, emit_heap] at result
      obtain ⟨task', allocated', rfl⟩ := result
      subst committed
      have recommit : Finish cpu false true now (scheduler.placed none) _ :=
        .recommit rfl rfl current allocated'
      have kept : Function.update scheduler.currents cpu (some ptr) = scheduler.currents := by
        rw [← current, Function.update_eq_self]
      simpa [placed, kept] using recommit
  · next failed =>
      rw [if_pos (show (((scheduler.emit _).emit _).cpuStates cpu).current = some ptr from current)]
        at result
      simp only [bind_eq_ok, Heap.read_eq_ok] at result
      obtain ⟨taken, leaving, task', allocated', queueing⟩ := result
      have left : Transfer (scheduler.placed none) (taken.placed (some ptr)) :=
        taskOffCpu_transfer leaving
      have runnable := (left.consistent consistent).moving_runnable rfl allocated'
      have home := (consistent.current_onCpu current allocated).2
      have home' := taskOffCpu_cpu leaving allocated allocated'
      exact .evict rfl (by simpa using failed) (by simp [current])
        (.trans (.single left) (requeue_transfers queueing allocated'
          (stays_of_runnable runnable rfl rfl rfl) (home'.trans home)))

/-- A commit of a task that was just dequeued. -/
theorem commitDequeued_finish {picked : O1Scheduler} {agentBarrier : Nat} {now : Int}
    {committed : Bool} (idle : scheduler.currents cpu = none)
    (picking : scheduler.dequeueOn cpu = .ok (some ptr, picked))
    (result : picked.commitNext cpu ptr agentBarrier now committed = .ok next) :
    Finish cpu false committed now (scheduler.placed none) (next.placed none) := by
  simp only [dequeueOn, bind_eq_ok, Except.ok.injEq, Prod.mk.injEq] at picking
  obtain ⟨⟨heap, rq, popped⟩, popping, rfl, rfl⟩ := picking
  simp only [commitNext, bind_eq_ok, Heap.read_eq_ok] at result
  obtain ⟨task, allocated, result⟩ := result
  split at result
  · next committed =>
      simp only [taskOnCpu, bind_eq_ok, Heap.read_eq_ok, Except.ok.injEq, emit_heap] at result
      obtain ⟨task', allocated', rfl⟩ := result
      have switch : Finish cpu false _ now (scheduler.placed none) _ :=
        .switch rfl committed idle popping allocated'
      simpa [placed] using switch
  · next failed =>
      have notCurrent : (scheduler.cpuStates cpu).current ≠ some ptr := by
        rw [show (scheduler.cpuStates cpu).current = none from idle]
        simp
      rw [if_neg (by simpa using notCurrent)] at result
      simp only [bind_eq_ok, Heap.read_eq_ok, Except.ok.injEq] at result
      obtain ⟨_, rfl, task', allocated', queueing⟩ := result
      simp only [enqueueOn, bind_eq_ok, Except.ok.injEq] at queueing
      obtain ⟨⟨heap', rq'⟩, pushing, rfl⟩ := queueing
      have pushed : rq.enqueue (heap.put ptr { task' with prioBoost := true }) ptr =
          .ok (heap', rq') := by simpa [put, setHeap, emit, setCpu] using pushing
      have requeue : Finish cpu false committed now (scheduler.placed none) _ :=
        .requeue rfl (by simpa using failed) idle popping allocated' pushed
      simpa [placed] using requeue

/-- `O1Schedule` takes a pending preemption, then finishes. -/
theorem o1Schedule_finish {agentBarrier : Nat} {prioBoost committed : Bool} {started now : Int}
    (result : scheduler.o1Schedule cpu agentBarrier prioBoost started now committed = .ok next) :
    ∃ taken : O1Scheduler,
      Preemption cpu (scheduler.cpuStates cpu).preemptCurr
        { scheduler.placed none with heap := scheduler.heap.note (.entered started) }
        (taken.placed none) ∧
      ((taken.placed none).Consistent →
        Finish cpu prioBoost committed now (taken.placed none) (next.placed none)) := by
  simp only [o1Schedule, bind_eq_ok] at result
  obtain ⟨taken, taking, ⟨picked?, picked⟩, picking, result⟩ := result
  refine ⟨taken, takePreemption_preemption taking, fun consistent => ?_⟩
  unfold pickNext at picking
  split at picking
  · next boosted =>
      cases picking
      cases result
      exact .yield (.inl boosted)
  · next notBoosted =>
      rw [Bool.not_eq_true] at notBoosted
      subst notBoosted
      split at picking
      · next ptr current =>
          cases picking
          exact commitCurrent_finish current consistent result
      · next idle =>
          cases picked? with
          | some ptr => exact commitDequeued_finish idle picking result
          | none =>
              cases result
              simp only [dequeueOn, bind_eq_ok, Except.ok.injEq, Prod.mk.injEq] at picking
              obtain ⟨⟨heap, rq, popped⟩, popping, rfl, rfl⟩ := picking
              rcases (consistent.sound cpu).dequeue popping with ⟨-, vacant, rfl, rfl⟩ |
                ⟨_, _, _, impossible, -⟩
              · have yield : Finish cpu false committed now (taken.placed none) _ :=
                  .yield (.inr ⟨idle, vacant⟩)
                simpa [placed] using yield
              · cases impossible

end O1Scheduler

/-! ## Every step -/

section Consistency

variable {place after : Placement} {cpu : CpuId}

/-- A task that stays on its CPU may be rewritten. -/
private theorem rewriteCurrent (consistent : place.Consistent) {ptr : TaskPtr} {task task' : O1Task}
    {heap : Heap} (current : place.current cpu = some ptr)
    (allocated : place.heap.tasks ptr = some task)
    (stored : heap.tasks = Function.update place.heap.tasks ptr (some task'))
    (onCpu : task'.runState = .kOnCpu) (home : task'.cpu = cpu.val) :
    ({ place with heap := heap } : Placement).Consistent := by
  have running := consistent.current_onCpu current allocated
  refine consistent.store rfl stored (consistent.outside allocated (by simp [running.1])) ?_ ?_ ?_ ?_
  · rintro _ ⟨⟩
    simp [onCpu]
  · intro other ptr' current'
    by_cases same : ptr' = ptr
    · subst same
      have home' := (consistent.current_onCpu current' allocated).2
      exact .inr ⟨rfl, task', rfl, onCpu, by omega⟩
    · exact .inl ⟨same, current'⟩
  · exact fun _ _ => .rfl
  · simp only [Option.some.injEq, exists_eq_left', onCpu, reduceCtorEq, iff_false]
    intro moves
    simp [consistent.moving_runnable moves allocated] at running

theorem Tick.consistent {now later : Int} (tick : Tick cpu now later place after)
    (consistent : place.Consistent) : after.Consistent := by
  cases tick with
  | idle => exact consistent
  | charge current allocated =>
      have running := consistent.current_onCpu current allocated
      exact rewriteCurrent consistent current allocated rfl running.1 running.2

theorem Preemption.consistent {preemptCurr : Bool} (taking : Preemption cpu preemptCurr place after)
    (consistent : place.Consistent) : after.Consistent := by
  cases taking with
  | keep => exact consistent
  | drop =>
      refine { consistent with current := fun other ptr current => ?_ }
      by_cases same : other = cpu
      · subst same
        simp at current
      · exact consistent.current other ptr (by simpa [same] using current)
  | renew _ current _ allocated =>
      have running := consistent.current_onCpu current allocated
      exact rewriteCurrent consistent current allocated rfl running.1 running.2

/-- A dequeued task that goes straight back. -/
theorem requeueDequeued_transfers {ptr : TaskPtr} {task : O1Task} {heap heap' : Heap}
    {rq rq' : O1Rq} (consistent : place.Consistent) (settled : place.moving = none)
    (popping : (place.queue cpu).dequeue place.heap = .ok (heap, rq, some ptr))
    (allocated : heap.tasks ptr = some task)
    (pushing : rq.enqueue (heap.put ptr { task with prioBoost := true }) ptr = .ok (heap', rq')) :
    Transfers place { place with heap := heap', queue := Function.update place.queue cpu rq' } := by
  have picking := Transfer.dequeue place settled popping
  rcases (consistent.sound cpu).dequeue popping with ⟨nothing, -⟩ |
    ⟨_, before, idx, same, stored, queued, rfl, -, -, gains⟩
  · cases nothing
  · cases same
    have home := consistent.home cpu idx ptr before (gains.mem_iff.mpr (.inr ⟨rfl, rfl⟩)) stored
    have stays : task.Stays { task with prioBoost := true } :=
      ⟨rfl, .inr rfl, fun _ => rfl, rfl, rfl⟩
    have boosting := Transfer.adjust { place with
      heap := place.heap.put ptr { before with runState := .kRunnable }
      queue := Function.update place.queue cpu rq
      moving := some ptr } allocated stays
    simp only [Heap.put_tasks, Function.update_self, Option.some.injEq] at allocated
    subst allocated
    have pushed : (Function.update place.queue cpu rq cpu).enqueue
        ((place.heap.put ptr { before with runState := .kRunnable }).put ptr
          { before with runState := .kRunnable, prioBoost := true }) ptr = .ok (heap', rq') := by
      rw [Function.update_self]
      exact pushing
    have queueing := Transfer.enqueue { place with
      heap := (place.heap.put ptr { before with runState := .kRunnable }).put ptr
        { before with runState := .kRunnable, prioBoost := true }
      queue := Function.update place.queue cpu rq
      moving := some ptr } rfl (Function.update_self ..) home pushed
    have back := ReflTransGen.tail (.tail (.single picking) boosting) queueing
    simpa [settled] using back

/-- Only the commit of the current task is not a sequence of transfers. -/
theorem Finish.transfers_or_recommit {prioBoost committed : Bool} {now : Int}
    (finish : Finish cpu prioBoost committed now place after) (consistent : place.Consistent)
    (settled : place.moving = none) :
    Transfers place after ∨ prioBoost = false ∧ committed = true ∧ ∃ ptr task,
      place.current cpu = some ptr ∧ place.heap.tasks ptr = some task ∧
      after = { place with heap := (place.heap.put ptr (task.onCpu cpu now)).note (.onCpu ptr now) } := by
  cases finish with
  | yield => exact .inl .refl
  | @switch ptr task heap rq _ _ idle popping allocated =>
      have picking := Transfer.dequeue place settled popping
      have running := Transfer.onCpu { place with
        heap := heap
        queue := Function.update place.queue cpu rq
        moving := some ptr } now rfl allocated idle
      have switched := ReflTransGen.tail (.single picking) running
      exact .inl (by simpa [settled] using switched)
  | requeue _ _ _ popping allocated pushing =>
      exact .inl (requeueDequeued_transfers consistent settled popping allocated pushing)
  | recommit boost commits current allocated =>
      exact .inr ⟨boost, commits, _, _, current, allocated, rfl⟩
  | evict _ _ _ transfers => exact .inl transfers

theorem Finish.consistent {prioBoost committed : Bool} {now : Int}
    (finish : Finish cpu prioBoost committed now place after) (consistent : place.Consistent)
    (settled : place.moving = none) : after.Consistent := by
  rcases finish.transfers_or_recommit consistent settled with
    transfers | ⟨-, -, ptr, task, current, allocated, rfl⟩
  · exact transfers.consistent consistent
  · exact rewriteCurrent consistent current allocated rfl rfl rfl

theorem Placement.Consistent.note (consistent : place.Consistent) (entry : Accounting) :
    ({ place with heap := place.heap.note entry } : Placement).Consistent :=
  { consistent with
    sound := fun cpu => (consistent.sound cpu).congr fun _ _ _ task allocated =>
      ⟨task, allocated, rfl, rfl⟩ }

end Consistency

namespace O1Scheduler

variable {scheduler next : O1Scheduler} {cpus : List CpuId}

private theorem dispatchKnown_transfers {ptr : TaskPtr} {handled : Except Fault O1Scheduler}
    {seqnum : Option Nat} (result : scheduler.dispatchKnown ptr handled seqnum = .ok next)
    (transfers : ∀ middle, handled = .ok middle →
      Transfers (scheduler.placed none) (middle.placed none)) :
    Transfers (scheduler.placed none) (next.placed none) := by
  unfold dispatchKnown at result
  split at result
  · cases result
    exact .refl
  · simp only [bind_eq_ok] at result
    obtain ⟨middle, handling, result⟩ := result
    cases seqnum with
    | none =>
        cases result
        exact transfers next handling
    | some seqnum => exact .tail (transfers middle handling) (advance_transfer result)

/-- What one event does to a consistent scheduler. -/
inductive Does (scheduler next : O1Scheduler) : Event → Prop
  | message {event : Event} :
      event.isMessage = true →
      Transfers (scheduler.placed none) (next.placed none) → Does scheduler next event
  | tick {cpu : CpuId} {now later : Int} :
      Tick cpu now later (scheduler.placed none) (next.placed none) →
      Does scheduler next (.cpuTick cpu now later)
  | schedule {cpu : CpuId} {agentBarrier : Nat} {prioBoost committed : Bool} {started now : Int}
      (taken : O1Scheduler) :
      Preemption cpu (scheduler.cpuStates cpu).preemptCurr
        { scheduler.placed none with heap := scheduler.heap.note (.entered started) }
        (taken.placed none) →
      Finish cpu prioBoost committed now (taken.placed none) (next.placed none) →
      Does scheduler next (.o1Schedule cpu agentBarrier prioBoost started now committed)

/-- Every event does one of these. -/
theorem dispatch_does {event : Event} (consistent : (scheduler.placed none).Consistent)
    (result : scheduler.dispatch cpus event = .ok next) : Does scheduler next event := by
  unfold dispatch at result
  cases event with
  | taskNew ptr gtid seqnum nice runnable associated =>
      dsimp only at result
      split at result
      · cases result
        exact .message rfl .refl
      · next fresh => exact .message rfl (taskNew_transfers fresh result)
  | taskRunnable ptr seqnum deferrable associated =>
      exact .message rfl (dispatchKnown_transfers result fun _ => taskRunnable_transfers)
  | taskDeparted ptr payload now =>
      exact .message rfl (dispatchKnown_transfers result fun _ handling =>
        taskDeparted_transfers handling consistent)
  | taskDead ptr =>
      exact .message rfl (dispatchKnown_transfers result fun _ handling =>
        .single (taskDead_transfer handling))
  | taskYield ptr seqnum payload now =>
      exact .message rfl (dispatchKnown_transfers result fun _ => taskYield_transfers)
  | taskBlocked ptr seqnum payload now =>
      exact .message rfl (dispatchKnown_transfers result fun _ handling =>
        .single (taskBlocked_transfer handling))
  | taskPreempted ptr seqnum payload now =>
      exact .message rfl (dispatchKnown_transfers result fun _ => taskPreempted_transfers)
  | taskSwitchto ptr seqnum now =>
      exact .message rfl (dispatchKnown_transfers result fun _ handling =>
        .single (taskOffCpu_transfer handling))
  | taskPriorityChanged ptr seqnum nice =>
      exact .message rfl (dispatchKnown_transfers result fun _ handling =>
        taskPriorityChanged_transfers handling consistent)
  | cpuTick cpu now later => exact .tick (cpuTick_tick result)
  | o1Schedule cpu agentBarrier prioBoost started now committed =>
      obtain ⟨taken, taking, finishing⟩ := o1Schedule_finish result
      exact .schedule taken taking (finishing (taking.consistent (consistent.note _)))

theorem Does.consistent {event : Event} (does : Does scheduler next event)
    (consistent : (scheduler.placed none).Consistent) : (next.placed none).Consistent := by
  cases does with
  | message _ transfers => exact transfers.consistent consistent
  | tick tick => exact tick.consistent consistent
  | schedule taken taking finishing =>
      exact finishing.consistent (taking.consistent (consistent.note _)) rfl

end O1Scheduler

end Ghost.O1
