import Ghost.O1.Scheduler

/-!
# Where tasks are

The placement of a scheduler is its heap, its `current` pointers and its run
queues, together with the one task that a handler is moving. Every handler is a
sequence of transfers of that task; what holds of all placements is proved once
for each transfer.
-/

set_option autoImplicit false

namespace Ghost.O1

open Lib

structure Placement where
  heap : Heap
  current : CpuId → Option TaskPtr
  queue : CpuId → O1Rq
  /-- The task in the transitory state. -/
  moving : Option TaskPtr

def O1Scheduler.currents (scheduler : O1Scheduler) (cpu : CpuId) : Option TaskPtr :=
  (scheduler.cpuStates cpu).current

def O1Scheduler.queues (scheduler : O1Scheduler) (cpu : CpuId) : O1Rq :=
  (scheduler.cpuStates cpu).runQueue

/-- The placement of a scheduler in the middle of a handler. -/
def O1Scheduler.placed (scheduler : O1Scheduler) (moving : Option TaskPtr) : Placement where
  heap := scheduler.heap
  current := scheduler.currents
  queue := scheduler.queues
  moving := moving

/-- The task stays where it is: only what is irrelevant for its place changes. -/
structure O1Task.Stays (task task' : O1Task) : Prop where
  runState : task'.runState = task.runState
  cpu : task.runState = .kRunnable ∨ task'.cpu = task.cpu
  priority : task.runState = .kQueued → task'.staticPriority = task.staticPriority
  remaining : task'.remainingTime = task.remainingTime
  lastPick : task'.runtimeAtLastPick = task.runtimeAtLastPick

/-- The steps that handlers are made of. -/
inductive Transfer : Placement → Placement → Prop
  | arrive (place : Placement) {ptr : TaskPtr} (task : O1Task) :
      place.heap.tasks ptr = none → place.moving = none →
      task.runState = .kBlocked ∨ task.runState = .kRunnable →
      Transfer place
        { place with
          heap := place.heap.putGranted ptr task
          moving := if task.runState = .kRunnable then some ptr else none }
  | adjust (place : Placement) {ptr : TaskPtr} {task task' : O1Task} :
      place.heap.tasks ptr = some task → task.Stays task' →
      Transfer place { place with heap := place.heap.put ptr task' }
  | wake (place : Placement) {ptr : TaskPtr} {task task' : O1Task} :
      place.heap.tasks ptr = some task → task.runState = .kBlocked → place.moving = none →
      task'.runState = .kRunnable → task'.remainingTime = task.remainingTime →
      Transfer place { place with heap := place.heap.put ptr task', moving := some ptr }
  | enqueue (place : Placement) {cpu : CpuId} {ptr : TaskPtr} {task : O1Task} {heap : Heap}
      {rq : O1Rq} :
      place.moving = some ptr → place.heap.tasks ptr = some task → task.cpu = cpu.val →
      (place.queue cpu).enqueue place.heap ptr = .ok (heap, rq) →
      Transfer place
        { place with
          heap := heap
          queue := Function.update place.queue cpu rq
          moving := none }
  | dequeue (place : Placement) {cpu : CpuId} {ptr : TaskPtr} {heap : Heap} {rq : O1Rq} :
      place.moving = none → (place.queue cpu).dequeue place.heap = .ok (heap, rq, some ptr) →
      Transfer place
        { place with
          heap := heap
          queue := Function.update place.queue cpu rq
          moving := some ptr }
  | erase (place : Placement) {cpu : CpuId} {ptr : TaskPtr} {heap : Heap} {rq : O1Rq} :
      place.moving = none → (place.queue cpu).erase place.heap ptr = .ok (heap, rq) →
      Transfer place
        { place with
          heap := heap
          queue := Function.update place.queue cpu rq
          moving := some ptr }
  | offCpu (place : Placement) {cpu : CpuId} {ptr : TaskPtr} {task : O1Task} (now : Int)
      (blocked : Bool) :
      place.heap.tasks ptr = some task → task.runState = .kOnCpu → task.cpu = cpu.val →
      place.moving = none →
      Transfer place
        { place with
          heap := (place.heap.put ptr { (task.updateRemainingTime true now now).1 with
            runState := if blocked then .kBlocked else .kRunnable }).note (.offCpu ptr now)
          current :=
            if place.current cpu = some ptr then Function.update place.current cpu none
            else place.current
          moving := if blocked then none else some ptr }
  | onCpu (place : Placement) {cpu : CpuId} {ptr : TaskPtr} {task : O1Task} (now : Int) :
      place.moving = some ptr → place.heap.tasks ptr = some task → place.current cpu = none →
      Transfer place
        { place with
          heap := (place.heap.put ptr (task.onCpu cpu now)).note (.onCpu ptr now)
          current := Function.update place.current cpu (some ptr)
          moving := none }
  | free (place : Placement) {ptr : TaskPtr} {task : O1Task} :
      place.heap.tasks ptr = some task →
      task.runState = .kBlocked ∧ place.moving = none ∨ place.moving = some ptr →
      Transfer place { place with heap := place.heap.free ptr, moving := none }

/-! ## Consistent placements -/

structure Placement.Consistent (place : Placement) : Prop where
  sound : ∀ cpu, (place.queue cpu).Sound place.heap
  home : ∀ cpu idx ptr task, ptr ∈ (place.queue cpu).contents idx →
    place.heap.tasks ptr = some task → task.cpu = cpu.val
  queued : ∀ ptr task, place.heap.tasks ptr = some task → task.runState = .kQueued →
    0 < task.remainingTime ∧ ∃ cpu idx, ptr ∈ (place.queue cpu).contents idx
  current : ∀ cpu ptr, place.current cpu = some ptr → ∃ task, place.heap.tasks ptr = some task ∧
    task.runState = .kOnCpu ∧ task.cpu = cpu.val
  moving : ∀ ptr, place.moving = some ptr ↔
    ∃ task, place.heap.tasks ptr = some task ∧ task.runState = .kRunnable

namespace Placement.Consistent

variable {place place' : Placement} {ptr : TaskPtr} {task : O1Task}

theorem outside (consistent : place.Consistent) (allocated : place.heap.tasks ptr = some task)
    (notQueued : task.runState ≠ .kQueued) (cpu : CpuId) (idx : Fin kNumPrio) :
    ptr ∉ (place.queue cpu).contents idx :=
  (consistent.sound cpu).not_mem allocated notQueued idx

theorem moving_runnable (consistent : place.Consistent) (moving : place.moving = some ptr)
    (allocated : place.heap.tasks ptr = some task) : task.runState = .kRunnable := by
  obtain ⟨task', allocated', runnable⟩ := (consistent.moving ptr).mp moving
  obtain rfl : task = task' := Option.some.inj (allocated.symm.trans allocated')
  exact runnable

theorem current_onCpu (consistent : place.Consistent) {cpu : CpuId}
    (current : place.current cpu = some ptr) (allocated : place.heap.tasks ptr = some task) :
    task.runState = .kOnCpu ∧ task.cpu = cpu.val := by
  obtain ⟨task', allocated', onCpu⟩ := consistent.current cpu ptr current
  obtain rfl : task = task' := Option.some.inj (allocated.symm.trans allocated')
  exact onCpu

/-- Replacing a task that is not queued, before or after. -/
theorem store (consistent : place.Consistent) {value : Option O1Task}
    (sameQueues : place'.queue = place.queue)
    (stored : place'.heap.tasks = Function.update place.heap.tasks ptr value)
    (outside : ∀ cpu idx, ptr ∉ (place.queue cpu).contents idx)
    (notQueued : ∀ task, value = some task → task.runState ≠ .kQueued)
    (currents : ∀ cpu other, place'.current cpu = some other →
      other ≠ ptr ∧ place.current cpu = some other ∨
        other = ptr ∧ ∃ task, value = some task ∧ task.runState = .kOnCpu ∧ task.cpu = cpu.val)
    (others : ∀ other, other ≠ ptr → (place'.moving = some other ↔ place.moving = some other))
    (self : place'.moving = some ptr ↔ ∃ task, value = some task ∧ task.runState = .kRunnable) :
    place'.Consistent := by
  have same : ∀ other, other ≠ ptr → place'.heap.tasks other = place.heap.tasks other := by
    intro other different
    rw [stored, Function.update_of_ne different]
  have atPtr : place'.heap.tasks ptr = value := by rw [stored, Function.update_self]
  have queuedElsewhere : ∀ {cpu idx other}, other ∈ (place.queue cpu).contents idx → other ≠ ptr :=
    fun member equal => outside _ _ (equal ▸ member)
  refine ⟨fun cpu => ?_, fun cpu idx other task member allocated => ?_,
    fun other task allocated queued => ?_, fun cpu other current => ?_, fun other => ?_⟩
  · rw [sameQueues]
    exact (consistent.sound cpu).congr fun idx other member task allocated =>
      ⟨task, (same other (queuedElsewhere member)).trans allocated, rfl, rfl⟩
  · rw [sameQueues] at member
    rw [same other (queuedElsewhere member)] at allocated
    exact consistent.home cpu idx other task member allocated
  · by_cases equal : other = ptr
    · subst equal
      exact absurd queued (notQueued task (atPtr.symm.trans allocated))
    · rw [same other equal] at allocated
      rw [sameQueues]
      exact consistent.queued other task allocated queued
  · rcases currents cpu other current with ⟨different, before⟩ | ⟨rfl, task, rfl, onCpu⟩
    · rw [same other different]
      exact consistent.current cpu other before
    · exact ⟨task, atPtr, onCpu⟩
  · by_cases equal : other = ptr
    · subst equal
      rw [self, atPtr]
    · rw [others other equal, same other equal]
      exact consistent.moving other

private theorem adjust (consistent : place.Consistent) {task' : O1Task}
    (allocated : place.heap.tasks ptr = some task) (stays : task.Stays task') :
    ({ place with heap := place.heap.put ptr task' } : Placement).Consistent := by
  have back : ∀ other found, (place.heap.put ptr task').tasks other = some found →
      ∃ before, place.heap.tasks other = some before ∧ before.Stays found := by
    intro other found stored
    by_cases same : other = ptr
    · subst same
      simp only [Heap.put_tasks, Function.update_self, Option.some.injEq] at stored
      exact ⟨task, allocated, stored ▸ stays⟩
    · rw [Heap.put_tasks, Function.update_of_ne same] at stored
      exact ⟨found, stored, ⟨rfl, .inr rfl, fun _ => rfl, rfl, rfl⟩⟩
  have forth : ∀ other before, place.heap.tasks other = some before →
      ∃ found, (place.heap.put ptr task').tasks other = some found ∧ before.Stays found := by
    intro other before stored
    by_cases same : other = ptr
    · subst same
      obtain rfl : task = before := Option.some.inj (allocated.symm.trans stored)
      exact ⟨task', by simp, stays⟩
    · exact ⟨before, by simp [same, stored], ⟨rfl, .inr rfl, fun _ => rfl, rfl, rfl⟩⟩
  refine ⟨fun cpu => ?_, fun cpu idx other found member stored => ?_,
    fun other found stored queued => ?_, fun cpu other current => ?_, fun other => ?_⟩
  · refine ⟨(consistent.sound cpu).coherent, (consistent.sound cpu).unique,
      fun idx other member => ?_⟩
    obtain ⟨before, stored, queued, bucket⟩ := (consistent.sound cpu).queued idx other member
    obtain ⟨found, stored', kept⟩ := forth other before stored
    exact ⟨found, stored', kept.runState.trans queued, (kept.priority queued).trans bucket⟩
  · obtain ⟨before, stored', kept⟩ := back other found stored
    obtain ⟨before', stored'', queued, -⟩ := (consistent.sound cpu).queued idx other member
    obtain rfl : before = before' := Option.some.inj (stored'.symm.trans stored'')
    rw [kept.cpu.resolve_left (by simp [queued])]
    exact consistent.home cpu idx other before member stored'
  · obtain ⟨before, stored', kept⟩ := back other found stored
    rw [kept.remaining]
    exact consistent.queued other before stored' (kept.runState.symm.trans queued)
  · obtain ⟨before, stored, onCpu, home⟩ := consistent.current cpu other current
    obtain ⟨found, stored', kept⟩ := forth other before stored
    refine ⟨found, stored', kept.runState.trans onCpu, ?_⟩
    rw [kept.cpu.resolve_left (by simp [onCpu]), home]
  · rw [consistent.moving other]
    constructor
    · intro holds
      obtain ⟨before, stored, runnable⟩ := holds
      obtain ⟨found, stored', kept⟩ := forth other before stored
      exact ⟨found, stored', kept.runState.trans runnable⟩
    · intro holds
      obtain ⟨found, stored, runnable⟩ := holds
      obtain ⟨before, stored', kept⟩ := back other found stored
      exact ⟨before, stored', kept.runState.symm.trans runnable⟩

/-- One task enters or leaves the run queue of one CPU. -/
theorem requeue (consistent : place.Consistent) {cpu : CpuId} {rq : O1Rq}
    (queues : place'.queue = Function.update place.queue cpu rq)
    (stored : place'.heap.tasks = Function.update place.heap.tasks ptr (some task))
    (sameCurrent : place'.current = place.current) (sound : rq.Sound place'.heap)
    (elsewhere : ∀ other, other ≠ cpu → ∀ idx, ptr ∉ (place.queue other).contents idx)
    (others : ∀ idx other, other ≠ ptr →
      (other ∈ rq.contents idx ↔ other ∈ (place.queue cpu).contents idx))
    (notCurrent : ∀ cpu, place.current cpu ≠ some ptr)
    (self : (task.runState = .kQueued ∧ task.cpu = cpu.val ∧ 0 < task.remainingTime ∧
        (∃ idx, ptr ∈ rq.contents idx) ∧ place.moving = some ptr ∧ place'.moving = none) ∨
      (task.runState = .kRunnable ∧ (∀ idx, ptr ∉ rq.contents idx) ∧
        place.moving = none ∧ place'.moving = some ptr)) : place'.Consistent := by
  have same : ∀ other, other ≠ ptr → place'.heap.tasks other = place.heap.tasks other := by
    intro other different
    rw [stored, Function.update_of_ne different]
  have atPtr : place'.heap.tasks ptr = some task := by rw [stored, Function.update_self]
  have atCpu : place'.queue cpu = rq := by rw [queues, Function.update_self]
  have atOther : ∀ other, other ≠ cpu → place'.queue other = place.queue other := by
    intro other different
    rw [queues, Function.update_of_ne different]
  have member : ∀ {cpu' idx other}, other ≠ ptr →
      (other ∈ (place'.queue cpu').contents idx ↔ other ∈ (place.queue cpu').contents idx) := by
    intro cpu' idx other different
    by_cases here : cpu' = cpu
    · subst here
      rw [atCpu, others idx other different]
    · rw [atOther cpu' here]
  refine ⟨fun cpu' => ?_, fun cpu' idx other found inside allocated => ?_,
    fun other found allocated queued => ?_, fun cpu' other current => ?_, fun other => ?_⟩
  · by_cases here : cpu' = cpu
    · subst here
      rwa [atCpu]
    · rw [atOther cpu' here]
      refine (consistent.sound cpu').congr fun idx other inside found allocated =>
        ⟨found, (same other ?_).trans allocated, rfl, rfl⟩
      rintro rfl
      exact elsewhere cpu' here idx inside
  · by_cases equal : other = ptr
    · subst equal
      obtain rfl : task = found := Option.some.inj (atPtr.symm.trans allocated)
      by_cases here : cpu' = cpu
      · subst here
        rw [atCpu] at inside
        rcases self with ⟨-, home, -⟩ | ⟨-, absent, -⟩
        · exact home
        · exact absurd inside (absent idx)
      · rw [atOther cpu' here] at inside
        exact absurd inside (elsewhere cpu' here idx)
    · rw [same other equal] at allocated
      exact consistent.home cpu' idx other found ((member equal).mp inside) allocated
  · by_cases equal : other = ptr
    · subst equal
      obtain rfl : task = found := Option.some.inj (atPtr.symm.trans allocated)
      rcases self with ⟨-, -, positive, ⟨idx, inside⟩, -⟩ | ⟨runnable, -⟩
      · exact ⟨positive, cpu, idx, atCpu ▸ inside⟩
      · rw [queued] at runnable
        contradiction
    · rw [same other equal] at allocated
      obtain ⟨positive, cpu', idx, inside⟩ := consistent.queued other found allocated queued
      exact ⟨positive, cpu', idx, (member equal).mpr inside⟩
  · rw [sameCurrent] at current
    have different : other ≠ ptr := fun equal => notCurrent cpu' (equal ▸ current)
    rw [same other different]
    exact consistent.current cpu' other current
  · have before := consistent.moving other
    by_cases equal : other = ptr
    · subst equal
      rw [atPtr]
      rcases self with ⟨queued, -, -, -, -, moved⟩ | ⟨runnable, -, -, moved⟩
      · simp [moved, queued]
      · simp [moved, runnable]
    · rw [same other equal, ← before]
      rcases self with ⟨-, -, -, -, was, moved⟩ | ⟨-, -, was, moved⟩
      · rw [moved, was]
        simp [Ne.symm equal]
      · rw [moved, was]
        simp [Ne.symm equal]

private theorem not_current (consistent : place.Consistent)
    (allocated : place.heap.tasks ptr = some task)
    (offCpu : task.runState ≠ .kOnCpu) (cpu : CpuId) : place.current cpu ≠ some ptr :=
  fun current => offCpu (consistent.current_onCpu current allocated).1

/-- A task queued on one CPU is queued on no other. -/
theorem queued_once (consistent : place.Consistent) {cpu other : CpuId} {idx idx' : Fin kNumPrio}
    (member : ptr ∈ (place.queue cpu).contents idx)
    (member' : ptr ∈ (place.queue other).contents idx') : other = cpu ∧ idx' = idx := by
  obtain ⟨task, allocated, -, bucket⟩ := (consistent.sound cpu).queued idx ptr member
  obtain ⟨task', allocated', -, bucket'⟩ := (consistent.sound other).queued idx' ptr member'
  obtain rfl : task = task' := Option.some.inj (allocated.symm.trans allocated')
  have home := consistent.home cpu idx ptr task member allocated
  have home' := consistent.home other idx' ptr task member' allocated
  exact ⟨Fin.ext (by omega), Fin.ext (by omega)⟩

end Placement.Consistent

/-! ## Transfers keep placements consistent -/

section Transfers

variable {place : Placement} {cpu : CpuId} {ptr : TaskPtr} {task : O1Task} {heap : Heap} {rq : O1Rq}

open Placement

private theorem enqueue_consistent (consistent : place.Consistent)
    (moving : place.moving = some ptr) (allocated : place.heap.tasks ptr = some task)
    (home : task.cpu = cpu.val)
    (result : (place.queue cpu).enqueue place.heap ptr = .ok (heap, rq)) :
    ({ place with
        heap := heap
        queue := Function.update place.queue cpu rq
        moving := none } : Placement).Consistent := by
  obtain ⟨task', idx, able, sound, gains, stored⟩ := (consistent.sound cpu).enqueue result
  obtain rfl : task = task' := Option.some.inj (allocated.symm.trans able.allocated)
  have positive : 0 < if 0 < task.remainingTime then task.remainingTime else timeSlice := by
    split
    · assumption
    · decide
  refine consistent.requeue rfl stored rfl sound
    (fun other _ => consistent.outside allocated (by simp [able.runnable]) other)
    (fun idx' other different => ?_) (consistent.not_current allocated (by simp [able.runnable]))
    (.inl ⟨rfl, home, positive, ⟨idx, gains.mem_iff.mpr (.inr ⟨rfl, rfl⟩)⟩, moving, rfl⟩)
  rw [gains.mem_iff]
  simp [different]

private theorem left_consistent (consistent : place.Consistent) {idx : Fin kNumPrio}
    (moving : place.moving = none) (allocated : place.heap.tasks ptr = some task)
    (queued : task.runState = .kQueued)
    (sound : rq.Sound (place.heap.put ptr { task with runState := .kRunnable }))
    (gone : ∀ idx, ptr ∉ rq.contents idx)
    (gains : rq.contents.Gains idx ptr (place.queue cpu).contents) :
    ({ place with
        heap := place.heap.put ptr { task with runState := .kRunnable }
        queue := Function.update place.queue cpu rq
        moving := some ptr } : Placement).Consistent := by
  refine consistent.requeue rfl rfl rfl sound (fun other different idx' inside => ?_)
    (fun idx' other different => ?_) (consistent.not_current allocated (by simp [queued]))
    (.inr ⟨rfl, gone, moving, rfl⟩)
  · exact different (consistent.queued_once (gains.mem_iff.mpr (.inr ⟨rfl, rfl⟩)) inside).1
  · rw [gains.mem_iff]
    simp [different]

private theorem offCpu_consistent (consistent : place.Consistent)
    (allocated : place.heap.tasks ptr = some task) (onCpu : task.runState = .kOnCpu)
    (home : task.cpu = cpu.val) (moving : place.moving = none) (now : Int) (blocked : Bool) :
    ({ place with
        heap := (place.heap.put ptr { (task.updateRemainingTime true now now).1 with
          runState := if blocked then .kBlocked else .kRunnable }).note (.offCpu ptr now)
        current :=
          if place.current cpu = some ptr then Function.update place.current cpu none
          else place.current
        moving := if blocked then none else some ptr } : Placement).Consistent := by
  refine consistent.store rfl rfl (consistent.outside allocated (by simp [onCpu])) ?_ ?_ ?_ ?_
  · rintro _ ⟨⟩
    cases blocked <;> simp
  · intro other ptr' current
    have elsewhere : other ≠ cpu → place.current other ≠ some ptr := by
      intro different before
      have := (consistent.current_onCpu before allocated).2
      exact different (Fin.ext (by omega))
    dsimp only at current
    by_cases here : other = cpu
    · subst here
      split at current
      · simp at current
      · next kept => exact .inl ⟨fun equal => kept (equal ▸ current), current⟩
    · have before : place.current other = some ptr' := by
        split at current
        · rwa [Function.update_of_ne here] at current
        · exact current
      exact .inl ⟨fun equal => elsewhere here (equal ▸ before), before⟩
  · intro other different
    cases blocked <;> simp [moving, Ne.symm different]
  · cases blocked <;> simp

/-- Each transfer keeps the placement consistent. -/
theorem Transfer.consistent {before after : Placement} (transfer : Transfer before after)
    (consistent : before.Consistent) : after.Consistent := by
  cases transfer with
  | @arrive ptr task fresh moving state =>
      refine consistent.store rfl (Heap.putGranted_tasks task) (fun cpu idx member => ?_) ?_ ?_ ?_ ?_
      · obtain ⟨_, allocated, -⟩ := (consistent.sound cpu).queued idx ptr member
        simp [fresh] at allocated
      · rintro _ ⟨⟩
        rcases state with state | state <;> simp [O1Task.setRemainingTime, state]
      · intro cpu other current
        refine .inl ⟨?_, current⟩
        rintro rfl
        obtain ⟨_, allocated, -⟩ := consistent.current cpu other current
        simp [fresh] at allocated
      · intro other different
        rcases state with state | state <;> simp [state, moving, Ne.symm different]
      · rcases state with state | state <;> simp [O1Task.setRemainingTime, state]
  | adjust allocated stays => exact consistent.adjust allocated stays
  | @wake ptr task task' allocated blocked moving runnable remaining =>
      refine consistent.store rfl rfl (consistent.outside allocated (by simp [blocked])) ?_ ?_ ?_ ?_
      · rintro _ ⟨⟩
        simp [runnable]
      · intro cpu other current
        refine .inl ⟨?_, current⟩
        rintro rfl
        exact consistent.not_current allocated (by simp [blocked]) cpu current
      · intro other different
        simp [moving, Ne.symm different]
      · simp [runnable]
  | enqueue moving allocated home result =>
      exact enqueue_consistent consistent moving allocated home result
  | @dequeue cpu ptr heap rq moving result =>
      rcases (consistent.sound cpu).dequeue result with ⟨nothing, -⟩ |
        ⟨ptr', task, idx, popped, allocated, queued, rfl, gone, sound, gains⟩
      · exact absurd nothing (Option.some_ne_none ptr)
      · cases popped
        exact left_consistent consistent moving allocated queued sound gone gains
  | @erase cpu ptr heap rq moving result =>
      obtain ⟨task, idx, allocated, queued, -, rfl, gone, sound, gains⟩ :=
        (consistent.sound cpu).erase result
      exact left_consistent consistent moving allocated queued sound gone gains
  | offCpu now blocked allocated onCpu home moving =>
      exact offCpu_consistent consistent allocated onCpu home moving now blocked
  | @onCpu cpu ptr task now moving allocated idle =>
      have runnable := consistent.moving_runnable moving allocated
      refine consistent.store rfl rfl (consistent.outside allocated (by simp [runnable])) ?_ ?_ ?_ ?_
      · rintro _ ⟨⟩
        simp [O1Task.onCpu, O1Task.setRuntimeAtLastPick]
      · intro other ptr' current
        dsimp only at current
        by_cases here : other = cpu
        · subst here
          rw [Function.update_self, Option.some.injEq] at current
          exact .inr ⟨current.symm, _, rfl, rfl, rfl⟩
        · rw [Function.update_of_ne here] at current
          refine .inl ⟨?_, current⟩
          rintro rfl
          exact consistent.not_current allocated (by simp [runnable]) other current
      · intro other different
        simp [moving, Ne.symm different]
      · simp [O1Task.onCpu, O1Task.setRuntimeAtLastPick]
  | @free ptr task allocated reason =>
      have state : task.runState = .kBlocked ∨ task.runState = .kRunnable :=
        reason.imp (fun blocked => blocked.1) fun moving =>
          consistent.moving_runnable moving allocated
      have notQueued : task.runState ≠ .kQueued := by rcases state with state | state <;> simp [state]
      have notOnCpu : task.runState ≠ .kOnCpu := by rcases state with state | state <;> simp [state]
      refine consistent.store rfl rfl (consistent.outside allocated notQueued) (by simp) ?_ ?_ (by simp)
      · intro cpu other current
        refine .inl ⟨?_, current⟩
        rintro rfl
        exact consistent.not_current allocated notOnCpu cpu current
      · intro other different
        rcases reason with ⟨-, moving⟩ | moving <;> simp [moving, Ne.symm different]

end Transfers

end Ghost.O1
