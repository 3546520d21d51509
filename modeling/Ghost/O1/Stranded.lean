import Ghost.O1.Invariant

/-!
# Stranded tasks

`O1Schedule` clears `current` before it knows whether another task gets on the
CPU, and leaves the requeueing of the old one to its `TaskPreempted` message. The
kernel sends that message only if another task was really switched in. A ghost
list records the tasks that were, until their message is handled.
-/

set_option autoImplicit false

namespace Ghost.O1

open Lib

/-! ## Tasks that were switched out -/

/-- The task that a step replaced as `current` of a CPU by another one. -/
def replaced (before after : O1Scheduler) (cpu : CpuId) : List TaskPtr :=
  match (before.cpuStates cpu).current, (after.cpuStates cpu).current with
  | some prev, some next => if next = prev then [] else [prev]
  | _, _ => []

def replacedBy (before after : O1Scheduler) : Event → List TaskPtr
  | .o1Schedule cpu .. => replaced before after cpu
  | _ => []

/-- The task is on a CPU and not the current one there. -/
def O1Scheduler.away (scheduler : O1Scheduler) (ptr : TaskPtr) : Bool :=
  match scheduler.heap.tasks ptr with
  | none => false
  | some task =>
      match O1Scheduler.cpuStateOf task with
      | .ok cpu => task.runState = .kOnCpu && (scheduler.cpuStates cpu).current ≠ some ptr
      | .error _ => task.runState = .kOnCpu

/-- The scheduler with the tasks that are switched out and whose message is still
to be handled. -/
def watched (cpus : List CpuId) : Machine (O1Scheduler × List TaskPtr) Event where
  initial state := state = (.init cpus, [])
  step before event after :=
    (schedulers cpus).step before.1 event after.1 ∧
      after.2 = (replacedBy before.1 after.1 event ++ before.2).filter after.1.away

/-! ## Tasks on a CPU are accounted for -/

/-- Every task on a CPU is the current one there or listed. -/
def Placement.Covered (place : Placement) (listed : List TaskPtr) : Prop :=
  ∀ ptr task, place.heap.tasks ptr = some task → task.runState = .kOnCpu →
    (∃ cpu : CpuId, task.cpu = cpu.val ∧ place.current cpu = some ptr) ∨ ptr ∈ listed

section Covered

variable {place after : Placement} {cpu : CpuId} {ptr : TaskPtr} {listed : List TaskPtr}

private theorem Placement.Covered.store (covered : place.Covered listed) {value : Option O1Task}
    (stored : after.heap.tasks = Function.update place.heap.tasks ptr value)
    (kept : ∀ cpu other, other ≠ ptr → place.current cpu = some other →
      after.current cpu = some other)
    (self : ∀ task, value = some task → task.runState = .kOnCpu →
      (∃ cpu : CpuId, task.cpu = cpu.val ∧ after.current cpu = some ptr) ∨ ptr ∈ listed) :
    after.Covered listed := by
  intro other task allocated onCpu
  rw [stored] at allocated
  by_cases same : other = ptr
  · subst same
    rw [Function.update_self] at allocated
    exact self task allocated onCpu
  · rw [Function.update_of_ne same] at allocated
    refine (covered other task allocated onCpu).imp_left ?_
    intro found
    obtain ⟨cpu, home, current⟩ := found
    exact ⟨cpu, home, kept cpu other same current⟩

private theorem Placement.Covered.widen (covered : place.Covered listed) {more : List TaskPtr}
    (subset : listed ⊆ more) : place.Covered more :=
  fun ptr task allocated onCpu => (covered ptr task allocated onCpu).imp_right (@subset ptr)

private theorem Transfer.covered (transfer : Transfer place after) (consistent : place.Consistent)
    (covered : place.Covered listed) : after.Covered listed := by
  cases transfer with
  | @arrive ptr task fresh moving state =>
      refine covered.store (Heap.putGranted_tasks task) (fun _ _ _ => id) ?_
      rintro _ ⟨⟩ onCpu
      rcases state with state | state <;> simp [O1Task.setRemainingTime, state] at onCpu
  | @adjust ptr task task' allocated stays =>
      refine covered.store rfl (fun _ _ _ => id) ?_
      rintro _ ⟨⟩ onCpu
      have before := stays.runState.symm.trans onCpu
      rw [stays.cpu.resolve_left (by simp [before])]
      exact covered ptr task allocated before
  | @wake ptr task task' allocated blocked moving runnable remaining =>
      refine covered.store rfl (fun _ _ _ => id) ?_
      rintro _ ⟨⟩ onCpu
      simp [runnable] at onCpu
  | @enqueue cpu ptr task heap rq moving allocated home result =>
      obtain ⟨_, _, -, -, -, stored⟩ := (consistent.sound cpu).enqueue result
      refine covered.store stored (fun _ _ _ => id) ?_
      rintro _ ⟨⟩ onCpu
      simp at onCpu
  | @dequeue cpu ptr heap rq moving result =>
      rcases (consistent.sound cpu).dequeue result with ⟨nothing, -⟩ | ⟨_, _, _, same, -, -, rfl, -⟩
      · cases nothing
      · cases same
        refine covered.store rfl (fun _ _ _ => id) ?_
        rintro _ ⟨⟩ onCpu
        simp at onCpu
  | @erase cpu ptr heap rq moving result =>
      obtain ⟨_, _, -, -, -, rfl, -⟩ := (consistent.sound cpu).erase result
      refine covered.store rfl (fun _ _ _ => id) ?_
      rintro _ ⟨⟩ onCpu
      simp at onCpu
  | @offCpu cpu ptr task now blocked allocated onCpu home moving =>
      refine covered.store rfl ?_ ?_
      · intro cpu' other different current
        dsimp only
        split
        · next here =>
            rw [Function.update_of_ne, current]
            rintro rfl
            exact different (Option.some.inj (current.symm.trans here))
        · exact current
      · rintro _ ⟨⟩ onCpu
        cases blocked <;> simp at onCpu
  | @onCpu cpu ptr task now moving allocated idle =>
      refine covered.store rfl ?_ ?_
      · intro cpu' other different current
        dsimp only
        rw [Function.update_of_ne, current]
        rintro rfl
        simp [idle] at current
      · rintro _ ⟨⟩ -
        exact .inl ⟨cpu, rfl, Function.update_self ..⟩
  | @free ptr task allocated reason =>
      exact covered.store rfl (fun _ _ _ => id) (by simp)

private theorem Transfers.covered (transfers : Transfers place after)
    (consistent : place.Consistent)
    (covered : place.Covered listed) : after.Covered listed := by
  induction transfers with
  | refl => exact covered
  | tail before last ih => exact last.covered (Transfers.consistent before consistent) ih

/-- The current task stays covered whatever is written to it. -/
private theorem coverCurrent {heap : Heap} {task : O1Task} (covered : place.Covered listed)
    (current : place.current cpu = some ptr)
    (stored : heap.tasks = Function.update place.heap.tasks ptr (some task))
    (home : task.cpu = cpu.val) : ({ place with heap := heap } : Placement).Covered listed := by
  refine covered.store stored (fun _ _ _ => id) ?_
  rintro _ ⟨⟩ -
  exact .inl ⟨cpu, home, current⟩

private theorem Tick.covered {now later : Int} (tick : Tick cpu now later place after)
    (consistent : place.Consistent) (covered : place.Covered listed) : after.Covered listed := by
  cases tick with
  | idle => exact covered
  | charge current allocated =>
      exact coverCurrent covered current rfl (consistent.current_onCpu current allocated).2

private theorem Finish.covered {prioBoost committed : Bool} {now : Int}
    (finish : Finish cpu prioBoost committed now place after) (consistent : place.Consistent)
    (settled : place.moving = none) (covered : place.Covered listed) : after.Covered listed := by
  rcases finish.transfers_or_recommit consistent settled with
    transfers | ⟨-, -, ptr, task, current, allocated, rfl⟩
  · exact transfers.covered consistent covered
  · exact coverCurrent covered current rfl rfl

/-- A pending preemption uncovers at most the task it drops. -/
theorem Preemption.covered {preemptCurr : Bool} (taking : Preemption cpu preemptCurr place after)
    (consistent : place.Consistent) (covered : place.Covered listed) :
    after.Covered listed ∧
        (preemptCurr = false ∨ place.current cpu = none ∨ (place.queue cpu).contents.Vacant) ∨
      ∃ prev, preemptCurr = true ∧ place.current cpu = some prev ∧
      ¬ (place.queue cpu).contents.Vacant ∧
      after = { place with current := Function.update place.current cpu none } ∧
      after.Covered (prev :: listed) := by
  cases taking with
  | keep reason => exact .inl ⟨covered, reason.imp_right .inl⟩
  | @drop prev preempt current occupied =>
      refine .inr ⟨prev, preempt, current, occupied, rfl, fun ptr task allocated onCpu => ?_⟩
      by_cases same : ptr = prev
      · exact .inr (same ▸ List.mem_cons_self)
      · rcases covered ptr task allocated onCpu with ⟨cpu', home, current'⟩ | member
        · refine .inl ⟨cpu', home, ?_⟩
          dsimp only
          rw [Function.update_of_ne, current']
          rintro rfl
          exact same (Option.some.inj (current'.symm.trans current))
        · exact .inr (.tail _ member)
  | renew _ current vacant allocated =>
      have home := (consistent.current_onCpu current allocated).2
      exact .inl ⟨coverCurrent covered current rfl home, .inr (.inr vacant)⟩

end Covered

/-! ## Orderly runs -/

/-- Not the case that a pending preemption of the current task meets a waiting
task and then either the boosted priority of the agent or a failed commit. -/
def Event.Orderly (scheduler : O1Scheduler) : Event → Prop
  | .o1Schedule cpu _ prioBoost _ _ committed =>
      ¬ ((scheduler.cpuStates cpu).preemptCurr = true ∧ (scheduler.cpuStates cpu).current ≠ none ∧
        (scheduler.cpuStates cpu).runQueue.empty = false ∧ (prioBoost = true ∨ committed = false))
  | _ => True

def orderly (cpus : List CpuId) : Machine (O1Scheduler × List TaskPtr) Event :=
  (watched cpus).restrict fun state event => event.Orderly state.1

section Away

variable {scheduler : O1Scheduler} {ptr : TaskPtr}

private theorem away_not_current (consistent : (scheduler.placed none).Consistent)
    (away : scheduler.away ptr = true) (cpu : CpuId) :
    (scheduler.cpuStates cpu).current ≠ some ptr := by
  intro current
  obtain ⟨task, allocated, onCpu, home⟩ := consistent.current cpu ptr current
  rw [O1Scheduler.away, show scheduler.heap.tasks ptr = some task from allocated] at away
  simp [O1Scheduler.cpuStateOf_eq_ok.mpr home, current] at away

private theorem covered_filter {listed : List TaskPtr}
    (covered : (scheduler.placed none).Covered listed) :
    (scheduler.placed none).Covered (listed.filter scheduler.away) := by
  intro ptr task allocated onCpu
  rcases covered ptr task allocated onCpu with current | member
  · exact .inl current
  · by_cases away : scheduler.away ptr = true
    · exact .inr (List.mem_filter.mpr ⟨member, away⟩)
    · rw [O1Scheduler.away, show scheduler.heap.tasks ptr = some task from allocated] at away
      dsimp only at away
      split at away
      · next cpu home =>
          refine .inl ⟨cpu, O1Scheduler.cpuStateOf_eq_ok.mp home, ?_⟩
          simpa [onCpu, O1Scheduler.currents] using away
      · simp [onCpu] at away

end Away

/-- What holds in every orderly state. -/
structure Watch (state : O1Scheduler × List TaskPtr) : Prop where
  consistent : (state.1.placed none).Consistent
  covered : (state.1.placed none).Covered state.2
  away : ∀ ptr ∈ state.2, state.1.away ptr = true

/-- With no current task but one waiting, `O1Schedule` puts a queued task on the
CPU or leaves it idle. -/
theorem Finish.of_idle {place after : Placement} {cpu : CpuId} {prioBoost committed : Bool}
    {now : Int} (finish : Finish cpu prioBoost committed now place after)
    (consistent : place.Consistent) (idle : place.current cpu = none)
    (occupied : ¬ (place.queue cpu).contents.Vacant) {prev : TaskPtr} {task : O1Task}
    (allocated : place.heap.tasks prev = some task) (onCpu : task.runState = .kOnCpu) :
    (prioBoost = false ∧ committed = true ∧
        ∃ next, next ≠ prev ∧ after.current cpu = some next) ∨
      ((prioBoost = true ∨ committed = false) ∧ after.current cpu = none ∧
        after.heap.tasks prev = some task) := by
  have notPopped : ∀ {heap rq ptr}, (place.queue cpu).dequeue place.heap = .ok (heap, rq, some ptr) →
      ptr ≠ prev ∧ heap.tasks prev = some task ∧ rq.Sound heap := by
    intro heap rq ptr popping
    rcases (consistent.sound cpu).dequeue popping with ⟨nothing, -⟩ |
      ⟨_, popped, _, same, stored, queued, rfl, -, sound, -⟩
    · cases nothing
    · cases same
      have different : ptr ≠ prev := by
        rintro rfl
        obtain rfl : task = popped := Option.some.inj (allocated.symm.trans stored)
        rw [onCpu] at queued
        cases queued
      exact ⟨different, by simp [different.symm, allocated], sound⟩
  cases finish with
  | yield reason =>
      rcases reason with boosted | ⟨-, vacant⟩
      · exact .inr ⟨.inl boosted, idle, allocated⟩
      · exact absurd vacant occupied
  | @switch ptr _ _ _ boost commits _ popping _ =>
      exact .inl ⟨boost, commits, ptr, (notPopped popping).1, Function.update_self ..⟩
  | requeue _ fails _ popping stored pushing =>
      obtain ⟨different, kept, sound⟩ := notPopped popping
      refine .inr ⟨.inr fails, idle, ?_⟩
      obtain ⟨_, _, -, outcome⟩ := O1Rq.enqueue_eq_ok.mp pushing
      rcases outcome with ⟨-, rfl, -⟩ | ⟨-, rfl, -⟩ <;> simp [different.symm, kept]
  | recommit _ _ current _ => simp [idle] at current
  | evict _ _ running _ => exact absurd idle running

section Scheduling

variable {cpus : List CpuId} {before after : O1Scheduler × List TaskPtr} {cpu : CpuId}
  {agentBarrier : Nat} {prioBoost committed : Bool} {started now : Int}

/-- A call of `O1Schedule` covers everything, replaces the task it drops, or
strands it. -/
theorem schedule_covered (watch : Watch before)
    (moved : (schedulers cpus).step before.1
      (.o1Schedule cpu agentBarrier prioBoost started now committed) after.1) :
    ((after.1.placed none).Covered before.2 ∧
        Event.Orderly before.1 (.o1Schedule cpu agentBarrier prioBoost started now committed)) ∨
      ∃ prev, (before.1.cpuStates cpu).current = some prev ∧
        ((Event.Orderly before.1 (.o1Schedule cpu agentBarrier prioBoost started now committed) ∧
            (∃ next, next ≠ prev ∧ (after.1.cpuStates cpu).current = some next) ∧
            (after.1.placed none).Covered (prev :: before.2)) ∨
          (¬ Event.Orderly before.1 (.o1Schedule cpu agentBarrier prioBoost started now committed) ∧
            (after.1.cpuStates cpu).current = none ∧
            after.1.heap.tasks prev = before.1.heap.tasks prev)) := by
  cases O1Scheduler.dispatch_does watch.consistent moved with
  | message isMessage => cases isMessage
  | schedule taken taking finishing =>
      have consistent := watch.consistent.note (.entered started)
      have covered : ({ before.1.placed none with
          heap := before.1.heap.note (.entered started) } : Placement).Covered before.2 :=
        watch.covered
      have emptyIff := @O1Rq.empty_iff (before.1.cpuStates cpu).runQueue
      have takenConsistent := taking.consistent consistent
      rcases taking.covered consistent covered with
        ⟨kept, reason⟩ | ⟨prev, preempt, current, occupied, dropped, uncovered⟩
      · refine .inl ⟨finishing.covered takenConsistent rfl kept, ?_⟩
        rintro ⟨preempt, running, occupied, -⟩
        rcases reason with idle | idle | vacant
        · rw [preempt] at idle
          cases idle
        · exact running idle
        · rw [emptyIff.mpr vacant] at occupied
          cases occupied
      · have settledCover := finishing.covered takenConsistent rfl uncovered
        have occupied' : (before.1.cpuStates cpu).runQueue.empty = false := by
          rw [← Bool.not_eq_true, emptyIff]
          exact occupied
        have notCurrent : (taken.placed none).current cpu = none := by
          rw [dropped]
          exact Function.update_self ..
        have sameHeap : (taken.placed none).heap.tasks = before.1.heap.tasks := by
          rw [dropped]
          rfl
        have sameQueue : (taken.placed none).queue cpu = (before.1.cpuStates cpu).runQueue := by
          rw [dropped]
          rfl
        obtain ⟨task, allocated, onCpu, -⟩ := watch.consistent.current cpu prev current
        refine .inr ⟨prev, current, ?_⟩
        rcases finishing.of_idle takenConsistent notCurrent (sameQueue ▸ occupied)
            (sameHeap ▸ allocated) onCpu with
          ⟨boost, commits, next, different, isCurrent⟩ | ⟨stranding, idle, kept⟩
        · refine .inl ⟨?_, ⟨next, different, isCurrent⟩, settledCover⟩
          rintro ⟨-, -, -, boosted | fails⟩
          · rw [boost] at boosted
            cases boosted
          · rw [commits] at fails
            cases fails
        · refine .inr ⟨fun orderly => orderly ⟨preempt, ?_, occupied', stranding⟩, idle,
            kept.trans allocated.symm⟩
          rw [show (before.1.cpuStates cpu).current = some prev from current]
          simp

end Scheduling

/-- An orderly event keeps the watch. -/
theorem Watch.step {cpus : List CpuId} {before after : O1Scheduler × List TaskPtr} {event : Event}
    (watch : Watch before) (moved : (orderly cpus).step before event after) : Watch after := by
  obtain ⟨isOrderly, moved, listed⟩ := moved
  have consistent := dispatch_consistent watch.consistent moved
  have covered : (after.1.placed none).Covered
      (replacedBy before.1 after.1 event ++ before.2) := by
    have older : before.2 ⊆ replacedBy before.1 after.1 event ++ before.2 :=
      List.subset_append_right _ _
    cases O1Scheduler.dispatch_does watch.consistent moved with
    | message _ transfers => exact (transfers.covered watch.consistent watch.covered).widen older
    | tick tick => exact (tick.covered watch.consistent watch.covered).widen older
    | schedule taken taking finishing =>
        rcases schedule_covered watch moved with ⟨kept, -⟩ |
          ⟨prev, current, ⟨-, ⟨next, different, replacement⟩, uncovered⟩ | ⟨stranding, -⟩⟩
        · exact kept.widen older
        · refine uncovered.widen fun ptr member => ?_
          simpa [replacedBy, replaced, current, replacement, different] using member
        · exact absurd isOrderly stranding
  refine ⟨consistent, ?_, fun ptr member => ?_⟩
  · rw [listed]
    exact covered_filter covered
  · rw [listed] at member
    exact (List.mem_filter.mp member).2

private theorem orderly_watch {cpus : List CpuId} {state : O1Scheduler × List TaskPtr}
    (reachable : (orderly cpus).Reachable state) : Watch state := by
  refine reachable.invariant _ ?_ fun _ _ _ => Watch.step
  rintro _ rfl
  exact ⟨consistent_init cpus, fun _ _ allocated => by simp [O1Scheduler.init] at allocated,
    fun _ member => absurd member List.not_mem_nil⟩

/-- The task is on the run queue of its CPU or current there. -/
def O1Scheduler.Located (scheduler : O1Scheduler) (ptr : TaskPtr) (task : O1Task) : Prop :=
  ∃ cpu : CpuId, task.cpu = cpu.val ∧
    ((∃ idx, ptr ∈ (scheduler.cpuStates cpu).runQueue.contents idx) ∨
      (scheduler.cpuStates cpu).current = some ptr)

/-- Unless the call replaced the current task by another, every task that is
neither blocked nor switched out earlier is located. -/
def NoneStranded (before after : O1Scheduler × List TaskPtr) (cpu : CpuId) : Prop :=
  replaced before.1 after.1 cpu = [] →
    ∀ ptr task, after.1.heap.tasks ptr = some task → task.runState ≠ .kBlocked →
      ptr ∉ before.2 → after.1.Located ptr task

private theorem located_of_covered {scheduler : O1Scheduler} {listed : List TaskPtr} {ptr : TaskPtr}
    {task : O1Task} (consistent : (scheduler.placed none).Consistent)
    (covered : (scheduler.placed none).Covered listed)
    (allocated : scheduler.heap.tasks ptr = some task) (notBlocked : task.runState ≠ .kBlocked)
    (notListed : ptr ∉ listed) : scheduler.Located ptr task := by
  cases state : task.runState with
  | kBlocked => exact absurd state notBlocked
  | kRunnable => cases (consistent.moving ptr).mpr ⟨task, allocated, state⟩
  | kQueued =>
      obtain ⟨-, cpu, idx, member⟩ := consistent.queued ptr task allocated state
      exact ⟨cpu, consistent.home cpu idx ptr task member allocated, .inl ⟨idx, member⟩⟩
  | kOnCpu =>
      obtain ⟨cpu, home, current⟩ := (covered ptr task allocated state).resolve_right notListed
      exact ⟨cpu, home, .inr current⟩

section Outcome

variable {cpus : List CpuId} {before after : O1Scheduler × List TaskPtr} {cpu : CpuId}
  {agentBarrier : Nat} {prioBoost committed : Bool} {started now : Int}

private theorem Watch.noneStranded (watch : Watch before)
    (moved : (watched cpus).step before
      (.o1Schedule cpu agentBarrier prioBoost started now committed) after)
    (isOrderly : Event.Orderly before.1
      (.o1Schedule cpu agentBarrier prioBoost started now committed)) :
    NoneStranded before after cpu := by
  have consistent := dispatch_consistent watch.consistent moved.1
  rcases schedule_covered watch moved.1 with ⟨covered, -⟩ |
    ⟨prev, current, ⟨-, ⟨next, different, replacement⟩, -⟩ | ⟨disorderly, -⟩⟩
  · exact fun _ ptr task allocated notBlocked notListed =>
      located_of_covered consistent covered allocated notBlocked notListed
  · intro notReplaced
    simp [replaced, current, replacement, different] at notReplaced
  · exact absurd isOrderly disorderly

private theorem Watch.strands (watch : Watch before)
    (moved : (watched cpus).step before
      (.o1Schedule cpu agentBarrier prioBoost started now committed) after)
    (disorderly : ¬ Event.Orderly before.1
      (.o1Schedule cpu agentBarrier prioBoost started now committed)) :
    ¬ NoneStranded before after cpu := by
  have consistent := dispatch_consistent watch.consistent moved.1
  intro noneStranded
  rcases schedule_covered watch moved.1 with ⟨-, isOrderly⟩ |
    ⟨prev, current, ⟨isOrderly, -⟩ | ⟨-, idle, kept⟩⟩
  · exact disorderly isOrderly
  · exact disorderly isOrderly
  · obtain ⟨task, allocated, onCpu, home⟩ := watch.consistent.current cpu prev current
    have notListed : prev ∉ before.2 := fun listed =>
      away_not_current watch.consistent (watch.away prev listed) cpu current
    obtain ⟨cpu', home', ⟨idx, member⟩ | isCurrent⟩ := noneStranded (by simp [replaced, idle]) prev task
      (kept.trans allocated) (by simp [onCpu]) notListed
    · exact consistent.outside (kept.trans allocated) (by simp [onCpu]) cpu' idx member
    · obtain rfl : cpu' = cpu := Fin.ext (by omega)
      rw [idle] at isCurrent
      cases isCurrent

end Outcome

/-- After an orderly run, a call of `O1Schedule` strands no task exactly when it
is orderly itself. -/
theorem schedule_strands_none_iff {cpus : List CpuId} {before after : O1Scheduler × List TaskPtr}
    (reachable : (orderly cpus).Reachable before) {cpu : CpuId} {agentBarrier : Nat}
    {prioBoost committed : Bool} {started now : Int}
    (moved : (watched cpus).step before
      (.o1Schedule cpu agentBarrier prioBoost started now committed) after) :
    NoneStranded before after cpu ↔
      Event.Orderly before.1 (.o1Schedule cpu agentBarrier prioBoost started now committed) := by
  have watch := orderly_watch reachable
  constructor
  · intro noneStranded
    by_contra disorderly
    exact watch.strands moved disorderly noneStranded
  · exact watch.noneStranded moved

/-! ## A preemption that is pending -/

instance (scheduler : O1Scheduler) (event : Event) : Decidable (event.Orderly scheduler) :=
  match event with
  | .o1Schedule .. => inferInstanceAs (Decidable (¬ _))
  | .taskNew .. | .taskRunnable .. | .taskDeparted .. | .taskDead .. | .taskYield ..
  | .taskBlocked .. | .taskPreempted .. | .taskSwitchto .. | .taskPriorityChanged ..
  | .cpuTick .. => isTrue trivial

/-- One step of the watched scheduler, computed. -/
def watchEvent (cpus : List CpuId) (state : O1Scheduler × List TaskPtr) (event : Event) :
    Except Fault (O1Scheduler × List TaskPtr) := do
  let next ← state.1.dispatch cpus event
  .ok (next, (replacedBy state.1 next event ++ state.2).filter next.away)

theorem watchEvent_step {cpus : List CpuId} {before after : O1Scheduler × List TaskPtr}
    {event : Event} (result : watchEvent cpus before event = .ok after) :
    (watched cpus).step before event after := by
  simp only [watchEvent, bind_eq_ok, Except.ok.injEq] at result
  obtain ⟨next, moved, rfl⟩ := result
  exact ⟨moved, rfl⟩

theorem exists_watched_step (cpus : List CpuId) (before : O1Scheduler × List TaskPtr) (event : Event)
    (succeeds : (watchEvent cpus before event).isOk = true) :
    ∃ after, (watched cpus).step before event after := by
  cases result : watchEvent cpus before event with
  | ok after => exact ⟨after, watchEvent_step result⟩
  | error fault =>
      rw [result] at succeeds
      cases succeeds

def orderlyEvent (cpus : List CpuId) (state : O1Scheduler × List TaskPtr) (event : Event) :
    Except Fault (O1Scheduler × List TaskPtr) := do
  check (event.Orderly state.1)
  watchEvent cpus state event

/-- A task is put on the CPU, another one arrives, and a tick uses up the slice. -/
def slicesUp : List Event :=
  [.taskNew 1 101 1 0 true true, .o1Schedule firstCpu 1 false 0 0 true,
    .taskNew 2 102 1 0 true true, .cpuTick firstCpu timeSlice timeSlice]

def pending : O1Scheduler × List TaskPtr :=
  match slicesUp.foldlM (orderlyEvent [firstCpu]) (.init [firstCpu], []) with
  | .ok state => state
  | .error _ => (.init [firstCpu], [])

theorem pending_reachable : (orderly [firstCpu]).Reachable pending := by
  unfold pending
  split
  · next state replayed =>
      refine ⟨_, slicesUp, rfl, .of_foldlM (fun before event after result => ?_) replayed⟩
      simp only [orderlyEvent, bind_eq_ok, check_eq_ok] at result
      obtain ⟨-, isOrderly, result⟩ := result
      exact ⟨isOrderly, watchEvent_step result⟩
  · exact ⟨_, [], rfl, .nil _⟩

/-- A failed commit strands the task that was current, and so does a boosted
priority. -/
theorem schedule_strands_current :
    (orderly [firstCpu]).Reachable pending ∧
      (∃ after, (watched [firstCpu]).step pending
        (.o1Schedule firstCpu 2 false timeSlice timeSlice false) after ∧
        ¬ NoneStranded pending after firstCpu) ∧
      ∃ after, (watched [firstCpu]).step pending
        (.o1Schedule firstCpu 2 true timeSlice timeSlice false) after ∧
        ¬ NoneStranded pending after firstCpu := by
  have watch := orderly_watch pending_reachable
  obtain ⟨failed, failing⟩ := exists_watched_step [firstCpu] pending
    (.o1Schedule firstCpu 2 false timeSlice timeSlice false) (by decide +kernel)
  obtain ⟨boosted, boosting⟩ := exists_watched_step [firstCpu] pending
    (.o1Schedule firstCpu 2 true timeSlice timeSlice false) (by decide +kernel)
  exact ⟨pending_reachable, ⟨failed, failing, watch.strands failing (by decide +kernel)⟩,
    boosted, boosting, watch.strands boosting (by decide +kernel)⟩

/-- With a commit that succeeds, the same call is orderly. -/
theorem schedule_strands_none_iff_committed :
    ∃ after, (watched [firstCpu]).step pending
        (.o1Schedule firstCpu 2 false timeSlice timeSlice true) after ∧
      (NoneStranded pending after firstCpu ↔ Event.Orderly pending.1
        (.o1Schedule firstCpu 2 false timeSlice timeSlice true)) := by
  obtain ⟨after, moved⟩ := exists_watched_step [firstCpu] pending
    (.o1Schedule firstCpu 2 false timeSlice timeSlice true) (by decide +kernel)
  exact ⟨after, moved, schedule_strands_none_iff pending_reachable moved⟩

end Ghost.O1
