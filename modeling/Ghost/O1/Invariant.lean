import Ghost.O1.Handlers

/-!
# The state invariant

Between events, queues, `current` pointers and task states agree, for every
sequence of messages, ticks and scheduling calls on any CPUs.
-/

set_option autoImplicit false

namespace Ghost.O1

open Lib

theorem consistent_init (cpus : List CpuId) : ((O1Scheduler.init cpus).placed none).Consistent where
  sound _ := O1Rq.sound_init _
  home _ _ _ _ member := absurd member List.not_mem_nil
  queued _ _ allocated := by simp [O1Scheduler.init] at allocated
  current _ _ current := by simp [O1Scheduler.init, O1Scheduler.currents] at current
  moving _ := by simp [O1Scheduler.init, O1Scheduler.placed]

/-- One event keeps the scheduler consistent. -/
theorem dispatch_consistent {cpus : List CpuId} {scheduler next : O1Scheduler} {event : Event}
    (consistent : (scheduler.placed none).Consistent)
    (moved : (schedulers cpus).step scheduler event next) : (next.placed none).Consistent :=
  (O1Scheduler.dispatch_does consistent moved).consistent consistent

theorem schedulers_consistent {cpus : List CpuId} {scheduler : O1Scheduler}
    (reachable : (schedulers cpus).Reachable scheduler) : (scheduler.placed none).Consistent := by
  refine reachable.invariant (fun scheduler => (scheduler.placed none).Consistent) ?_ ?_
  · rintro _ rfl
    exact consistent_init cpus
  · exact fun _ _ _ => dispatch_consistent

/-- The task is in exactly one place of all run queues: once, on its own CPU, in
the bucket of its priority. -/
def O1Scheduler.QueuedOnce (scheduler : O1Scheduler) (ptr : TaskPtr) (task : O1Task) : Prop :=
  ∃ (cpu : CpuId) (idx : Fin kNumPrio), task.cpu = cpu.val ∧
    task.staticPriority = kBasePrio + idx.val ∧
    ((scheduler.cpuStates cpu).runQueue.active.queues idx).count ptr +
      ((scheduler.cpuStates cpu).runQueue.expired.queues idx).count ptr = 1 ∧
    ∀ cpu' idx', ptr ∈ (scheduler.cpuStates cpu').runQueue.contents idx' → cpu' = cpu ∧ idx' = idx

theorem O1Scheduler.queuedOnce {scheduler : O1Scheduler} {ptr : TaskPtr} {task : O1Task}
    (consistent : (scheduler.placed none).Consistent)
    (allocated : scheduler.heap.tasks ptr = some task) (queued : task.runState = .kQueued) :
    scheduler.QueuedOnce ptr task := by
  obtain ⟨-, cpu, idx, member⟩ := consistent.queued ptr task allocated queued
  obtain ⟨task', allocated', -, bucket⟩ := (consistent.sound cpu).queued idx ptr member
  obtain rfl : task = task' := Option.some.inj (allocated.symm.trans allocated')
  refine ⟨cpu, idx, consistent.home cpu idx ptr task member allocated, bucket, ?_, ?_⟩
  · rw [← List.count_append]
    exact List.count_eq_one_of_mem ((consistent.sound cpu).unique idx) member
  · exact fun cpu' idx' member' => consistent.queued_once member member'

structure StateInvariant (scheduler : O1Scheduler) : Prop where
  queued : ∀ ptr task, scheduler.heap.tasks ptr = some task →
    (task.runState = .kQueued ↔ scheduler.QueuedOnce ptr task)
  onlyQueued : ∀ cpu idx ptr, ptr ∈ (scheduler.cpuStates cpu).runQueue.contents idx →
    ∃ task, scheduler.heap.tasks ptr = some task ∧ task.runState = .kQueued
  current : ∀ cpu ptr, (scheduler.cpuStates cpu).current = some ptr →
    ∃ task, scheduler.heap.tasks ptr = some task ∧ task.runState = .kOnCpu ∧ task.cpu = cpu.val
  currentOnce : ∀ cpu cpu' ptr, (scheduler.cpuStates cpu).current = some ptr →
    (scheduler.cpuStates cpu').current = some ptr → cpu' = cpu
  noneRunnable : ∀ ptr task, scheduler.heap.tasks ptr = some task → task.runState ≠ .kRunnable
  freed : ∀ ptr, scheduler.heap.tasks ptr = none →
    (∀ cpu, (scheduler.cpuStates cpu).current ≠ some ptr) ∧
      ∀ cpu idx, ptr ∉ (scheduler.cpuStates cpu).runQueue.contents idx

/-- The invariant holds in every reachable state. -/
theorem schedulers_invariant {cpus : List CpuId} {scheduler : O1Scheduler}
    (reachable : (schedulers cpus).Reachable scheduler) : StateInvariant scheduler := by
  have consistent := schedulers_consistent reachable
  refine ⟨fun ptr task allocated => ⟨fun queued => ?_, ?_⟩, fun cpu idx ptr member => ?_,
    consistent.current, fun cpu cpu' ptr here there => ?_, fun ptr task allocated runnable => ?_,
    fun ptr freed => ⟨fun cpu current => ?_, fun cpu idx member => ?_⟩⟩
  · exact O1Scheduler.queuedOnce consistent allocated queued
  · rintro ⟨cpu, idx, -, -, once, -⟩
    have member : ptr ∈ (scheduler.cpuStates cpu).runQueue.contents idx := by
      rw [← List.count_pos_iff, O1Rq.contents, List.count_append, once]
      exact Nat.one_pos
    obtain ⟨task', allocated', queued, -⟩ := (consistent.sound cpu).queued idx ptr member
    obtain rfl : task = task' := Option.some.inj (allocated.symm.trans allocated')
    exact queued
  · obtain ⟨task, allocated, queued, -⟩ := (consistent.sound cpu).queued idx ptr member
    exact ⟨task, allocated, queued⟩
  · obtain ⟨task, allocated, -, home⟩ := consistent.current cpu ptr here
    have home' := (consistent.current_onCpu there allocated).2
    exact Fin.ext (by omega)
  · have moves := (consistent.moving ptr).mpr ⟨task, allocated, runnable⟩
    cases moves
  · obtain ⟨task, allocated, -⟩ := consistent.current cpu ptr current
    exact absurd (freed.symm.trans allocated) (by simp)
  · obtain ⟨task, allocated, -⟩ := (consistent.sound cpu).queued idx ptr member
    exact absurd (freed.symm.trans allocated) (by simp)

/-! ## A run -/

namespace O1Scheduler

/-- The scheduler after a sequence of events, or after none of them if one faults. -/
def after (cpus : List CpuId) (events : List Event) : O1Scheduler :=
  match events.foldlM (dispatch cpus) (init cpus) with
  | .ok scheduler => scheduler
  | .error _ => init cpus

theorem after_reachable (cpus : List CpuId) (events : List Event) :
    (schedulers cpus).Reachable (after cpus events) := by
  unfold after
  split
  · next scheduler replayed =>
      exact ⟨init cpus, events, rfl, .of_foldlM (fun _ _ _ moved => moved) replayed⟩
  · exact ⟨init cpus, [], rfl, .nil _⟩

end O1Scheduler

def firstCpu : CpuId := ⟨0, by decide⟩

/-- Two tasks arrive on one CPU, and the one with the lower nice value is put on it. -/
def arrivals : List Event :=
  [.taskNew 1 101 1 0 true true, .taskNew 2 102 1 (-5) true true,
    .o1Schedule firstCpu 1 false 0 0 true]

theorem schedulers_invariant_arrivals :
    ((O1Scheduler.after [firstCpu] arrivals).cpuStates firstCpu).current = some 2 ∧
      StateInvariant (O1Scheduler.after [firstCpu] arrivals) :=
  ⟨by decide +kernel, schedulers_invariant (O1Scheduler.after_reachable [firstCpu] arrivals)⟩

end Ghost.O1
