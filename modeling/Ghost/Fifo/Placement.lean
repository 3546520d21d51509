import Ghost.Fifo.Scheduler

/-!
# Where FIFO tasks are

The record of a task determines its place: how often each run queue lists it,
which CPU runs it, and whether a handler is moving it. Every operation on queues
and `current` pointers changes the place of one task only.
-/

set_option autoImplicit false

namespace Ghost.Fifo

open Lib
open O1 (Fault TaskPtr CpuId Effect Switchto check maxCpus bind_eq_ok check_eq_ok)

/-- The place of one task. -/
@[ext] structure View where
  copies : CpuId → Nat
  current : CpuId → Bool
  moving : Bool

/-- The task is in this state on this CPU. -/
def FifoTask.on (task : FifoTask) (runState : FifoTaskState) (cpu : CpuId) : Bool :=
  task.runState = runState ∧ task.cpu = cpu.val

/-- The place that the record of a task, or its absence, calls for. -/
def View.of (task : Option FifoTask) : View where
  copies cpu := if task.any (·.on .kQueued cpu) then 1 else 0
  current cpu := task.any (·.on .kOnCpu cpu)
  moving := task.any (·.runState = .kRunnable)

/-- In no queue and on no CPU. -/
def View.away (moving : Bool) : View := ⟨fun _ => 0, fun _ => false, moving⟩

/-- Once in the queue of this CPU. -/
def View.waiting (cpu : CpuId) : View :=
  ⟨Function.update (fun _ => 0) cpu 1, fun _ => false, false⟩

/-- The current task of this CPU. -/
def View.running (cpu : CpuId) : View :=
  ⟨fun _ => 0, Function.update (fun _ => false) cpu true, false⟩

namespace View

variable {task : FifoTask} {cpu : CpuId}

theorem of_none : View.of none = away false := rfl

theorem of_blocked (blocked : task.runState = .kBlocked) : View.of (some task) = away false := by
  simp [View.of, away, FifoTask.on, blocked]

theorem of_runnable (runnable : task.runState = .kRunnable) : View.of (some task) = away true := by
  simp [View.of, away, FifoTask.on, runnable]

private theorem of_queued (queued : task.runState = .kQueued) (home : task.cpu = cpu.val) :
    View.of (some task) = waiting cpu := by
  apply View.ext
  · funext other
    have same : cpu.val = other.val ↔ other = cpu := by
      rw [Fin.ext_iff]
      exact eq_comm
    simp [View.of, waiting, FifoTask.on, queued, home, same, Function.update_apply]
  · simp [View.of, waiting, FifoTask.on, queued]
  · simp [View.of, waiting, queued]

private theorem of_onCpu (onCpu : task.runState = .kOnCpu) (home : task.cpu = cpu.val) :
    View.of (some task) = running cpu := by
  apply View.ext
  · simp [View.of, running, FifoTask.on, onCpu]
  · funext other
    have same : cpu.val = other.val ↔ other = cpu := by
      rw [Fin.ext_iff]
      exact eq_comm
    simp [View.of, running, FifoTask.on, onCpu, home, same, Function.update_apply]
  · simp [View.of, running, onCpu]

end View

/-- Only a task that was never queued has no CPU. -/
def FifoTask.Located (task : FifoTask) : Prop :=
  task.cpu = -1 ∧ (task.runState = .kBlocked ∨ task.runState = .kRunnable) ∨
    ∃ cpu : CpuId, task.cpu = cpu.val

namespace FifoScheduler

/-- The place of a task in the middle of a handler that moves at most one. -/
def view (scheduler : FifoScheduler) (moving : Option TaskPtr) (ptr : TaskPtr) : View where
  copies cpu := (scheduler.cpuStates cpu).runQueue.rq.count ptr
  current cpu := (scheduler.cpuStates cpu).current = some ptr
  moving := moving = some ptr

structure Consistent (scheduler : FifoScheduler) (moving : Option TaskPtr) : Prop where
  view : ∀ ptr, scheduler.view moving ptr = View.of (scheduler.tasks ptr)
  located : ∀ ptr task, scheduler.tasks ptr = some task → task.Located

variable {scheduler next : FifoScheduler} {cpu : CpuId} {ptr : TaskPtr} {task task' : FifoTask}
  {moving moving' : Option TaskPtr}

@[simp] theorem cpuStateOf_eq_ok : cpuStateOf task = .ok cpu ↔ task.cpu = cpu.val := by
  have bound := cpu.isLt
  unfold cpuStateOf
  split
  · next inRange =>
      rw [Except.ok.injEq, Fin.ext_iff]
      dsimp only
      omega
  · next outside =>
      simp only [reduceCtorEq, false_iff]
      omega

@[simp] theorem setTasks_view (tasks : Tasks) :
    (scheduler.setTasks tasks).view moving ptr = scheduler.view moving ptr := rfl

private theorem view_congr (handed : moving' = some ptr ↔ moving = some ptr) :
    scheduler.view moving' ptr = scheduler.view moving ptr :=
  View.ext rfl rfl (decide_eq_decide.mpr handed)

/-- A task that is nowhere may be taken up or put down. -/
theorem view_away {held : Bool} (away : scheduler.view moving ptr = View.away held)
    (moving' : Option TaskPtr) :
    scheduler.view moving' ptr = View.away (moving' = some ptr) := by
  apply View.ext
  · have same := congrArg View.copies away
    exact same
  · have same := congrArg View.current away
    exact same
  · rfl

private theorem setCpu_view (cs : CpuState) : (scheduler.setCpu cpu cs).view moving ptr =
    ⟨Function.update (scheduler.view moving ptr).copies cpu (cs.runQueue.rq.count ptr),
      Function.update (scheduler.view moving ptr).current cpu (cs.current = some ptr),
      moving = some ptr⟩ := by
  have pointwise : ∀ other, (scheduler.setCpu cpu cs).cpuStates other =
      if other = cpu then cs else scheduler.cpuStates other := by
    intro other
    simp [setCpu, Function.update_apply]
  apply View.ext
  · funext other
    simp only [view, pointwise, Function.update_apply]
    split <;> rfl
  · funext other
    simp only [view, pointwise, Function.update_apply]
    split <;> rfl
  · rfl

/-- Setting a CPU to what is the same for a task keeps the place of that task. -/
theorem setCpu_view_of_eq {cs : CpuState}
    (sameCount : cs.runQueue.rq.count ptr = (scheduler.cpuStates cpu).runQueue.rq.count ptr)
    (sameCurrent : cs.current = some ptr ↔ (scheduler.cpuStates cpu).current = some ptr) :
    (scheduler.setCpu cpu cs).view moving ptr = scheduler.view moving ptr := by
  rw [setCpu_view, sameCount, decide_eq_decide.mpr sameCurrent]
  exact View.ext (Function.update_eq_self ..) (Function.update_eq_self ..) rfl

/-! ## What a consistent scheduler says of one task -/

namespace Consistent

variable (consistent : scheduler.Consistent moving)

include consistent

private theorem copies (ptr : TaskPtr) (cpu : CpuId) :
    (scheduler.cpuStates cpu).runQueue.rq.count ptr =
      if (scheduler.tasks ptr).any (·.on .kQueued cpu) then 1 else 0 :=
  congrFun (congrArg View.copies (consistent.view ptr)) cpu

theorem listed_iff : ptr ∈ (scheduler.cpuStates cpu).runQueue.rq ↔
    ∃ task, scheduler.tasks ptr = some task ∧ task.runState = .kQueued ∧ task.cpu = cpu.val := by
  rw [← List.count_pos_iff, consistent.copies, Nat.pos_iff_ne_zero]
  cases scheduler.tasks ptr <;> simp [FifoTask.on]

theorem current_iff : (scheduler.cpuStates cpu).current = some ptr ↔
    ∃ task, scheduler.tasks ptr = some task ∧ task.runState = .kOnCpu ∧ task.cpu = cpu.val := by
  have same := congrFun (congrArg View.current (consistent.view ptr)) cpu
  simp only [FifoScheduler.view, View.of] at same
  rw [← decide_eq_true_iff (p := (scheduler.cpuStates cpu).current = some ptr), same]
  cases scheduler.tasks ptr <;> simp [FifoTask.on]

theorem moving_iff : moving = some ptr ↔
    ∃ task, scheduler.tasks ptr = some task ∧ task.runState = .kRunnable := by
  have same := congrArg View.moving (consistent.view ptr)
  simp only [FifoScheduler.view, View.of] at same
  rw [← decide_eq_true_iff (p := moving = some ptr), same]
  cases scheduler.tasks ptr <;> simp

theorem nodup (cpu : CpuId) : (scheduler.cpuStates cpu).runQueue.rq.Nodup := by
  rw [List.nodup_iff_count_le_one]
  intro ptr
  rw [consistent.copies]
  split
  · exact Nat.le_refl 1
  · exact Nat.zero_le 1

/-- An operation on one task: the others keep their records and their places. -/
theorem change (others : ∀ other, other ≠ ptr → next.tasks other = scheduler.tasks other ∧
      next.view moving' other = scheduler.view moving other)
    (self : next.view moving' ptr = View.of (next.tasks ptr))
    (located : ∀ task, next.tasks ptr = some task → task.Located) : next.Consistent moving' := by
  constructor
  · intro other
    by_cases same : other = ptr
    · rw [same]
      exact self
    · rw [(others other same).1, (others other same).2]
      exact consistent.view other
  · intro other task stored
    by_cases same : other = ptr
    · rw [same] at stored
      exact located task stored
    · rw [(others other same).1] at stored
      exact consistent.located other task stored

/-- Replacing a record without touching queues or `current` pointers. -/
theorem store {value : Option FifoTask}
    (handed : ∀ other, other ≠ ptr → (moving' = some other ↔ moving = some other))
    (self : scheduler.view moving' ptr = View.of value)
    (located : ∀ task, value = some task → task.Located) :
    (scheduler.setTasks (Function.update scheduler.tasks ptr value)).Consistent moving' := by
  have stored : (scheduler.setTasks (Function.update scheduler.tasks ptr value)).tasks ptr = value :=
    Function.update_self ..
  apply @change _ _ ptr _ _ consistent
  · intro other different
    constructor
    · exact Function.update_of_ne different ..
    · exact view_congr (handed other different)
  · rw [stored]
    exact self
  · rw [stored]
    exact located

/-- Replacing a record together with the state of one CPU. -/
theorem replace {cs : CpuState}
    (handed : ∀ other, other ≠ ptr → (moving' = some other ↔ moving = some other))
    (counts : ∀ other, other ≠ ptr →
      cs.runQueue.rq.count other = (scheduler.cpuStates cpu).runQueue.rq.count other)
    (currents : ∀ other, other ≠ ptr →
      (cs.current = some other ↔ (scheduler.cpuStates cpu).current = some other))
    (self : View.of (some task) =
      ⟨Function.update (scheduler.view moving ptr).copies cpu (cs.runQueue.rq.count ptr),
        Function.update (scheduler.view moving ptr).current cpu (cs.current = some ptr),
        moving' = some ptr⟩)
    (located : task.Located) : ((scheduler.setCpu cpu cs).put ptr task).Consistent moving' := by
  have stored : ((scheduler.setCpu cpu cs).put ptr task).tasks ptr = some task := Tasks.put_self _
  apply @change _ _ ptr _ _ consistent
  · intro other different
    constructor
    · exact Tasks.put_of_ne _ different
    · rw [put, setTasks_view, setCpu_view_of_eq (counts other different) (currents other different)]
      exact view_congr (handed other different)
  · rw [stored, self, put, setTasks_view, setCpu_view]
    rfl
  · intro found stored'
    cases stored.symm.trans stored'
    exact located

theorem view_runnable (allocated : scheduler.tasks ptr = some task)
    (runnable : task.runState = .kRunnable) : scheduler.view moving ptr = View.away true := by
  rw [consistent.view, allocated]
  exact View.of_runnable runnable

private theorem view_queued (allocated : scheduler.tasks ptr = some task)
    (queued : task.runState = .kQueued) (home : task.cpu = cpu.val) :
    scheduler.view moving ptr = View.waiting cpu := by
  rw [consistent.view, allocated]
  exact View.of_queued queued home

private theorem view_onCpu (allocated : scheduler.tasks ptr = some task)
    (onCpu : task.runState = .kOnCpu) (home : task.cpu = cpu.val) :
    scheduler.view moving ptr = View.running cpu := by
  rw [consistent.view, allocated]
  exact View.of_onCpu onCpu home

theorem view_blocked (allocated : scheduler.tasks ptr = some task)
    (blocked : task.runState = .kBlocked) : scheduler.view moving ptr = View.away false := by
  rw [consistent.view, allocated]
  exact View.of_blocked blocked

end Consistent

/-! ## Operations -/

theorem enqueueOn_eq_ok : scheduler.enqueueOn cpu ptr = .ok next ↔
    ∃ task, scheduler.tasks ptr = some task ∧ 0 ≤ task.cpu ∧ task.runState = .kRunnable ∧
      next = (scheduler.setCpu cpu ⟨(scheduler.cpuStates cpu).current,
        (scheduler.cpuStates cpu).runQueue.pushed ptr task.prioBoost⟩).put ptr
          { task with runState := .kQueued } := by
  simp only [enqueueOn, bind_eq_ok, Except.ok.injEq]
  constructor
  · intro holds
    obtain ⟨⟨tasks, rq⟩, pushing, isNext⟩ := holds
    obtain ⟨task, allocated, placed, runnable, rfl, rfl⟩ := FifoRq.enqueue_eq_ok.mp pushing
    exact ⟨task, allocated, placed, runnable, isNext.symm⟩
  · intro holds
    obtain ⟨task, allocated, placed, runnable, isNext⟩ := holds
    exact ⟨_, FifoRq.enqueue_eq_ok.mpr ⟨task, allocated, placed, runnable, rfl, rfl⟩, isNext.symm⟩

theorem enqueueOn_consistent (consistent : scheduler.Consistent (some ptr))
    (home : ∀ task, scheduler.tasks ptr = some task → task.cpu = cpu.val)
    (result : scheduler.enqueueOn cpu ptr = .ok next) : next.Consistent none := by
  obtain ⟨task, allocated, -, runnable, rfl⟩ := enqueueOn_eq_ok.mp result
  have before := consistent.view_runnable allocated runnable
  have absent : (scheduler.cpuStates cpu).runQueue.rq.count ptr = 0 :=
    congrFun (congrArg View.copies before) cpu
  have idle : decide ((scheduler.cpuStates cpu).current = some ptr) = false :=
    congrFun (congrArg View.current before) cpu
  apply consistent.replace
  · intro other different
    simp [different.symm]
  · intro other different
    exact FifoRq.count_pushed_of_ne different
  · intro other _
    exact Iff.rfl
  · refine Eq.trans (View.of_queued rfl (home task allocated)) ?_
    rw [before, FifoRq.count_pushed_self, absent, idle]
    apply View.ext
    · rfl
    · exact (Function.update_eq_self ..).symm
    · rfl
  · exact .inr ⟨cpu, home task allocated⟩

/-- Taking a queued task out of its queue leaves it in the hand of the handler. -/
theorem withdraw_consistent (consistent : scheduler.Consistent none)
    (allocated : scheduler.tasks ptr = some task) (queued : task.runState = .kQueued)
    (home : task.cpu = cpu.val) {rest : FifoRq}
    (shrunk : ∀ other, rest.rq.count other =
      (scheduler.cpuStates cpu).runQueue.rq.count other - if other = ptr then 1 else 0) :
    ((scheduler.setCpu cpu ⟨(scheduler.cpuStates cpu).current, rest⟩).put ptr
      { task with runState := .kRunnable }).Consistent (some ptr) := by
  have before := consistent.view_queued allocated queued home
  have listed : (scheduler.cpuStates cpu).runQueue.rq.count ptr = 1 := by
    have here : _ = Function.update (fun _ => 0) cpu 1 cpu :=
      congrFun (congrArg View.copies before) cpu
    rwa [Function.update_self] at here
  have idle : decide ((scheduler.cpuStates cpu).current = some ptr) = false :=
    congrFun (congrArg View.current before) cpu
  apply consistent.replace
  · intro other different
    simp [different.symm]
  · intro other different
    rw [shrunk, if_neg different, Nat.sub_zero]
  · intro other _
    exact Iff.rfl
  · refine Eq.trans (View.of_runnable rfl) ?_
    rw [before, shrunk, if_pos rfl, listed, idle]
    apply View.ext
    · simp [View.away, View.waiting]
    · exact (Function.update_eq_self ..).symm
    · simp [View.away]
  · exact .inr ⟨cpu, home⟩

theorem eraseOn_eq_ok (consistent : scheduler.Consistent none)
    (allocated : scheduler.tasks ptr = some task) (queued : task.runState = .kQueued)
    (home : task.cpu = cpu.val) : scheduler.eraseOn cpu ptr =
      .ok ((scheduler.setCpu cpu ⟨(scheduler.cpuStates cpu).current,
        ⟨(scheduler.cpuStates cpu).runQueue.rq.erase ptr⟩⟩).put ptr
          { task with runState := .kRunnable }) := by
  have listed := consistent.listed_iff.mpr ⟨task, allocated, queued, home⟩
  unfold eraseOn
  dsimp only
  rw [FifoRq.erase_ok allocated queued (consistent.nodup cpu) listed]
  rfl

theorem eraseOn_consistent (consistent : scheduler.Consistent none)
    (allocated : scheduler.tasks ptr = some task) (queued : task.runState = .kQueued)
    (home : task.cpu = cpu.val) (result : scheduler.eraseOn cpu ptr = .ok next) :
    next.Consistent (some ptr) := by
  rw [eraseOn_eq_ok consistent allocated queued home, Except.ok.injEq] at result
  subst result
  apply withdraw_consistent consistent allocated queued home
  intro other
  rw [List.count_erase]
  by_cases same : other = ptr
  · simp [same]
  · simp [same, Ne.symm same]

/-- `Dequeue` on a consistent scheduler: nothing, or the front of the queue. -/
theorem dequeueOn_eq_ok (consistent : scheduler.Consistent none) :
    (scheduler.cpuStates cpu).runQueue.rq = [] ∧
        scheduler.dequeueOn cpu = .ok (none, scheduler) ∨
      ∃ ptr task rest, (scheduler.cpuStates cpu).runQueue.rq = ptr :: rest ∧
        scheduler.tasks ptr = some task ∧ task.runState = .kQueued ∧ task.cpu = cpu.val ∧
        scheduler.dequeueOn cpu = .ok (some ptr, (scheduler.setCpu cpu
          ⟨(scheduler.cpuStates cpu).current, ⟨rest⟩⟩).put ptr
            { task with runState := .kRunnable }) := by
  unfold dequeueOn
  dsimp only
  cases contents : (scheduler.cpuStates cpu).runQueue.rq with
  | nil =>
      refine .inl ⟨rfl, ?_⟩
      rw [FifoRq.dequeue_nil contents]
      have unchanged : scheduler.setCpu cpu (scheduler.cpuStates cpu) = scheduler := by
        unfold setCpu
        rw [Function.update_eq_self]
      exact congrArg (fun next => Except.ok (none, next)) unchanged
  | cons ptr rest =>
      have front : ptr ∈ (scheduler.cpuStates cpu).runQueue.rq := by
        rw [contents]
        exact List.mem_cons_self
      obtain ⟨task, allocated, queued, home⟩ := consistent.listed_iff.mp front
      refine .inr ⟨ptr, task, rest, rfl, allocated, queued, home, ?_⟩
      rw [FifoRq.dequeue_ok contents allocated queued]
      rfl

theorem dequeueOn_consistent (consistent : scheduler.Consistent none) {popped : Option TaskPtr}
    (result : scheduler.dequeueOn cpu = .ok (popped, next)) : next.Consistent popped ∧
      (next.cpuStates cpu).current = (scheduler.cpuStates cpu).current ∧ ∀ ptr, popped = some ptr → ∃ task, next.tasks ptr = some task ∧ task.cpu = cpu.val := by
  cases dequeueOn_eq_ok consistent with
  | inl vacant =>
      cases vacant.2.symm.trans result
      exact ⟨consistent, rfl, nofun⟩
  | inr taken =>
      obtain ⟨ptr, task, rest, contents, allocated, queued, home, popping⟩ := taken
      cases popping.symm.trans result
      refine ⟨?_, ?_, ?_⟩
      · apply withdraw_consistent consistent allocated queued home
        intro other
        rw [contents, List.count_cons]
        by_cases same : ptr = other
        · simp [same]
        · simp [same, Ne.symm same]
      · simp [put, setTasks, setCpu]
      · intro ptr' isPopped
        cases isPopped
        exact ⟨_, Tasks.put_self _, home⟩

/-- What `TaskOffCpu` needs, and what it then does. -/
theorem taskOffCpu_eq_ok {blocked fromSwitchto : Bool} :
    scheduler.taskOffCpu ptr blocked fromSwitchto = .ok next ↔
      ∃ task, ∃ cpu : CpuId, scheduler.tasks ptr = some task ∧ task.cpu = cpu.val ∧
        (task.runState = .kOnCpu ∧ (scheduler.cpuStates cpu).current = some ptr ∧
            next = (scheduler.setCpu cpu ⟨none, (scheduler.cpuStates cpu).runQueue⟩).put ptr
              { task with runState := if blocked then .kBlocked else .kRunnable } ∨
          task.runState = .kBlocked ∧ fromSwitchto = true ∧
            next = scheduler.put ptr
              { task with runState := if blocked then .kBlocked else .kRunnable }) := by
  simp only [taskOffCpu, bind_eq_ok, Tasks.read_eq_ok, cpuStateOf_eq_ok]
  constructor
  · intro found
    obtain ⟨task, allocated, cpu, home, result⟩ := found
    refine ⟨task, cpu, allocated, home, ?_⟩
    split at result
    · next onCpu =>
        simp only [bind_eq_ok, check_eq_ok, Except.ok.injEq] at result
        obtain ⟨-, current, rfl⟩ := result
        exact .inl ⟨onCpu, current, rfl⟩
    · simp only [bind_eq_ok, check_eq_ok, Except.ok.injEq] at result
      obtain ⟨-, switched, -, isBlocked, rfl⟩ := result
      exact .inr ⟨isBlocked, switched, rfl⟩
  · intro found
    obtain ⟨task, cpu, allocated, home, reason⟩ := found
    refine ⟨task, allocated, cpu, home, ?_⟩
    cases reason with
    | inl running =>
        obtain ⟨onCpu, current, rfl⟩ := running
        simp [onCpu, current, check]
    | inr switched =>
        obtain ⟨isBlocked, fromSwitchto, rfl⟩ := switched
        simp [isBlocked, fromSwitchto, check]

theorem taskOffCpu_consistent {blocked fromSwitchto : Bool} (consistent : scheduler.Consistent none)
    (result : scheduler.taskOffCpu ptr blocked fromSwitchto = .ok next) :
    next.Consistent (if blocked then none else some ptr) := by
  obtain ⟨task, cpu, allocated, home, reason⟩ := taskOffCpu_eq_ok.mp result
  have handed : ∀ other, other ≠ ptr →
      ((if blocked then none else some ptr) = some other ↔ none = some other) := by
    intro other different
    cases blocked <;> simp [different.symm]
  have target : View.of (some { task with runState := if blocked then .kBlocked else .kRunnable }) =
      View.away !blocked := by
    cases blocked with
    | false => exact View.of_runnable rfl
    | true => exact View.of_blocked rfl
  have hand : decide ((if blocked then none else some ptr) = some ptr) = !blocked := by
    cases blocked <;> simp
  have located : ({ task with runState := if blocked then .kBlocked else .kRunnable } :
      FifoTask).Located := .inr ⟨cpu, home⟩
  cases reason with
  | inl running =>
      obtain ⟨onCpu, current, rfl⟩ := running
      have before := consistent.view_onCpu allocated onCpu home
      have absent : (scheduler.cpuStates cpu).runQueue.rq.count ptr = 0 :=
        congrFun (congrArg View.copies before) cpu
      apply consistent.replace handed
      · intro other _
        rfl
      · intro other different
        simp [current, different.symm]
      · rw [target, before, absent, hand]
        apply View.ext
        · exact (Function.update_eq_self ..).symm
        · simp [View.away, View.running]
        · rfl
      · exact located
  | inr switched =>
      obtain ⟨isBlocked, -, rfl⟩ := switched
      have before := consistent.view_blocked allocated isBlocked
      apply consistent.store handed
      · rw [target, ← hand]
        exact view_away before _
      · intro task' stored
        cases stored
        exact located

/-- `TaskOnCpu` for the task in hand, or for the current one. -/
theorem taskOnCpu_consistent (consistent : scheduler.Consistent moving)
    (hand : moving = some ptr ∧ (scheduler.cpuStates cpu).current = none ∨
      moving = none ∧ (scheduler.cpuStates cpu).current = some ptr)
    (result : scheduler.taskOnCpu ptr cpu = .ok next) : next.Consistent none := by
  simp only [taskOnCpu, bind_eq_ok, Tasks.read_eq_ok, Except.ok.injEq] at result
  obtain ⟨task, allocated, rfl⟩ := result
  apply consistent.replace
  · intro other different
    cases hand with
    | inl held => simp [held.1, different.symm]
    | inr rests => simp [rests.1]
  · intro other _
    rfl
  · intro other different
    cases hand with
    | inl held => simp [held.2, different.symm]
    | inr rests => simp [rests.2, different.symm]
  · refine Eq.trans (View.of_onCpu rfl rfl) ?_
    cases hand with
    | inl held =>
        obtain ⟨task', allocated', runnable⟩ := consistent.moving_iff.mp held.1
        have before := consistent.view_runnable allocated' runnable
        have absent : (scheduler.cpuStates cpu).runQueue.rq.count ptr = 0 :=
          congrFun (congrArg View.copies before) cpu
        rw [before, absent]
        apply View.ext
        · exact (Function.update_eq_self ..).symm
        · simp [View.away, View.running]
        · rfl
    | inr rests =>
        obtain ⟨task', allocated', onCpu, home⟩ := consistent.current_iff.mp rests.2
        have before := consistent.view_onCpu allocated' onCpu home
        have absent : (scheduler.cpuStates cpu).runQueue.rq.count ptr = 0 :=
          congrFun (congrArg View.copies before) cpu
        rw [before, absent]
        apply View.ext
        · exact (Function.update_eq_self ..).symm
        · simp [View.running]
        · rfl
  · exact .inr ⟨cpu, rfl⟩

end FifoScheduler

end Ghost.Fifo
