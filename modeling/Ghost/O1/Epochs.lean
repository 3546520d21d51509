import Ghost.O1.TwoLevelQueue

/-!
# Epochs

The active array is one epoch: a task that arrives without slice left waits in
the expired array until every task that was active at its arrival is gone. Here
the writes of the scheduler between queue operations also leave the remaining
time of queued tasks alone.
-/

set_option autoImplicit false

namespace Ghost.O1

open Lib

/-- Writes that do not touch the slice of a queued task. -/
def RqOp.KeepsSlices (state : RqState) : RqOp → Prop
  | .write heap => ∀ idx ptr, ptr ∈ state.rq.contents idx → ∀ task,
      state.heap.tasks ptr = some task →
        ∃ task', heap.tasks ptr = some task' ∧ task'.remainingTime = task.remainingTime
  | _ => True

def quietQueues : Machine RqState (RqOp × Option TaskPtr) :=
  runQueues.restrict fun state label => label.1.KeepsSlices state

/-- The task was returned by `Dequeue` or removed by `Erase`. -/
def Removed (ptr : TaskPtr) (labels : List (RqOp × Option TaskPtr)) : Prop :=
  (.dequeue, some ptr) ∈ labels ∨ (.erase ptr, none) ∈ labels

section Steps

variable {state next : RqState} {op : RqOp} {returned : Option TaskPtr} {ptr : TaskPtr}

private theorem mem_grow {array : PrioArray} {idx at_ : Fin kNumPrio} {front : Bool}
    {other : TaskPtr} (member : other ∈ array.queues idx) :
    other ∈ (array.grow at_ ptr front).queues idx := by
  by_cases same : idx = at_
  · subst same
    simp only [PrioArray.grow, Function.update_self]
    exact (PrioArray.pushed_perm _ ptr front).mem_iff.mpr (.tail _ member)
  · simpa [PrioArray.grow, Function.update_of_ne same] using member

/-- What an operation does to the two levels. -/
inductive LevelChange (state next : RqState) : RqOp → Option TaskPtr → Prop
  | gained {op : RqOp} (ptr : TaskPtr) (outside : ∀ idx, ptr ∉ state.rq.contents idx)
      (active : ∀ idx, state.rq.active.queues idx ⊆ next.rq.active.queues idx)
      (expired : ∀ idx, state.rq.expired.queues idx ⊆ next.rq.expired.queues idx)
      (elsewhere : ∀ other, other ≠ ptr → next.heap.tasks other = state.heap.tasks other) :
      LevelChange state next op none
  | popped {returned : Option TaskPtr} (pops : state.rq.view.Pops returned next.rq.view)
      (elsewhere : ∀ other, returned ≠ some other →
        next.heap.tasks other = state.heap.tasks other) :
      LevelChange state next .dequeue returned
  | dropped (ptr : TaskPtr) (drops : next.rq.view = state.rq.view.drop ptr)
      (elsewhere : ∀ other, other ≠ ptr → next.heap.tasks other = state.heap.tasks other) :
      LevelChange state next (.erase ptr) none
  | written (heap : Heap) (same : next = { state with heap := heap }) :
      LevelChange state next (.write heap) none

private theorem growActive_gained {state : RqState} {heap : Heap} {task : O1Task}
    {idx : Fin kNumPrio} {front : Bool} {op : RqOp}
    (outside : ∀ idx, ptr ∉ state.rq.contents idx)
    (stored : heap.tasks = Function.update state.heap.tasks ptr (some task)) :
    LevelChange state
      { heap := heap, rq := { state.rq with active := state.rq.active.grow idx ptr front } }
      op none := by
  refine .gained ptr outside (fun _ _ => mem_grow) (fun _ _ => id) fun other different => ?_
  simp [stored, different]

private theorem growExpired_gained {state : RqState} {heap : Heap} {task : O1Task}
    {idx : Fin kNumPrio} {front : Bool} {op : RqOp}
    (outside : ∀ idx, ptr ∉ state.rq.contents idx)
    (stored : heap.tasks = Function.update state.heap.tasks ptr (some task)) :
    LevelChange state
      { heap := heap, rq := { state.rq with expired := state.rq.expired.grow idx ptr front } }
      op none := by
  refine .gained ptr outside (fun _ _ => id) (fun _ _ => mem_grow) fun other different => ?_
  simp [stored, different]

private theorem perform_levels (sound : state.rq.Sound state.heap) (permitted : op.Permitted state)
    (performed : op.perform state = .ok (next, returned)) : LevelChange state next op returned := by
  cases op with
  | enqueue ptr =>
      simp only [RqOp.perform, bind_eq_ok, Except.ok.injEq, Prod.mk.injEq] at performed
      obtain ⟨⟨heap, rq⟩, result, rfl, rfl⟩ := performed
      obtain ⟨task, idx, -, ⟨-, rfl, rfl⟩ | ⟨-, rfl, rfl⟩⟩ := O1Rq.enqueue_eq_ok.mp result
      · exact growActive_gained permitted.2 rfl
      · exact growExpired_gained permitted.2 rfl
  | enqueueActive ptr =>
      simp only [RqOp.perform, bind_eq_ok, Except.ok.injEq, Prod.mk.injEq] at performed
      obtain ⟨⟨heap, rq⟩, result, rfl, rfl⟩ := performed
      obtain ⟨task, idx, -, rfl, rfl⟩ := O1Rq.enqueueActive_eq_ok.mp result
      exact growActive_gained permitted.2 rfl
  | enqueueExpired ptr =>
      simp only [RqOp.perform, bind_eq_ok, Except.ok.injEq, Prod.mk.injEq] at performed
      obtain ⟨⟨heap, rq⟩, result, rfl, rfl⟩ := performed
      obtain ⟨task, idx, -, rfl, rfl⟩ := O1Rq.enqueueExpired_eq_ok.mp result
      exact growExpired_gained permitted.2 rfl
  | dequeue =>
      simp only [RqOp.perform, bind_eq_ok, Except.ok.injEq, Prod.mk.injEq] at performed
      obtain ⟨⟨heap, rq, popped⟩, result, rfl, rfl⟩ := performed
      obtain ⟨heap', rq', popped', result', pops, -⟩ := sound.dequeue_pops
      cases result.symm.trans result'
      refine .popped pops fun other different => ?_
      rcases sound.dequeue result with ⟨-, -, rfl, -⟩ | ⟨ptr, _, _, rfl, -, -, rfl, -⟩
      · rfl
      · have away : other ≠ ptr := fun same => different (same ▸ rfl)
        simp [away]
  | erase ptr =>
      simp only [RqOp.perform, bind_eq_ok, Except.ok.injEq, Prod.mk.injEq] at performed
      obtain ⟨⟨heap, rq⟩, result, rfl, rfl⟩ := performed
      obtain ⟨idx, member⟩ := permitted
      obtain ⟨heap', rq', result', drops⟩ := sound.erase_drops member
      cases result.symm.trans result'
      obtain ⟨_, _, -, -, -, rfl, -⟩ := sound.erase result
      exact .dropped ptr drops fun other different => by simp [different]
  | write heap =>
      simp only [RqOp.perform, Except.ok.injEq, Prod.mk.injEq] at performed
      obtain ⟨rfl, rfl⟩ := performed
      exact .written heap rfl

/-- `waiting` is expired while `earlier` is still active. -/
def Behind (state : RqState) (waiting earlier : TaskPtr) : Prop :=
  (∃ idx, waiting ∈ state.rq.expired.queues idx) ∧ ∃ idx, earlier ∈ state.rq.active.queues idx

private theorem apart (sound : state.rq.Sound state.heap) {first second : TaskPtr}
    {idx other : Fin kNumPrio} (inActive : first ∈ state.rq.active.queues idx)
    (inExpired : second ∈ state.rq.expired.queues other) : first ≠ second := by
  rintro rfl
  obtain ⟨task, allocated, -, bucket⟩ :=
    sound.queued idx first (List.mem_append_left _ inActive)
  obtain ⟨task', allocated', -, bucket'⟩ :=
    sound.queued other first (List.mem_append_right _ inExpired)
  obtain rfl : task = task' := Option.some.inj (allocated.symm.trans allocated')
  obtain rfl : idx = other := Fin.ext (by omega)
  exact (List.nodup_append.mp (sound.unique idx)).2.2 first inActive first inExpired rfl

/-- While something is active, `Dequeue` returns an active task. -/
theorem dequeue_active (sound : state.rq.Sound state.heap)
    (performed : RqOp.dequeue.perform state = .ok (next, some ptr))
    (occupied : ¬ state.rq.active.queues.Vacant) :
    (∃ idx, ptr ∈ state.rq.active.queues idx) ∧ ∀ idx, ptr ∉ state.rq.expired.queues idx := by
  have change : LevelChange state next .dequeue (some ptr) := perform_levels sound trivial performed
  cases change with
  | popped pops _ =>
      obtain ⟨value, idx, rest, same, head, -⟩ := pops.of_active occupied
      cases same
      have member : ptr ∈ state.rq.active.queues idx := by
        rw [show state.rq.active.queues idx = ptr :: rest from head]
        exact List.mem_cons_self
      exact ⟨⟨idx, member⟩, fun other inExpired => apart sound member inExpired rfl⟩

/-- One step of the epoch: `waiting` is not returned, and stays behind `earlier`
unless that one is removed. -/
theorem Behind.step {waiting earlier : TaskPtr} (behind : Behind state waiting earlier)
    (sound : state.rq.Sound state.heap) (moved : runQueues.step state (op, returned) next)
    (waitingStays : op ≠ .erase waiting) (earlierStays : ¬ Removed earlier [(op, returned)]) :
    Behind next waiting earlier ∧ ¬ (op = .dequeue ∧ returned = some waiting) := by
  obtain ⟨⟨waitingIdx, inExpired⟩, earlierIdx, inActive⟩ := behind
  simp only [Removed, List.mem_singleton, Prod.mk.injEq, not_or, not_and] at earlierStays
  have change := perform_levels sound moved.1 moved.2
  cases change with
  | gained ptr outside active expired elsewhere =>
      exact ⟨⟨⟨waitingIdx, expired _ inExpired⟩, earlierIdx, active _ inActive⟩, by simp⟩
  | popped pops elsewhere =>
      have occupied : ¬ state.rq.active.queues.Vacant := fun vacant =>
        List.not_mem_nil (vacant earlierIdx ▸ inActive)
      obtain ⟨value, idx, rest, rfl, head, view⟩ := pops.of_active occupied
      simp only [O1Rq.view, TwoLevel.mk.injEq] at head view
      have valueActive : value ∈ state.rq.active.queues idx := head ▸ List.mem_cons_self
      have different : earlier ≠ value := fun same => earlierStays.1 rfl (same ▸ rfl)
      refine ⟨⟨⟨waitingIdx, view.2 ▸ inExpired⟩, earlierIdx, ?_⟩, ?_⟩
      · rw [view.1]
        by_cases same : earlierIdx = idx
        · subst same
          rw [Function.update_self]
          exact List.mem_of_ne_of_mem different (head ▸ inActive)
        · rwa [Function.update_of_ne same]
      · rintro ⟨-, same⟩
        exact apart sound valueActive inExpired (Option.some.inj same)
  | dropped ptr drops elsewhere =>
      simp only [O1Rq.view, TwoLevel.drop, TwoLevel.mk.injEq] at drops
      refine ⟨⟨⟨waitingIdx, ?_⟩, earlierIdx, ?_⟩, by simp⟩
      · rw [drops.2]
        exact List.mem_filter.mpr ⟨inExpired, decide_eq_true fun same => waitingStays (same ▸ rfl)⟩
      · rw [drops.1]
        exact List.mem_filter.mpr
          ⟨inActive, decide_eq_true fun same => earlierStays.2 (same ▸ rfl) rfl⟩
  | written heap same =>
      subst same
      exact ⟨⟨⟨waitingIdx, inExpired⟩, earlierIdx, inActive⟩, by simp⟩

/-- A queued task with slice left. -/
def Supplied (state : RqState) (ptr : TaskPtr) : Prop :=
  (∃ idx, ptr ∈ state.rq.contents idx) ∧
    ∃ task, state.heap.tasks ptr = some task ∧ 0 < task.remainingTime

theorem Supplied.step (supplied : Supplied state ptr) (sound : state.rq.Sound state.heap)
    (moved : quietQueues.step state (op, returned) next)
    (stays : ¬ Removed ptr [(op, returned)]) : Supplied next ptr := by
  obtain ⟨⟨idx, member⟩, task, allocated, positive⟩ := supplied
  simp only [Removed, List.mem_singleton, Prod.mk.injEq, not_or, not_and] at stays
  obtain ⟨quiet, permitted, performed⟩ := moved
  have change := perform_levels sound permitted performed
  cases change with
  | gained other outside active expired elsewhere =>
      have different : ptr ≠ other := fun same => outside idx (same ▸ member)
      refine ⟨⟨idx, ?_⟩, task, (elsewhere ptr different).trans allocated, positive⟩
      exact List.append_subset.mpr ⟨fun _ inside => List.mem_append_left _ (active idx inside),
        fun _ inside => List.mem_append_right _ (expired idx inside)⟩ member
  | popped pops elsewhere =>
      have different : returned ≠ some ptr := fun same => stays.1 rfl same.symm
      refine ⟨⟨idx, ?_⟩, task, (elsewhere ptr different).trans allocated, positive⟩
      exact List.mem_append.mpr (pops.mem_of_mem (List.mem_append.mp member) different)
  | dropped other drops elsewhere =>
      have different : ptr ≠ other := fun same => stays.2 (same ▸ rfl) rfl
      refine ⟨⟨idx, ?_⟩, task, (elsewhere ptr different).trans allocated, positive⟩
      simp only [O1Rq.view, TwoLevel.drop, TwoLevel.mk.injEq] at drops
      simp only [O1Rq.contents, drops.1, drops.2, ← List.filter_append, List.mem_filter]
      exact ⟨member, decide_eq_true different⟩
  | written heap same =>
      subst same
      obtain ⟨task', allocated', kept⟩ := quiet idx ptr member task allocated
      exact ⟨⟨idx, member⟩, task', allocated', kept ▸ positive⟩

end Steps

/-! ## Runs -/

private theorem removed_cons {ptr : TaskPtr} {label : RqOp × Option TaskPtr}
    {labels : List (RqOp × Option TaskPtr)} :
    Removed ptr (label :: labels) ↔ Removed ptr [label] ∨ Removed ptr labels := by
  simp only [Removed, List.mem_cons, List.not_mem_nil, or_false]
  tauto

/-- A task stays behind one that is not removed. -/
theorem Behind.run {first last : RqState} {waiting earlier : TaskPtr}
    {labels : List (RqOp × Option TaskPtr)} (run : runQueues.Run first labels last)
    (behind : Behind first waiting earlier) (sound : first.rq.Sound first.heap)
    (waitingStays : (.erase waiting, none) ∉ labels) (earlierStays : ¬ Removed earlier labels) :
    Behind last waiting earlier := by
  induction run with
  | nil => exact behind
  | @cons first next last label labels moved _ ih =>
      obtain ⟨op, returned⟩ := label
      rw [removed_cons, not_or] at earlierStays
      rw [List.mem_cons, not_or] at waitingStays
      have sound' := runQueues_sound_step sound moved
      have notErased : op ≠ .erase waiting := by
        rintro rfl
        obtain ⟨⟨heap, rq⟩, -, result⟩ := bind_eq_ok.mp moved.2
        cases result
        exact waitingStays.1 rfl
      exact ih (behind.step sound moved notErased earlierStays.1).1 sound' waitingStays.2
        earlierStays.2

theorem Supplied.run {first last : RqState} {ptr : TaskPtr}
    {labels : List (RqOp × Option TaskPtr)} (run : quietQueues.Run first labels last)
    (supplied : Supplied first ptr) (sound : first.rq.Sound first.heap)
    (stays : ¬ Removed ptr labels) : Supplied last ptr := by
  induction run with
  | nil => exact supplied
  | @cons first next last label labels moved _ ih =>
      rw [removed_cons, not_or] at stays
      exact ih (supplied.step sound moved stays.1) (runQueues_sound_step sound moved.2) stays.2

/-- Where `Enqueue` puts a task, and with how much time. -/
theorem enqueued_placed {state next : RqState} {ptr : TaskPtr}
    (performed : (RqOp.enqueue ptr).perform state = .ok (next, none)) :
    ∃ task, state.heap.tasks ptr = some task ∧ Supplied next ptr ∧
      (task.remainingTime ≤ 0 → next.rq.active = state.rq.active ∧
        ∃ idx, ptr ∈ next.rq.expired.queues idx) := by
  simp only [RqOp.perform, bind_eq_ok, Except.ok.injEq, Prod.mk.injEq] at performed
  obtain ⟨⟨heap, rq⟩, result, rfl, -⟩ := performed
  obtain ⟨task, idx, able, outcome⟩ := O1Rq.enqueue_eq_ok.mp result
  have inside : ∀ (array : PrioArray) (front : Bool), ptr ∈ (array.grow idx ptr front).queues idx := by
    intro array front
    simp only [PrioArray.grow, Function.update_self]
    exact (PrioArray.pushed_perm _ ptr front).mem_iff.mpr List.mem_cons_self
  refine ⟨task, able.allocated, ?_⟩
  rcases outcome with ⟨positive, rfl, rfl⟩ | ⟨exhausted, rfl, rfl⟩
  · exact ⟨⟨⟨idx, List.mem_append_left _ (inside _ _)⟩, _, Function.update_self .., positive⟩,
      fun exhausted => absurd positive (not_lt.mpr exhausted)⟩
  · refine ⟨⟨⟨idx, List.mem_append_right _ (inside _ _)⟩, _, Function.update_self .., ?_⟩,
      fun _ => ⟨rfl, idx, inside _ _⟩⟩
    simp [O1Task.setRemainingTime, timeSlice]

/-- The order of epochs as seen from one state. -/
structure EpochOrder (state : RqState) : Prop where
  /-- A task enqueued without slice left is not returned before every task that
  was active then has been returned or erased. -/
  waits : ∀ ptr task enqueued labels last next, state.heap.tasks ptr = some task →
    task.remainingTime ≤ 0 → quietQueues.step state (.enqueue ptr, none) enqueued →
    quietQueues.Run enqueued labels last → (.erase ptr, none) ∉ labels →
    quietQueues.step last (.dequeue, some ptr) next →
    ∀ idx earlier, earlier ∈ state.rq.active.queues idx → Removed earlier labels
  activeFirst : ∀ ptr next, quietQueues.step state (.dequeue, some ptr) next →
    (∃ idx, state.rq.active.queues idx ≠ []) →
    (∃ idx, ptr ∈ state.rq.active.queues idx) ∧ ∀ idx, ptr ∉ state.rq.expired.queues idx
  /-- A task queued through `Enqueue` has slice left until it is removed. -/
  supplied : ∀ ptr enqueued labels last,
    quietQueues.step state (.enqueue ptr, none) enqueued →
    quietQueues.Run enqueued labels last → ¬ Removed ptr labels →
    ∃ task, last.heap.tasks ptr = some task ∧ 0 < task.remainingTime

/-- Epochs are ordered from every reachable queue on. -/
theorem epochs_ordered {state : RqState} (reachable : quietQueues.Reachable state) :
    EpochOrder state := by
  have sound := runQueues_sound reachable.of_restrict
  refine ⟨?_, ?_, ?_⟩
  · intro ptr task enqueued labels last next allocated exhausted arrived run stays returned idx
      earlier active
    by_contra remains
    obtain ⟨task', allocated', -, placed⟩ := enqueued_placed arrived.2.2
    obtain rfl : task = task' := Option.some.inj (allocated.symm.trans allocated')
    obtain ⟨sameActive, waitingIdx, waits⟩ := placed exhausted
    have behind : Behind enqueued ptr earlier := ⟨⟨waitingIdx, waits⟩, idx, sameActive ▸ active⟩
    have arrivedSound := runQueues_sound_step sound arrived.2
    have lastSound := run.of_restrict.invariant (fun state => state.rq.Sound state.heap)
      (fun _ _ _ sound moved => runQueues_sound_step sound moved) arrivedSound
    obtain ⟨⟨lastIdx, lastWaits⟩, lastActive⟩ := behind.run run.of_restrict arrivedSound stays remains
    have occupied : ¬ last.rq.active.queues.Vacant := by
      obtain ⟨idx, member⟩ := lastActive
      exact fun vacant => List.not_mem_nil (vacant idx ▸ member)
    exact (dequeue_active lastSound returned.2.2 occupied).2 lastIdx lastWaits
  · intro ptr next returned found
    obtain ⟨idx, occupied⟩ := found
    exact dequeue_active sound returned.2.2 fun vacant => occupied (vacant idx)
  · intro ptr enqueued labels last arrived run stays
    obtain ⟨_, -, supplied, -⟩ := enqueued_placed arrived.2.2
    exact (supplied.run run (runQueues_sound_step sound arrived.2) stays).2

/-! The second task of the pair arrives while the first is active. -/

private def firstGone : RqState where
  heap := pairQueued.heap.put 1 { freshTask 1 5 with runState := .kRunnable }
  rq := { pairQueued.rq with active := pairQueued.rq.active.shrink niceZero [] }

private def pairGone : RqState where
  heap := firstGone.heap.put 2
    { freshTask 2 0 with runState := .kRunnable, remainingTime := timeSlice }
  rq := { firstGone.rq.swap with active := firstGone.rq.expired.shrink niceZero [] }

private theorem firstGone_step : quietQueues.step pairQueued (.dequeue, some 1) firstGone := by
  have lowest : pairQueued.rq.turned.active.queues.Lowest niceZero := ⟨by decide, by decide⟩
  have result : pairQueued.rq.dequeue pairQueued.heap = _ :=
    O1Rq.dequeue_front (runQueues_sound pairQueued_reachable).coherent lowest rfl rfl rfl
  refine ⟨trivial, trivial, ?_⟩
  simp only [RqOp.perform, result]
  rfl

private theorem pairGone_step : quietQueues.step firstGone (.dequeue, some 2) pairGone := by
  have sound := runQueues_sound_step (runQueues_sound pairQueued_reachable) firstGone_step.2
  have lowest : firstGone.rq.turned.active.queues.Lowest niceZero := ⟨by decide, by decide⟩
  have result : firstGone.rq.dequeue firstGone.heap = _ :=
    O1Rq.dequeue_front sound.coherent lowest rfl rfl rfl
  refine ⟨trivial, trivial, ?_⟩
  simp only [RqOp.perform, result]
  rfl

theorem epochs_ordered_pair :
    quietQueues.Reachable oneQueued ∧ EpochOrder oneQueued ∧
      quietQueues.step oneQueued (.enqueue 2, none) pairQueued ∧
      quietQueues.Run pairQueued [(.dequeue, some 1)] firstGone ∧
      quietQueues.step firstGone (.dequeue, some 2) pairGone := by
  have arrives : quietQueues.Reachable oneQueued := by
    refine ⟨pairWaiting, [(.enqueue 1, none)], rfl,
      .cons ⟨trivial, ⟨⟨freshTask 1 5, niceZero, rfl, by decide, rfl, rfl⟩, ?_⟩, rfl⟩ (.nil _)⟩
    decide
  refine ⟨arrives, epochs_ordered arrives,
    ⟨trivial, ⟨⟨freshTask 2 0, niceZero, rfl, by decide, rfl, rfl⟩, ?_⟩, rfl⟩,
    .cons firstGone_step (.nil _), pairGone_step⟩
  decide

end Ghost.O1
