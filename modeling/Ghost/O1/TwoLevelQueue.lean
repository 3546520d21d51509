import Ghost.O1.RunQueue

/-!
# The run queue as a two-level priority queue

Sequences of queue operations under the preconditions that the scheduler
establishes. Between calls the scheduler may write any task, but a queued task
keeps its state and its priority. Along every such sequence the bitmaps mirror
the deques, no `CHECK` fails, and the operations act as on two levels of plain
bucket queues.
-/

set_option autoImplicit false

namespace Ghost.O1

open Lib

structure RqState where
  heap : Heap
  rq : O1Rq

inductive RqOp where
  | enqueue (ptr : TaskPtr)
  | enqueueActive (ptr : TaskPtr)
  | enqueueExpired (ptr : TaskPtr)
  | dequeue
  | erase (ptr : TaskPtr)
  /-- Writes of the scheduler between two queue operations. -/
  | write (heap : Heap)

/-- One operation: the state afterwards and the task returned by a dequeue. -/
def RqOp.perform (state : RqState) : RqOp → Except Fault (RqState × Option TaskPtr)
  | .enqueue ptr => do
      let (heap, rq) ← state.rq.enqueue state.heap ptr
      .ok ({ heap := heap, rq := rq }, none)
  | .enqueueActive ptr => do
      let (heap, rq) ← state.rq.enqueueActive state.heap ptr
      .ok ({ heap := heap, rq := rq }, none)
  | .enqueueExpired ptr => do
      let (heap, rq) ← state.rq.enqueueExpired state.heap ptr
      .ok ({ heap := heap, rq := rq }, none)
  | .dequeue => do
      let (heap, rq, popped) ← state.rq.dequeue state.heap
      .ok ({ heap := heap, rq := rq }, popped)
  | .erase ptr => do
      let (heap, rq) ← state.rq.erase state.heap ptr
      .ok ({ heap := heap, rq := rq }, none)
  | .write heap => .ok ({ state with heap := heap }, none)

/-- A runnable task of a valid priority, not queued yet. -/
def RqState.MayEnqueue (state : RqState) (ptr : TaskPtr) : Prop :=
  (∃ task idx, O1Rq.Enqueueable state.heap ptr task idx) ∧ ∀ idx, ptr ∉ state.rq.contents idx

def RqOp.Permitted (state : RqState) : RqOp → Prop
  | .enqueue ptr => state.MayEnqueue ptr
  | .enqueueActive ptr => state.MayEnqueue ptr
  | .enqueueExpired ptr => state.MayEnqueue ptr
  | .dequeue => True
  | .erase ptr => ∃ idx, ptr ∈ state.rq.contents idx
  | .write heap => ∀ idx ptr, ptr ∈ state.rq.contents idx → ∀ task,
      state.heap.tasks ptr = some task →
        ∃ task', heap.tasks ptr = some task' ∧ task'.runState = task.runState ∧
          task'.staticPriority = task.staticPriority

/-- The life of one run queue. -/
def runQueues : Machine RqState (RqOp × Option TaskPtr) where
  initial state := state.rq = .init
  step state label next :=
    label.1.Permitted state ∧ label.1.perform state = .ok (next, label.2)

/-! ## Soundness along runs -/

namespace O1Rq

section Grown

variable {rq : O1Rq} {heap : Heap} {ptr : TaskPtr} {task : O1Task} {idx : Fin kNumPrio}

theorem Sound.enqueueActive {rq' : O1Rq} {heap' : Heap} (sound : rq.Sound heap)
    (result : rq.enqueueActive heap ptr = .ok (heap', rq')) : rq'.Sound heap' := by
  obtain ⟨task, idx, able, rfl, rfl⟩ := enqueueActive_eq_ok.mp result
  exact sound.gained (rq.gains_growActive idx ptr task.prioBoost)
    ⟨sound.coherent.1.grow idx ptr _, sound.coherent.2⟩
    (sound.not_mem able.allocated (by simp [able.runnable])) _ rfl able.bucket

theorem Sound.enqueueExpired {rq' : O1Rq} {heap' : Heap} (sound : rq.Sound heap)
    (result : rq.enqueueExpired heap ptr = .ok (heap', rq')) : rq'.Sound heap' := by
  obtain ⟨task, idx, able, rfl, rfl⟩ := enqueueExpired_eq_ok.mp result
  have stored := sound.gained (rq.gains_growExpired idx ptr task.prioBoost)
    ⟨sound.coherent.1, sound.coherent.2.grow idx ptr _⟩
    (sound.not_mem able.allocated (by simp [able.runnable]))
    { task with runState := .kQueued }.setRemainingTime rfl able.bucket
  exact stored.congr fun idx ptr _ task allocated => ⟨task, allocated, rfl, rfl⟩

end Grown

end O1Rq

theorem runQueues_sound_step {state next : RqState} {label : RqOp × Option TaskPtr}
    (sound : state.rq.Sound state.heap) (moved : runQueues.step state label next) :
    next.rq.Sound next.heap := by
  obtain ⟨op, returned⟩ := label
  obtain ⟨permitted, performed⟩ := moved
  cases op with
  | enqueue ptr =>
      simp only [RqOp.perform, bind_eq_ok, Except.ok.injEq, Prod.mk.injEq] at performed
      obtain ⟨⟨heap, rq⟩, result, rfl, -⟩ := performed
      obtain ⟨_, _, _, sound', -⟩ := sound.enqueue result
      exact sound'
  | enqueueActive ptr =>
      simp only [RqOp.perform, bind_eq_ok, Except.ok.injEq, Prod.mk.injEq] at performed
      obtain ⟨⟨heap, rq⟩, result, rfl, -⟩ := performed
      exact sound.enqueueActive result
  | enqueueExpired ptr =>
      simp only [RqOp.perform, bind_eq_ok, Except.ok.injEq, Prod.mk.injEq] at performed
      obtain ⟨⟨heap, rq⟩, result, rfl, -⟩ := performed
      exact sound.enqueueExpired result
  | dequeue =>
      simp only [RqOp.perform, bind_eq_ok, Except.ok.injEq, Prod.mk.injEq] at performed
      obtain ⟨⟨heap, rq, popped⟩, result, rfl, -⟩ := performed
      rcases sound.dequeue result with ⟨-, -, rfl, rfl⟩ | ⟨_, _, _, -, -, -, -, -, sound', -⟩
      · exact sound
      · exact sound'
  | erase ptr =>
      simp only [RqOp.perform, bind_eq_ok, Except.ok.injEq, Prod.mk.injEq] at performed
      obtain ⟨⟨heap, rq⟩, result, rfl, -⟩ := performed
      obtain ⟨_, _, -, -, -, -, -, sound', -⟩ := sound.erase result
      exact sound'
  | write heap =>
      simp only [RqOp.perform, Except.ok.injEq, Prod.mk.injEq] at performed
      obtain ⟨rfl, -⟩ := performed
      exact sound.congr permitted

theorem runQueues_sound {state : RqState} (reachable : runQueues.Reachable state) :
    state.rq.Sound state.heap := by
  refine reachable.invariant (fun state => state.rq.Sound state.heap) ?_ ?_
  · intro state starts
    rw [show state.rq = .init from starts]
    exact O1Rq.sound_init state.heap
  · exact fun _ _ _ => runQueues_sound_step

/-! ## Refinement -/

/-- The deques without the bitmaps. -/
def O1Rq.view (rq : O1Rq) : TwoLevel kNumPrio TaskPtr :=
  { active := rq.active.queues, expired := rq.expired.queues }

section Operations

variable {rq rq' : O1Rq} {heap heap' : Heap} {ptr : TaskPtr}

/-- `Dequeue` always succeeds on sound queues, and pops the abstract queue. -/
theorem O1Rq.Sound.dequeue_pops (sound : rq.Sound heap) :
    ∃ heap' rq' popped, rq.dequeue heap = .ok (heap', rq', popped) ∧
      rq.view.Pops popped rq'.view ∧ (popped = none ↔ rq.contents.Vacant) := by
  rcases O1Rq.dequeue_spec sound.coherent heap with ⟨vacant, nothing⟩ |
    ⟨idx, ptr, rest, lowest, front, something⟩
  · obtain ⟨activeVacant, expiredVacant⟩ := O1Rq.vacant_contents.mp vacant
    exact ⟨heap, rq, none, nothing, .nothing activeVacant expiredVacant, by simp [vacant]⟩
  · have member : ptr ∈ rq.contents idx := by
      refine (rq.contents_turned idx).mem_iff.mp ?_
      simp [O1Rq.contents, front]
    obtain ⟨task, allocated, queued, -⟩ := sound.queued idx ptr member
    refine ⟨heap.put ptr { task with runState := .kRunnable },
      { rq.turned with active := rq.turned.active.shrink idx rest }, some ptr, ?_, ?_, ?_⟩
    · rw [something]
      simp only [bind_eq_ok, Heap.read_eq_ok, check_eq_ok]
      exact ⟨task, allocated, (), queued, rfl⟩
    · have turn : rq.view.Turn rq.turned.view := by
        have activeEmpty := PrioArray.empty_iff sound.coherent.1
        unfold O1Rq.turned
        split
        · next empty => exact .trade (activeEmpty.mp empty)
        · next occupied => exact .stay (activeEmpty.not.mp occupied)
      exact .front turn lowest front
    · simp only [reduceCtorEq, false_iff]
      intro vacant
      rw [vacant idx] at member
      exact absurd member List.not_mem_nil

private theorem filter_ne_of_not_mem {queue : List TaskPtr} (absent : ptr ∉ queue) :
    queue.filter (fun other => decide (other ≠ ptr)) = queue := by
  rw [List.filter_eq_self]
  intro other member
  exact decide_eq_true fun same => absent (same ▸ member)

private theorem erase_eq_filter {queue : List TaskPtr} (unique : queue.Nodup) :
    queue.erase ptr = queue.filter (fun other => decide (other ≠ ptr)) := by
  rw [unique.erase_eq_filter]
  refine List.filter_congr fun other _ => ?_
  rw [bne, beq_eq_decide, ← decide_not]

/-- `Erase` of a queued task succeeds and drops exactly it. -/
theorem O1Rq.Sound.erase_drops (sound : rq.Sound heap) {idx : Fin kNumPrio}
    (member : ptr ∈ rq.contents idx) :
    ∃ heap' rq', rq.erase heap ptr = .ok (heap', rq') ∧ rq'.view = rq.view.drop ptr := by
  obtain ⟨task, allocated, queued, bucket⟩ := sound.queued idx ptr member
  have unique := List.nodup_append.mp (sound.unique idx)
  have elsewhere : ∀ other, other ≠ idx → ptr ∉ rq.contents other := by
    intro other different inOther
    obtain ⟨task', allocated', -, bucket'⟩ := sound.queued other ptr inOther
    obtain rfl : task = task' := Option.some.inj (allocated.symm.trans allocated')
    exact different (Fin.ext (by omega))
  simp only [O1Rq.contents, List.mem_append, not_or] at member elsewhere
  have dropped : ∀ (array : PrioArray) (here : ptr ∈ array.queues idx)
      (nodup : (array.queues idx).Nodup)
      (away : ∀ other, other ≠ idx → ptr ∉ array.queues other),
      (array.shrink idx ((array.queues idx).erase ptr)).queues =
        fun other => (array.queues other).filter (fun item => decide (item ≠ ptr)) := by
    intro array here nodup away
    funext other
    by_cases same : other = idx
    · subst same
      simp only [PrioArray.shrink, Function.update_self, erase_eq_filter nodup]
    · simp only [PrioArray.shrink, Function.update_of_ne same, filter_ne_of_not_mem (away other same)]
  by_cases inActive : ptr ∈ rq.active.queues idx
  · have notExpired : ptr ∉ rq.expired.queues idx := fun inExpired =>
      unique.2.2 ptr inActive ptr inExpired rfl
    refine ⟨_, _, O1Rq.erase_eq_ok.mpr ⟨task, idx, allocated, queued, bucket, rfl,
      .inl ⟨inActive, rfl⟩⟩, ?_⟩
    simp only [O1Rq.view, TwoLevel.drop, TwoLevel.mk.injEq]
    refine ⟨dropped rq.active inActive unique.1 fun other different => (elsewhere other different).1,
      ?_⟩
    funext other
    by_cases same : other = idx
    · rw [same, filter_ne_of_not_mem notExpired]
    · rw [filter_ne_of_not_mem (elsewhere other same).2]
  · have inExpired : ptr ∈ rq.expired.queues idx := member.resolve_left inActive
    refine ⟨_, _, O1Rq.erase_eq_ok.mpr ⟨task, idx, allocated, queued, bucket, rfl,
      .inr ⟨inActive, inExpired, rfl⟩⟩, ?_⟩
    simp only [O1Rq.view, TwoLevel.drop, TwoLevel.mk.injEq]
    refine ⟨?_, dropped rq.expired inExpired unique.2.1 fun other different =>
      (elsewhere other different).2⟩
    funext other
    by_cases same : other = idx
    · rw [same, filter_ne_of_not_mem inActive]
    · rw [filter_ne_of_not_mem (elsewhere other same).1]

end Operations

/-- What every state of a run queue guarantees. -/
structure RefinesTwoLevel (state : RqState) : Prop where
  activeBits : ∀ i, state.rq.active.bitmap.getLsbD i = true ↔
    ∃ inRange : i < kNumPrio, state.rq.active.queues ⟨i, inRange⟩ ≠ []
  expiredBits : ∀ i, state.rq.expired.bitmap.getLsbD i = true ↔
    ∃ inRange : i < kNumPrio, state.rq.expired.queues ⟨i, inRange⟩ ≠ []
  performs : ∀ op : RqOp, op.Permitted state →
    ∃ next returned, op.perform state = .ok (next, returned)
  empty : state.rq.empty = true ↔ ∃ next, RqOp.dequeue.perform state = .ok (next, none)
  dequeue : ∀ next returned, RqOp.dequeue.perform state = .ok (next, returned) →
    state.rq.view.Pops returned next.rq.view
  erase : ∀ ptr next returned, (RqOp.erase ptr).perform state = .ok (next, returned) →
    next.rq.view = state.rq.view.drop ptr
  enqueue : ∀ ptr next returned, (RqOp.enqueue ptr).perform state = .ok (next, returned) →
    ∃ (task : O1Task) (idx : Fin kNumPrio), O1Rq.Enqueueable state.heap ptr task idx ∧
      next.rq.view =
        if 0 < task.remainingTime then
          ⟨Function.update state.rq.view.active idx
            (PrioArray.pushed (state.rq.view.active idx) ptr task.prioBoost), state.rq.view.expired⟩
        else
          ⟨state.rq.view.active, Function.update state.rq.view.expired idx
            (PrioArray.pushed (state.rq.view.expired idx) ptr task.prioBoost)⟩

/-- Every reachable run queue refines the two-level queue. -/
theorem runQueues_refine {state : RqState} (reachable : runQueues.Reachable state) :
    RefinesTwoLevel state := by
  have sound := runQueues_sound reachable
  obtain ⟨heap', rq', popped, dequeued, pops, nullIff⟩ := sound.dequeue_pops
  have performed : RqOp.dequeue.perform state = .ok ({ heap := heap', rq := rq' }, popped) := by
    simp only [RqOp.perform, bind_eq_ok]
    exact ⟨_, dequeued, rfl⟩
  refine ⟨sound.coherent.1, sound.coherent.2, fun op permitted => ?_, ?_, ?_, ?_, ?_⟩
  · cases op with
    | enqueue ptr =>
        obtain ⟨⟨task, idx, able⟩, -⟩ := permitted
        simp only [RqOp.perform]
        by_cases positive : 0 < task.remainingTime
        · rw [O1Rq.enqueue_eq_ok.mpr ⟨task, idx, able, .inl ⟨positive, rfl, rfl⟩⟩]
          exact ⟨_, _, rfl⟩
        · rw [O1Rq.enqueue_eq_ok.mpr ⟨task, idx, able, .inr ⟨not_lt.mp positive, rfl, rfl⟩⟩]
          exact ⟨_, _, rfl⟩
    | enqueueActive ptr =>
        obtain ⟨⟨task, idx, able⟩, -⟩ := permitted
        simp only [RqOp.perform]
        rw [O1Rq.enqueueActive_eq_ok.mpr ⟨task, idx, able, rfl, rfl⟩]
        exact ⟨_, _, rfl⟩
    | enqueueExpired ptr =>
        obtain ⟨⟨task, idx, able⟩, -⟩ := permitted
        simp only [RqOp.perform]
        rw [O1Rq.enqueueExpired_eq_ok.mpr ⟨task, idx, able, rfl, rfl⟩]
        exact ⟨_, _, rfl⟩
    | dequeue => exact ⟨_, _, performed⟩
    | erase ptr =>
        obtain ⟨idx, member⟩ := permitted
        obtain ⟨heap', rq', erased, -⟩ := sound.erase_drops member
        simp only [RqOp.perform]
        rw [erased]
        exact ⟨_, _, rfl⟩
    | write heap => exact ⟨_, _, rfl⟩
  · rw [O1Rq.empty_iff, ← nullIff]
    constructor
    · rintro rfl
      exact ⟨_, performed⟩
    · intro found
      obtain ⟨next, result⟩ := found
      rw [performed] at result
      cases result
      rfl
  · intro next returned result
    rw [performed] at result
    cases result
    exact pops
  · intro ptr next returned result
    simp only [RqOp.perform, bind_eq_ok, Except.ok.injEq, Prod.mk.injEq] at result
    obtain ⟨⟨heap₁, rq₁⟩, erased, rfl, -⟩ := result
    obtain ⟨_, _, _, _, _, _, _, _, gains⟩ := sound.erase erased
    obtain ⟨heap₂, rq₂, erased', dropped⟩ :=
      sound.erase_drops (gains.mem_iff.mpr (.inr ⟨rfl, rfl⟩))
    rw [erased] at erased'
    cases erased'
    exact dropped
  · intro ptr next returned result
    simp only [RqOp.perform, bind_eq_ok, Except.ok.injEq, Prod.mk.injEq] at result
    obtain ⟨⟨heap₁, rq₁⟩, enqueued, rfl, -⟩ := result
    obtain ⟨task, idx, able, outcome⟩ := O1Rq.enqueue_eq_ok.mp enqueued
    refine ⟨task, idx, able, ?_⟩
    rcases outcome with ⟨positive, -, rfl⟩ | ⟨exhausted, -, rfl⟩
    · rw [if_pos positive]
      rfl
    · rw [if_neg (not_lt.mpr exhausted)]
      rfl

/-! A queue that holds one task with slice left and one without. -/

def freshTask (gtid : Nat) (remaining : Int) : O1Task :=
  { gtid := gtid, runState := .kRunnable, cpu := 0, remainingTime := remaining }

def pairWaiting : RqState where
  heap := { tasks := fun ptr => if ptr = 1 then some (freshTask 1 5) else
      if ptr = 2 then some (freshTask 2 0) else none
            record := [] }
  rq := .init

def oneQueued : RqState where
  heap := pairWaiting.heap.put 1 { freshTask 1 5 with runState := .kQueued }
  rq := { pairWaiting.rq with active := pairWaiting.rq.active.grow niceZero 1 false }

def pairQueued : RqState where
  heap := oneQueued.heap.putGranted 2 { freshTask 2 0 with runState := .kQueued }
  rq := { oneQueued.rq with expired := oneQueued.rq.expired.grow niceZero 2 false }

theorem pairQueued_reachable : runQueues.Reachable pairQueued := by
  refine ⟨pairWaiting, [(.enqueue 1, none), (.enqueue 2, none)], rfl,
    .cons ⟨⟨⟨freshTask 1 5, niceZero, rfl, by decide, rfl, rfl⟩, ?_⟩, rfl⟩
      (.cons ⟨⟨⟨freshTask 2 0, niceZero, rfl, by decide, rfl, rfl⟩, ?_⟩, rfl⟩ (.nil _))⟩
  · decide
  · decide

/-- The refinement at a queue with both levels occupied. -/
theorem runQueues_refine_pair :
    runQueues.Reachable pairQueued ∧ pairQueued.rq.contents niceZero = [1, 2] ∧
      RefinesTwoLevel pairQueued :=
  ⟨pairQueued_reachable, rfl, runQueues_refine pairQueued_reachable⟩

end Ghost.O1
