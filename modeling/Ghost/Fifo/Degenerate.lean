import Ghost.Fifo.RunQueue
import Ghost.O1.TwoLevelQueue

/-!
# The O(1) run queue as a FIFO run queue

Both run queues under one sequence of operations. If all tasks are queued with
one priority and with slice left, then one deque of the active array is all that
`O1Rq` ever uses, and it is the deque of `FifoRq`.
-/

set_option autoImplicit false

namespace Ghost.Fifo

open Lib
open O1 (Fault TaskPtr Heap O1Rq O1Task O1TaskState RqState RqOp kNumPrio kBasePrio bind_eq_ok)

/-- The state of the same name. -/
def FifoTaskState.o1 : FifoTaskState → O1TaskState
  | .kBlocked => .kBlocked
  | .kRunnable => .kRunnable
  | .kQueued => .kQueued
  | .kOnCpu => .kOnCpu

private theorem FifoTaskState.o1_injective : Function.Injective FifoTaskState.o1 := by
  intro first second same
  cases first <;> cases second <;> first | rfl | cases same

/-- What both kinds of task have in common, and both queues read. -/
structure Alike (o1 : O1Task) (fifo : FifoTask) : Prop where
  runState : o1.runState = fifo.runState.o1
  cpu : o1.cpu = fifo.cpu
  prioBoost : o1.prioBoost = fifo.prioBoost

def HeapsAlike (heap : Heap) (tasks : Tasks) : Prop :=
  ∀ ptr, Option.Rel Alike (heap.tasks ptr) (tasks ptr)

/-- Both queues, each with its own tasks at the same addresses. -/
structure Pair where
  o1 : RqState
  tasks : Tasks
  fifo : FifoRq

inductive QueueOp where
  | enqueue (ptr : TaskPtr)
  | dequeue
  | erase (ptr : TaskPtr)
  /-- Writes of the schedulers between two queue operations. -/
  | write (heap : Heap) (tasks : Tasks)

namespace QueueOp

/-- The operation on the O(1) queue, with the task that it returns. -/
def onO1 (state : RqState) : QueueOp → Except Fault (RqState × Option TaskPtr)
  | .enqueue ptr => (RqOp.enqueue ptr).perform state
  | .dequeue => RqOp.dequeue.perform state
  | .erase ptr => (RqOp.erase ptr).perform state
  | .write heap _ => (RqOp.write heap).perform state

/-- The operation on the FIFO queue, with the task that it returns. -/
def onFifo (tasks : Tasks) (fifo : FifoRq) :
    QueueOp → Except Fault ((Tasks × FifoRq) × Option TaskPtr)
  | .enqueue ptr => do
      let (tasks, fifo) ← fifo.enqueue tasks ptr
      .ok ((tasks, fifo), none)
  | .dequeue => do
      let (tasks, fifo, popped) ← fifo.dequeue tasks
      .ok ((tasks, fifo), popped)
  | .erase ptr => do
      let (tasks, fifo) ← fifo.erase tasks ptr
      .ok ((tasks, fifo), none)
  | .write _ tasks => .ok ((tasks, fifo), none)

/-- The preconditions: tasks are enqueued runnable, with the one priority and with
slice left; a task that is erased is queued; and between operations a queued task
keeps its state and its priority. -/
def Permitted (idx : Fin kNumPrio) (pair : Pair) : QueueOp → Prop
  | .enqueue ptr => ∃ task, O1Rq.Enqueueable pair.o1.heap ptr task idx ∧ 0 < task.remainingTime
  | .dequeue => True
  | .erase ptr => ∃ idx, ptr ∈ pair.o1.rq.contents idx
  | .write heap tasks => HeapsAlike heap tasks ∧ (RqOp.write heap).Permitted pair.o1

section Succeeds

variable {state : RqState} {heap : Heap} {rq : O1Rq} {tasks tasks' : Tasks} {fifo fifo' : FifoRq}
  {ptr : TaskPtr} {popped : Option TaskPtr}

private theorem onO1_enqueue (pushing : state.rq.enqueue state.heap ptr = .ok (heap, rq)) :
    onO1 state (.enqueue ptr) = .ok (⟨heap, rq⟩, none) := by
  simp only [onO1, RqOp.perform, pushing]
  rfl

private theorem onO1_dequeue (popping : state.rq.dequeue state.heap = .ok (heap, rq, popped)) :
    onO1 state .dequeue = .ok (⟨heap, rq⟩, popped) := by
  simp only [onO1, RqOp.perform, popping]
  rfl

private theorem onO1_erase (erasing : state.rq.erase state.heap ptr = .ok (heap, rq)) :
    onO1 state (.erase ptr) = .ok (⟨heap, rq⟩, none) := by
  simp only [onO1, RqOp.perform, erasing]
  rfl

private theorem onFifo_enqueue (pushing : fifo.enqueue tasks ptr = .ok (tasks', fifo')) :
    onFifo tasks fifo (.enqueue ptr) = .ok ((tasks', fifo'), none) := by
  simp only [onFifo, pushing]
  rfl

private theorem onFifo_dequeue (popping : fifo.dequeue tasks = .ok (tasks', fifo', popped)) :
    onFifo tasks fifo .dequeue = .ok ((tasks', fifo'), popped) := by
  simp only [onFifo, popping]
  rfl

private theorem onFifo_erase (erasing : fifo.erase tasks ptr = .ok (tasks', fifo')) :
    onFifo tasks fifo (.erase ptr) = .ok ((tasks', fifo'), none) := by
  simp only [onFifo, erasing]
  rfl

end Succeeds

end QueueOp

/-- A queue operation with what each of the two queues returned. -/
structure Answered where
  op : QueueOp
  fromO1 : Option TaskPtr
  fromFifo : Option TaskPtr

/-- Both queues, started empty, under the same operations. -/
def pairs (idx : Fin kNumPrio) : Machine Pair Answered where
  initial pair := pair.o1.rq = .init ∧ pair.fifo = .init ∧ HeapsAlike pair.o1.heap pair.tasks
  step pair label next := label.op.Permitted idx pair ∧
    label.op.onO1 pair.o1 = .ok (next.o1, label.fromO1) ∧
    label.op.onFifo pair.tasks pair.fifo = .ok ((next.tasks, next.fifo), label.fromFifo)

/-- The queued tasks in the order in which `Dequeue` would return them. -/
def sequence (rq : O1Rq) : List TaskPtr :=
  (List.finRange kNumPrio).flatMap rq.active.queues ++
    (List.finRange kNumPrio).flatMap rq.expired.queues

/-! ## The simulation -/

/-- One deque of the active array is the FIFO queue; all others are empty. -/
structure Degenerate (idx : Fin kNumPrio) (pair : Pair) : Prop where
  sound : pair.o1.rq.Sound pair.o1.heap
  active : pair.o1.rq.active.queues = Function.update (fun _ => []) idx pair.fifo.rq
  expired : pair.o1.rq.expired.queues.Vacant
  alike : HeapsAlike pair.o1.heap pair.tasks

section Alike

variable {heap : Heap} {tasks : Tasks} {ptr : TaskPtr} {task : O1Task} {twin : FifoTask}

private theorem HeapsAlike.exists_twin (alike : HeapsAlike heap tasks)
    (allocated : heap.tasks ptr = some task) :
    ∃ twin, tasks ptr = some twin ∧ Alike task twin := by
  have here := alike ptr
  rw [allocated] at here
  cases stored : tasks ptr with
  | none =>
      rw [stored] at here
      cases here
  | some twin =>
      rw [stored] at here
      cases here with
      | some same => exact ⟨twin, rfl, same⟩

/-- Storing alike tasks at one address. -/
theorem HeapsAlike.put (alike : HeapsAlike heap tasks) (same : Alike task twin) :
    HeapsAlike (heap.put ptr task) (tasks.put ptr twin) := by
  intro other
  by_cases here : other = ptr
  · rw [here, Heap.put_tasks, Function.update_self, Tasks.put_self]
    exact .some same
  · rw [Heap.put_tasks, Function.update_of_ne here, Tasks.put_of_ne _ here]
    exact alike other

end Alike

namespace Degenerate

variable {idx : Fin kNumPrio} {pair : Pair} {ptr : TaskPtr} (same : Degenerate idx pair)

include same

private theorem active_idx : pair.o1.rq.active.queues idx = pair.fifo.rq := by
  rw [same.active, Function.update_self]

private theorem contents_idx : pair.o1.rq.contents idx = pair.fifo.rq := by
  rw [O1Rq.contents, same.active_idx, same.expired idx, List.append_nil]

private theorem mem_iff {other : Fin kNumPrio} :
    ptr ∈ pair.o1.rq.contents other ↔ other = idx ∧ ptr ∈ pair.fifo.rq := by
  by_cases here : other = idx
  · subst here
    rw [same.contents_idx]
    simp
  · rw [O1Rq.contents, same.active, Function.update_of_ne here, same.expired other]
    simp [here]

private theorem nodup : pair.fifo.rq.Nodup := by
  rw [← same.contents_idx]
  exact same.sound.unique idx

/-- A task of the queue, in both worlds. -/
theorem listed (member : ptr ∈ pair.fifo.rq) : ∃ task twin, pair.o1.heap.tasks ptr = some task ∧
    pair.tasks ptr = some twin ∧ Alike task twin ∧ task.runState = .kQueued ∧
    twin.runState = .kQueued ∧ task.staticPriority = kBasePrio + idx.val := by
  obtain ⟨task, allocated, queued, bucket⟩ :=
    same.sound.queued idx ptr (same.mem_iff.mpr ⟨rfl, member⟩)
  obtain ⟨twin, stored, alike⟩ := same.alike.exists_twin allocated
  have queued' : twin.runState = .kQueued :=
    FifoTaskState.o1_injective (alike.runState.symm.trans queued)
  exact ⟨task, twin, allocated, stored, alike, queued, queued', bucket⟩

/-- The operation succeeds on both queues, with one answer, and the queues stay in
step. -/
def Matched (idx : Fin kNumPrio) (pair : Pair) (op : QueueOp) : Prop :=
  ∃ next returned, op.onO1 pair.o1 = .ok (next.o1, returned) ∧
    op.onFifo pair.tasks pair.fifo = .ok ((next.tasks, next.fifo), returned) ∧ Degenerate idx next

omit same in
private theorem pushed_eq (rq : FifoRq) (front : Bool) :
    (rq.pushed ptr front).rq = O1.PrioArray.pushed rq.rq ptr front := by
  cases front <;> rfl

private theorem enqueue {task : O1Task} (able : O1Rq.Enqueueable pair.o1.heap ptr task idx)
    (left : 0 < task.remainingTime) : Matched idx pair (.enqueue ptr) := by
  obtain ⟨twin, stored, alike⟩ := same.alike.exists_twin able.allocated
  have runnable : twin.runState = .kRunnable :=
    FifoTaskState.o1_injective (alike.runState.symm.trans able.runnable)
  have pushing : pair.o1.rq.enqueue pair.o1.heap ptr = .ok (_, _) :=
    O1Rq.enqueue_eq_ok.mpr ⟨task, idx, able, .inl ⟨left, rfl, rfl⟩⟩
  have pushing' : pair.fifo.enqueue pair.tasks ptr = .ok (_, _) :=
    FifoRq.enqueue_eq_ok.mpr ⟨twin, stored, alike.cpu ▸ able.cpu, runnable, rfl, rfl⟩
  obtain ⟨-, -, -, sound, -, -⟩ := same.sound.enqueue pushing
  refine ⟨⟨_, _, _⟩, none, QueueOp.onO1_enqueue pushing, QueueOp.onFifo_enqueue pushing', sound, ?_,
    same.expired, ?_⟩
  · simp only [O1.PrioArray.grow, same.active, Function.update_self, Function.update_idem,
      alike.prioBoost]
    rw [← pushed_eq]
    rfl
  · exact same.alike.put ⟨rfl, alike.cpu, alike.prioBoost⟩

private theorem dequeue : Matched idx pair .dequeue := by
  cases contents : pair.fifo.rq with
  | nil =>
      have vacant : pair.o1.rq.contents.Vacant := by
        intro other
        rw [List.eq_nil_iff_forall_not_mem]
        intro ptr member
        have listed := (same.mem_iff.mp member).2
        rw [contents] at listed
        cases listed
      refine ⟨pair, none, ?_, QueueOp.onFifo_dequeue (FifoRq.dequeue_nil contents), same⟩
      · obtain ⟨-, nothing⟩ | ⟨other, ptr, rest, lowest, front, -⟩ :=
          O1Rq.dequeue_spec same.sound.coherent pair.o1.heap
        · exact QueueOp.onO1_dequeue nothing
        · have none := pair.o1.rq.contents_turned other
          rw [vacant other, List.perm_nil, O1Rq.contents, front] at none
          cases none
  | cons ptr rest =>
      obtain ⟨task, twin, allocated, stored, alike, queued, queued', -⟩ :=
        same.listed (contents ▸ List.mem_cons_self : ptr ∈ pair.fifo.rq)
      have front : pair.o1.rq.active.queues idx = ptr :: rest := same.active_idx.trans contents
      have occupied : pair.o1.rq.active.empty ≠ true := by
        intro empty
        rw [(O1.PrioArray.empty_iff same.sound.coherent.1).mp empty idx] at front
        cases front
      have turned : pair.o1.rq.turned = pair.o1.rq := if_neg occupied
      have lowest : pair.o1.rq.active.queues.Lowest idx := by
        constructor
        · rw [front]
          exact List.cons_ne_nil ptr rest
        · intro other below
          rw [same.active, Function.update_of_ne below.ne]
      have popping := O1Rq.dequeue_front same.sound.coherent (by rwa [turned]) (by rwa [turned])
        allocated queued
      rw [turned] at popping
      have popping' := FifoRq.dequeue_ok contents stored queued'
      obtain ⟨nothing, -⟩ | ⟨_, _, _, isPopped, -, -, -, -, sound, -⟩ := same.sound.dequeue popping
      · cases nothing
      · refine ⟨⟨_, _, _⟩, some ptr, QueueOp.onO1_dequeue popping, QueueOp.onFifo_dequeue popping', sound,
          ?_, same.expired, ?_⟩
        · simp only [O1.PrioArray.shrink, same.active, Function.update_idem]
        · exact same.alike.put ⟨rfl, alike.cpu, alike.prioBoost⟩

private theorem erase (member : ptr ∈ pair.fifo.rq) : Matched idx pair (.erase ptr) := by
  obtain ⟨task, twin, allocated, stored, alike, queued, queued', bucket⟩ := same.listed member
  have inActive : ptr ∈ pair.o1.rq.active.queues idx := by rwa [same.active_idx]
  have erasing : pair.o1.rq.erase pair.o1.heap ptr = .ok (_, _) :=
    O1Rq.erase_eq_ok.mpr ⟨task, idx, allocated, queued, bucket, rfl, .inl ⟨inActive, rfl⟩⟩
  have erasing' := FifoRq.erase_ok stored queued' same.nodup member
  obtain ⟨_, _, -, -, -, -, -, sound, -⟩ := same.sound.erase erasing
  refine ⟨⟨_, _, _⟩, none, QueueOp.onO1_erase erasing, QueueOp.onFifo_erase erasing', sound, ?_,
    same.expired, ?_⟩
  · simp only [O1.PrioArray.shrink, same.active, Function.update_self, Function.update_idem]
  · exact same.alike.put ⟨rfl, alike.cpu, alike.prioBoost⟩

/-- Every permitted operation. -/
theorem matched {op : QueueOp} (permitted : op.Permitted idx pair) : Matched idx pair op := by
  cases op with
  | enqueue ptr =>
      obtain ⟨task, able, left⟩ := permitted
      exact same.enqueue able left
  | dequeue => exact same.dequeue
  | erase ptr =>
      obtain ⟨other, member⟩ := permitted
      exact same.erase (same.mem_iff.mp member).2
  | write heap tasks =>
      obtain ⟨alike, kept⟩ := permitted
      exact ⟨⟨⟨heap, pair.o1.rq⟩, tasks, pair.fifo⟩, none, rfl, rfl, same.sound.congr kept,
        same.active, same.expired, alike⟩

/-- One step: the answers are the same, and the queues stay in step. -/
theorem step {label : Answered} {next : Pair} (moved : (pairs idx).step pair label next) :
    label.fromO1 = label.fromFifo ∧ Degenerate idx next := by
  obtain ⟨permitted, onO1, onFifo⟩ := moved
  obtain ⟨next', returned, onO1', onFifo', same'⟩ := same.matched permitted
  obtain ⟨isO1, fromO1⟩ := Prod.mk.inj (Except.ok.inj (onO1.symm.trans onO1'))
  obtain ⟨isFifo, fromFifo⟩ := Prod.mk.inj (Except.ok.inj (onFifo.symm.trans onFifo'))
  obtain ⟨isTasks, isRq⟩ := Prod.mk.inj isFifo
  have isNext : next = next' := by
    cases next
    cases next'
    cases isO1
    cases isTasks
    cases isRq
    rfl
  rw [isNext]
  exact ⟨fromO1.trans fromFifo.symm, same'⟩

/-- A whole run, by induction on its steps. -/
theorem run {labels : List Answered} {last : Pair} (run : (pairs idx).Run pair labels last) :
    (∀ label ∈ labels, label.fromO1 = label.fromFifo) ∧ Degenerate idx last := by
  induction run with
  | nil => exact ⟨nofun, same⟩
  | cons moved _ ih =>
      obtain ⟨answer, same'⟩ := same.step moved
      obtain ⟨answers, same''⟩ := ih same'
      exact ⟨List.forall_mem_cons.mpr ⟨answer, answers⟩, same''⟩

omit same in
theorem of_initial (starts : (pairs idx).initial pair) : Degenerate idx pair := by
  obtain ⟨o1Empty, fifoEmpty, alike⟩ := starts
  refine ⟨?_, ?_, ?_, alike⟩
  · rw [o1Empty]
    exact O1Rq.sound_init _
  · rw [o1Empty, fifoEmpty]
    exact (Function.update_eq_self idx (fun _ => [])).symm
  · rw [o1Empty]
    exact fun _ => rfl

end Degenerate

/-! ## What can be observed -/

private theorem size_eq_length (rq : O1Rq) : rq.size = (sequence rq).length := by
  unfold O1Rq.size O1.PrioArray.size sequence
  rw [foldl_length_eq_length, foldl_length_eq_length, List.length_append]

private theorem Degenerate.sequence_eq {idx : Fin kNumPrio} {pair : Pair}
    (same : Degenerate idx pair) :
    sequence pair.o1.rq = pair.fifo.rq := by
  have expired : pair.o1.rq.expired.queues = fun _ => [] := funext same.expired
  rw [sequence, same.active, flatMap_update (List.nodup_finRange _), if_pos (List.mem_finRange idx),
    expired, List.flatMap_eq_nil_iff.mpr (fun _ _ => rfl), List.append_nil]

/-- The two queues, in whatever state they are, cannot be told apart. -/
structure Indistinguishable (idx : Fin kNumPrio) (pair : Pair) : Prop where
  sequence : sequence pair.o1.rq = pair.fifo.rq
  size : pair.o1.rq.size = pair.fifo.size
  empty : pair.o1.rq.empty = pair.fifo.empty
  runState : ∀ ptr, (pair.o1.heap.tasks ptr).map (·.runState) =
    (pair.tasks ptr).map (·.runState.o1)
  /-- The next operation succeeds on both and returns the same. -/
  answer : ∀ op : QueueOp, op.Permitted idx pair → ∃ o1 tasks fifo returned,
    op.onO1 pair.o1 = .ok (o1, returned) ∧
    op.onFifo pair.tasks pair.fifo = .ok ((tasks, fifo), returned)

private theorem Degenerate.indistinguishable {idx : Fin kNumPrio} {pair : Pair}
    (same : Degenerate idx pair) : Indistinguishable idx pair := by
  have size : pair.o1.rq.size = pair.fifo.size := by
    rw [size_eq_length, same.sequence_eq, FifoRq.size]
  constructor
  · exact same.sequence_eq
  · exact size
  · rw [O1Rq.empty, FifoRq.empty, size]
  · intro ptr
    have alike := same.alike ptr
    generalize pair.o1.heap.tasks ptr = task, pair.tasks ptr = twin at alike
    cases alike with
    | none => rfl
    | some alike => exact congrArg some alike.runState
  · intro op permitted
    obtain ⟨next, returned, onO1, onFifo, -⟩ := same.matched permitted
    exact ⟨next.o1, next.tasks, next.fifo, returned, onO1, onFifo⟩

/-- Along every run from empty queues, both return the same tasks and look the same. -/
theorem o1Rq_degenerates_to_fifoRq {idx : Fin kNumPrio} {first last : Pair}
    {labels : List Answered} (starts : (pairs idx).initial first)
    (run : (pairs idx).Run first labels last) :
    (∀ label ∈ labels, label.fromO1 = label.fromFifo) ∧ Indistinguishable idx last := by
  obtain ⟨answers, same⟩ := (Degenerate.of_initial starts).run run
  exact ⟨answers, same.indistinguishable⟩

/-! ## A run -/

/-- One operation on both queues, or nothing if one of them faults. -/
def Pair.perform (pair : Pair) (op : QueueOp) : Pair × Answered :=
  match op.onO1 pair.o1, op.onFifo pair.tasks pair.fifo with
  | .ok (o1, fromO1), .ok ((tasks, fifo), fromFifo) => (⟨o1, tasks, fifo⟩, ⟨op, fromO1, fromFifo⟩)
  | _, _ => (pair, ⟨op, none, none⟩)

private theorem Degenerate.perform {idx : Fin kNumPrio} {pair : Pair} (same : Degenerate idx pair)
    (op : QueueOp) (permitted : op.Permitted idx pair) :
    (pairs idx).step pair (pair.perform op).2 (pair.perform op).1 := by
  obtain ⟨next, returned, onO1, onFifo, -⟩ := same.matched permitted
  have performed : pair.perform op = (next, ⟨op, returned, returned⟩) := by
    unfold Pair.perform
    rw [onO1, onFifo]
  rw [performed]
  exact ⟨permitted, onO1, onFifo⟩

/-- Two runnable tasks, the second boosted. -/
def twoRunnable : Pair where
  o1 :=
    { heap :=
        { tasks ptr :=
            if ptr = 1 ∨ ptr = 2 then
              some { gtid := 100 + ptr, staticPriority := 120, runState := .kRunnable, cpu := 0,
                     prioBoost := ptr = 2, remainingTime := O1.timeSlice }
            else none
          record := [] }
      rq := .init }
  tasks ptr :=
    if ptr = 1 ∨ ptr = 2 then
      some { gtid := 100 + ptr, runState := .kRunnable, cpu := 0, prioBoost := ptr = 2 }
    else none
  fifo := .init

theorem twoRunnable_initial : (pairs O1.niceZero).initial twoRunnable := by
  refine ⟨rfl, rfl, ?_⟩
  intro ptr
  simp only [twoRunnable]
  split
  · exact .some ⟨rfl, rfl, rfl⟩
  · exact .none

/-- The boosted task passes the other one, which is then erased from the back. -/
theorem o1Rq_degenerates_to_fifoRq_boosted : ∃ labels last,
    (pairs O1.niceZero).Run twoRunnable labels last ∧
      labels.map (·.fromFifo) = [none, none, none, some 2] ∧
      (∀ label ∈ labels, label.fromO1 = label.fromFifo) ∧ Indistinguishable O1.niceZero last := by
  have same := Degenerate.of_initial twoRunnable_initial
  have first := same.perform (.enqueue 1) ⟨_, ⟨rfl, by decide, rfl, rfl⟩, by decide⟩
  have same' := (same.step first).2
  have second := same'.perform (.enqueue 2) ⟨_, ⟨rfl, by decide, rfl, rfl⟩, by decide⟩
  have same'' := (same'.step second).2
  have third := same''.perform (.erase 1) ⟨O1.niceZero, by decide⟩
  have same''' := (same''.step third).2
  have fourth := same'''.perform .dequeue trivial
  have run := Machine.Run.cons first (.cons second (.cons third (.cons fourth (.nil _))))
  exact ⟨_, _, run, by decide +kernel, o1Rq_degenerates_to_fifoRq twoRunnable_initial run⟩

end Ghost.Fifo
