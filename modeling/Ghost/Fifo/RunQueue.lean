import Ghost.O1.Scheduler

/-!
# The run queue of the FIFO scheduler

`FifoTask` and `FifoRq` of `schedulers/fifo/per_cpu`: one deque of tasks. Faults,
task addresses and CPUs are those of the O(1) scheduler.
-/

set_option autoImplicit false

namespace Ghost.Fifo

open Lib
open O1 (Fault TaskPtr check)

inductive FifoTaskState where
  | kBlocked
  | kRunnable
  | kQueued
  | kOnCpu
  deriving DecidableEq, Repr

structure FifoTask where
  gtid : Nat
  seqnum : Nat := 0
  runState : FifoTaskState := .kBlocked
  cpu : Int := -1
  preempted : Bool := false
  prioBoost : Bool := false
  deriving DecidableEq, Repr

/-- The allocated tasks. -/
abbrev Tasks : Type := TaskPtr → Option FifoTask

namespace Tasks

variable (tasks : Tasks) (ptr : TaskPtr)

def read : Except Fault FifoTask :=
  match tasks ptr with
  | some task => .ok task
  | none => .error .undefinedBehaviour

def put (task : FifoTask) : Tasks := Function.update tasks ptr (some task)

def free : Tasks := Function.update tasks ptr none

variable {tasks ptr}

@[simp] theorem read_eq_ok {task : FifoTask} : tasks.read ptr = .ok task ↔ tasks ptr = some task := by
  unfold read
  cases tasks ptr <;> simp

@[simp] theorem put_self (task : FifoTask) : tasks.put ptr task ptr = some task :=
  Function.update_self ..

theorem put_of_ne {other : TaskPtr} (task : FifoTask) (different : other ≠ ptr) :
    tasks.put ptr task other = tasks other := Function.update_of_ne different ..

end Tasks

structure FifoRq where
  rq : List TaskPtr

namespace FifoRq

def init : FifoRq := ⟨[]⟩

def size (rq : FifoRq) : Nat := rq.rq.length

def empty (rq : FifoRq) : Bool := rq.size = 0

def enqueue (rq : FifoRq) (tasks : Tasks) (ptr : TaskPtr) : Except Fault (Tasks × FifoRq) := do
  let task ← tasks.read ptr
  check (0 ≤ task.cpu)
  check (task.runState = .kRunnable)
  let tasks := tasks.put ptr { task with runState := .kQueued }
  if task.prioBoost then .ok (tasks, ⟨ptr :: rq.rq⟩) else .ok (tasks, ⟨rq.rq ++ [ptr]⟩)

def dequeue (rq : FifoRq) (tasks : Tasks) : Except Fault (Tasks × FifoRq × Option TaskPtr) :=
  match rq.rq with
  | [] => .ok (tasks, rq, none)
  | ptr :: rest => do
      let task ← tasks.read ptr
      check (task.runState = .kQueued)
      .ok (tasks.put ptr { task with runState := .kRunnable }, ⟨rest⟩, some ptr)

/-- The position that `Erase` finds: the back, or the first one before it. -/
def find (rq : FifoRq) (ptr : TaskPtr) : Option Nat :=
  if rq.rq.getLast? = some ptr then some (rq.size - 1)
  else (rq.rq.take (rq.size - 1)).idxOf? ptr

def erase (rq : FifoRq) (tasks : Tasks) (ptr : TaskPtr) : Except Fault (Tasks × FifoRq) := do
  let task ← tasks.read ptr
  check (task.runState = .kQueued)
  match rq.find ptr with
  | some pos => .ok (tasks.put ptr { task with runState := .kRunnable }, ⟨rq.rq.eraseIdx pos⟩)
  | none => .error .check

/-! ## What each operation does -/

variable {rq rq' : FifoRq} {tasks tasks' : Tasks} {ptr : TaskPtr}

/-- The deque after `push_front` or `push_back`. -/
def pushed (rq : FifoRq) (ptr : TaskPtr) (front : Bool) : FifoRq :=
  if front then ⟨ptr :: rq.rq⟩ else ⟨rq.rq ++ [ptr]⟩

theorem enqueue_eq_ok : rq.enqueue tasks ptr = .ok (tasks', rq') ↔
    ∃ task, tasks ptr = some task ∧ 0 ≤ task.cpu ∧ task.runState = .kRunnable ∧
      tasks' = tasks.put ptr { task with runState := .kQueued } ∧
      rq' = rq.pushed ptr task.prioBoost := by
  simp only [enqueue, O1.bind_eq_ok, Tasks.read_eq_ok, O1.check_eq_ok]
  constructor
  · intro holds
    obtain ⟨task, allocated, -, placed, -, runnable, result⟩ := holds
    refine ⟨task, allocated, placed, runnable, ?_⟩
    split at result
    · next boosted =>
        cases result
        exact ⟨rfl, by rw [pushed, if_pos boosted]⟩
    · next plain =>
        cases result
        exact ⟨rfl, by rw [pushed, if_neg plain]⟩
  · intro holds
    obtain ⟨task, allocated, placed, runnable, isTasks, isRq⟩ := holds
    refine ⟨task, allocated, (), placed, (), runnable, ?_⟩
    subst isTasks isRq
    unfold pushed
    cases task.prioBoost <;> rfl

theorem count_pushed_self (front : Bool) :
    (rq.pushed ptr front).rq.count ptr = rq.rq.count ptr + 1 := by
  cases front <;> simp [pushed]

theorem count_pushed_of_ne {other : TaskPtr} {front : Bool} (different : other ≠ ptr) :
    (rq.pushed ptr front).rq.count other = rq.rq.count other := by
  cases front <;> simp [pushed, different.symm]

/-- A deque without duplicates has one position for a task, so both searches of
`Erase` come to the same. -/
theorem eraseIdx_find (unique : rq.rq.Nodup) (listed : ptr ∈ rq.rq) :
    ∃ pos, rq.find ptr = some pos ∧ rq.rq.eraseIdx pos = rq.rq.erase ptr := by
  obtain ⟨items⟩ := rq
  unfold find size
  dsimp only at *
  cases items using List.reverseRecOn with
  | nil => cases listed
  | append_singleton front last =>
      have prefixed : (front ++ [last]).take ((front ++ [last]).length - 1) = front := by simp
      rw [prefixed, List.getLast?_concat]
      by_cases back : last = ptr
      · subst back
        have absent : last ∉ front := by
          have parts := List.nodup_append.mp unique
          intro member
          exact parts.2.2 last member last List.mem_cons_self rfl
        refine ⟨front.length, ?_, ?_⟩
        · rw [if_pos rfl]
          simp
        · rw [List.erase_append_right _ absent, List.erase_cons_head,
            List.eraseIdx_append_of_length_le (Nat.le_refl _), Nat.sub_self]
          rfl
      · have inFront : ptr ∈ front := by
          cases List.mem_append.mp listed with
          | inl found => exact found
          | inr found => exact absurd (List.mem_singleton.mp found).symm back
        obtain ⟨pos, found⟩ := Option.isSome_iff_exists.mp (List.isSome_idxOf?.mpr inFront)
        obtain ⟨bound, -⟩ := List.idxOf?_eq_some_iff.mp found
        refine ⟨pos, ?_, ?_⟩
        · rw [if_neg (fun same => back (Option.some.inj same))]
          exact found
        · rw [List.eraseIdx_append_of_lt_length bound, List.erase_append_left _ inFront,
            List.erase_eq_eraseIdx, found]

theorem erase_ok {task : FifoTask} (allocated : tasks ptr = some task)
    (queued : task.runState = .kQueued) (unique : rq.rq.Nodup) (listed : ptr ∈ rq.rq) :
    rq.erase tasks ptr =
      .ok (tasks.put ptr { task with runState := .kRunnable }, ⟨rq.rq.erase ptr⟩) := by
  obtain ⟨pos, found, erased⟩ := rq.eraseIdx_find unique listed
  unfold erase
  simp only [O1.bind_eq_ok, Tasks.read_eq_ok, O1.check_eq_ok]
  refine ⟨task, allocated, (), queued, ?_⟩
  rw [found]
  dsimp only
  rw [erased]

theorem dequeue_ok {task : FifoTask} {rest : List TaskPtr} (front : rq.rq = ptr :: rest)
    (allocated : tasks ptr = some task) (queued : task.runState = .kQueued) :
    rq.dequeue tasks =
      .ok (tasks.put ptr { task with runState := .kRunnable }, ⟨rest⟩, some ptr) := by
  unfold dequeue
  rw [front]
  simp only [O1.bind_eq_ok, Tasks.read_eq_ok, O1.check_eq_ok]
  exact ⟨task, allocated, (), queued, rfl⟩

theorem dequeue_nil (vacant : rq.rq = []) : rq.dequeue tasks = .ok (tasks, rq, none) := by
  unfold dequeue
  rw [vacant]

end FifoRq

end Ghost.Fifo
