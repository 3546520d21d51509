import Ghost.Lib.BucketQueue

/-!
# Tasks and priority arrays

The data of `schedulers/o1/o1_scheduler.h`: tasks, the time-slice accounting of
one task, and `PrioArray`. A failed `CHECK` aborts the agent and is a fault of
its own; reading an empty deque or a freed task is undefined behaviour.
Durations and points in time are integer nanoseconds.
-/

set_option autoImplicit false

namespace Ghost.O1

open Lib

inductive Fault where
  | check
  | undefinedBehaviour
  deriving DecidableEq, Repr

/-- `CHECK` and friends. -/
def check (condition : Prop) [Decidable condition] : Except Fault Unit :=
  if condition then .ok () else .error .check

@[simp] theorem check_eq_ok {condition : Prop} [Decidable condition] {result : Unit} :
    check condition = .ok result ↔ condition := by
  unfold check
  split <;> simp [*]

/-- A sequence succeeds when both parts do. -/
@[simp] theorem bind_eq_ok {Value Result : Type} {source : Except Fault Value}
    {continuation : Value → Except Fault Result} {result : Result} :
    (source >>= continuation) = .ok result ↔
      ∃ value, source = .ok value ∧ continuation value = .ok result := by
  cases source with
  | error fault => simp [bind, Except.bind]
  | ok value => simp [bind, Except.bind]

inductive O1TaskState where
  | kBlocked
  | kRunnable
  | kQueued
  | kOnCpu
  deriving DecidableEq, Repr

/-- Tasks are named by their address. -/
abbrev TaskPtr := Nat

structure O1Task where
  gtid : Nat
  seqnum : Nat := 0
  staticPriority : Int := 120
  runState : O1TaskState := .kBlocked
  cpu : Int := -1
  preempted : Bool := false
  prioBoost : Bool := false
  runtimeAtLastPick : Int := 0
  remainingTime : Int := 0
  deriving DecidableEq, Repr

/-- The slice that `SetRemainingTime` grants, 10 ms. -/
def timeSlice : Int := 10000000

namespace O1Task

def setRemainingTime (task : O1Task) : O1Task := { task with remainingTime := timeSlice }

def setRuntimeAtLastPick (task : O1Task) (now : Int) : O1Task :=
  { task with runtimeAtLastPick := now }

/-- `UpdateRemainingTime`, with the two clock reads of the call. Only a tick
reads the clock again and reports an exhausted slice. -/
def updateRemainingTime (task : O1Task) (isOff : Bool) (now later : Int) : O1Task × Bool :=
  let task := { task with remainingTime := task.remainingTime - (now - task.runtimeAtLastPick) }
  if isOff then (task, false)
  else (task.setRuntimeAtLastPick later, decide (task.remainingTime ≤ 0))

end O1Task

/-! ## The task heap -/

/-- A call that the accounting of time slices is about. -/
inductive Accounting where
  /-- `O1Schedule` was entered at this time. -/
  | entered (at_ : Int)
  /-- `SetRemainingTime`. -/
  | grant (task : TaskPtr)
  /-- `TaskOnCpu`, with the clock it read. -/
  | onCpu (task : TaskPtr) (now : Int)
  /-- `TaskOffCpu` of a task on a CPU, with the clock it read. -/
  | offCpu (task : TaskPtr) (now : Int)
  deriving DecidableEq, Repr

/-- The allocated tasks, and a record of accounting calls, newest first, that no
operation reads. -/
structure Heap where
  tasks : TaskPtr → Option O1Task
  record : List Accounting

namespace Heap

variable (heap : Heap) (ptr : TaskPtr)

def read : Except Fault O1Task :=
  match heap.tasks ptr with
  | some task => .ok task
  | none => .error .undefinedBehaviour

def put (task : O1Task) : Heap := { heap with tasks := Function.update heap.tasks ptr (some task) }

def free : Heap := { heap with tasks := Function.update heap.tasks ptr none }

def note (entry : Accounting) : Heap := { heap with record := entry :: heap.record }

/-- Store a task with a fresh slice. -/
def putGranted (task : O1Task) : Heap := (heap.put ptr task.setRemainingTime).note (.grant ptr)

variable {heap ptr}

@[simp] theorem read_eq_ok {task : O1Task} : heap.read ptr = .ok task ↔ heap.tasks ptr = some task := by
  unfold read
  cases heap.tasks ptr <;> simp

@[simp] theorem put_tasks (task : O1Task) :
    (heap.put ptr task).tasks = Function.update heap.tasks ptr (some task) := rfl

@[simp] theorem note_tasks (entry : Accounting) : (heap.note entry).tasks = heap.tasks := rfl

@[simp] theorem putGranted_tasks (task : O1Task) :
    (heap.putGranted ptr task).tasks =
      Function.update heap.tasks ptr (some task.setRemainingTime) := rfl

end Heap

/-! ## Priority arrays -/

def kNumPrio : Nat := 40

def kBasePrio : Int := 100

/-- The bucket of the default priority. -/
def niceZero : Fin kNumPrio := ⟨20, by decide⟩

structure PrioArray where
  bitmap : BitVec 64
  queues : Buckets kNumPrio TaskPtr

namespace PrioArray

def init : PrioArray := { bitmap := 0, queues := fun _ => [] }

def empty (array : PrioArray) : Bool := array.bitmap = 0

def size (array : PrioArray) : Nat :=
  (List.finRange kNumPrio).foldl (fun total i => total + (array.queues i).length) 0

/-- The bucket of a task, within the bounds that `push` and `erase` check. -/
def bucketOf (task : O1Task) : Except Fault (Fin kNumPrio) :=
  let idx := task.staticPriority - kBasePrio
  if inRange : 0 ≤ idx ∧ idx < kNumPrio then .ok ⟨idx.toNat, by omega⟩
  else .error .check

/-- The deque after a push at either end. -/
def pushed (queue : List TaskPtr) (ptr : TaskPtr) (front : Bool) : List TaskPtr :=
  if front then ptr :: queue else queue ++ [ptr]

/-- What an insertion leaves: one deque longer, its bit set. -/
def grow (array : PrioArray) (idx : Fin kNumPrio) (ptr : TaskPtr) (front : Bool) : PrioArray :=
  { bitmap := array.bitmap ||| (1#64 <<< idx.val)
    queues := Function.update array.queues idx (pushed (array.queues idx) ptr front) }

def push (array : PrioArray) (ptr : TaskPtr) (task : O1Task) (front : Bool) :
    Except Fault PrioArray := do
  let idx ← bucketOf task
  .ok (array.grow idx ptr front)

/-- What a removal leaves: the rest of one deque, its bit cleared when empty. -/
def shrink (array : PrioArray) (idx : Fin kNumPrio) (rest : List TaskPtr) : PrioArray :=
  { bitmap := if rest = [] then array.bitmap &&& ~~~(1#64 <<< idx.val) else array.bitmap
    queues := Function.update array.queues idx rest }

/-- A bit beyond the buckets, or a set bit over an empty deque, would be read
out of bounds. -/
def pop (array : PrioArray) : Except Fault (Option TaskPtr × PrioArray) :=
  if array.bitmap = 0 then .ok (none, array)
  else
    let idx := array.bitmap.ctz.toNat
    if inRange : idx < kNumPrio then
      match array.queues ⟨idx, inRange⟩ with
      | [] => .error .undefinedBehaviour
      | task :: rest => .ok (some task, array.shrink ⟨idx, inRange⟩ rest)
    else .error .undefinedBehaviour

/-- The array without the task, if its bucket holds it. -/
def erase (array : PrioArray) (ptr : TaskPtr) (task : O1Task) :
    Except Fault (Option PrioArray) := do
  let idx ← bucketOf task
  let queue := array.queues idx
  if ptr ∈ queue then .ok (some (array.shrink idx (queue.erase ptr))) else .ok none

/-! ## Bitmap and deques in step -/

/-- Bit `i` is set exactly when deque `i` is occupied, and no bit from 40 on. -/
def Coherent (array : PrioArray) : Prop := Mirrors array.bitmap array.queues

theorem coherent_init : init.Coherent := by
  intro i
  simp [init]

theorem empty_iff {array : PrioArray} (coherent : array.Coherent) :
    array.empty = true ↔ array.queues.Vacant := by
  simp only [empty, decide_eq_true_eq]
  exact coherent.eq_zero_iff

theorem size_eq_zero {array : PrioArray} : array.size = 0 ↔ array.queues.Vacant := by
  rw [size, foldl_length_eq_sum, sum_length_eq_zero]

theorem bucketOf_eq_ok {task : O1Task} {idx : Fin kNumPrio} :
    bucketOf task = .ok idx ↔ task.staticPriority = kBasePrio + idx.val := by
  have bound := idx.isLt
  unfold bucketOf
  dsimp only
  split
  · next inRange =>
      rw [Except.ok.injEq, Fin.ext_iff]
      dsimp only
      omega
  · next outside =>
      simp only [reduceCtorEq, false_iff]
      omega

theorem pushed_perm (queue : List TaskPtr) (ptr : TaskPtr) (front : Bool) :
    (pushed queue ptr front).Perm (ptr :: queue) := by
  cases front with
  | true => exact .refl _
  | false => exact List.perm_append_singleton ptr queue

theorem push_eq_ok {array array' : PrioArray} {ptr : TaskPtr} {task : O1Task} {front : Bool} :
    array.push ptr task front = .ok array' ↔
      ∃ idx : Fin kNumPrio, task.staticPriority = kBasePrio + idx.val ∧
        array.grow idx ptr front = array' := by
  simp only [push, bind_eq_ok, bucketOf_eq_ok, Except.ok.injEq]

theorem Coherent.grow {array : PrioArray} (coherent : array.Coherent) (idx : Fin kNumPrio)
    (ptr : TaskPtr) (front : Bool) : (array.grow idx ptr front).Coherent := by
  refine Mirrors.set coherent (by decide) idx ?_
  cases front <;> simp [pushed]

theorem Coherent.shrink {array : PrioArray} (coherent : array.Coherent) {idx : Fin kNumPrio}
    (occupied : array.queues idx ≠ []) (rest : List TaskPtr) : (array.shrink idx rest).Coherent :=
  Mirrors.replace coherent idx occupied rest

/-- `pop` on coherent arrays: no read is out of bounds, and the front of the
lowest occupied deque is returned. -/
theorem pop_spec {array : PrioArray} (coherent : array.Coherent) :
    array.queues.Vacant ∧ array.pop = .ok (none, array) ∨
      ∃ idx task rest, array.queues.Lowest idx ∧ array.queues idx = task :: rest ∧
        array.pop = .ok (some task, array.shrink idx rest) := by
  by_cases zero : array.bitmap = 0
  · exact .inl ⟨coherent.eq_zero_iff.mp zero, if_pos zero⟩
  · obtain ⟨inRange, lowest⟩ := coherent.ctz_lowest zero
    obtain ⟨task, rest, front⟩ := List.exists_cons_of_ne_nil lowest.occupied
    refine .inr ⟨_, task, rest, lowest, front, ?_⟩
    simp only [pop, if_neg zero, dif_pos inRange]
    rw [front]

/-- `erase` finds the task exactly in its own bucket. -/
theorem erase_spec {array : PrioArray} {ptr : TaskPtr} {task : O1Task} {idx : Fin kNumPrio}
    (bucket : task.staticPriority = kBasePrio + idx.val) :
    array.erase ptr task =
      .ok (if ptr ∈ array.queues idx then some (array.shrink idx ((array.queues idx).erase ptr))
        else none) := by
  rw [erase, bucketOf_eq_ok.mpr bucket]
  change (if ptr ∈ array.queues idx then _ else _) = _
  split <;> rfl

end PrioArray

end Ghost.O1
