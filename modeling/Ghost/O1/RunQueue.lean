import Ghost.Lib.Machine
import Ghost.O1.PrioArray

/-!
# The run queue

`O1Rq` keeps the tasks with slice left in one priority array and those that have
used it up in another, and swaps the two when the first runs empty. The lock of
the queue makes each operation atomic; `Swap` is only called inside `Dequeue`,
where the lock is held.
-/

set_option autoImplicit false

namespace Ghost.O1

open Lib

structure O1Rq where
  active : PrioArray
  expired : PrioArray

namespace O1Rq

def init : O1Rq := { active := .init, expired := .init }

def size (rq : O1Rq) : Nat := rq.active.size + rq.expired.size

def empty (rq : O1Rq) : Bool := rq.size = 0

def swap (rq : O1Rq) : O1Rq := { active := rq.expired, expired := rq.active }

def enqueue (rq : O1Rq) (heap : Heap) (ptr : TaskPtr) : Except Fault (Heap × O1Rq) := do
  let task ← heap.read ptr
  check (0 ≤ task.cpu)
  check (task.runState = .kRunnable)
  let task := { task with runState := .kQueued }
  if 0 < task.remainingTime then
    let active ← rq.active.push ptr task task.prioBoost
    .ok (heap.put ptr task, { rq with active := active })
  else
    let expired ← rq.expired.push ptr task task.prioBoost
    .ok (heap.putGranted ptr task, { rq with expired := expired })

def enqueueActive (rq : O1Rq) (heap : Heap) (ptr : TaskPtr) : Except Fault (Heap × O1Rq) := do
  let task ← heap.read ptr
  check (0 ≤ task.cpu)
  check (task.runState = .kRunnable)
  let task := { task with runState := .kQueued }
  let active ← rq.active.push ptr task task.prioBoost
  .ok (heap.put ptr task, { rq with active := active })

def enqueueExpired (rq : O1Rq) (heap : Heap) (ptr : TaskPtr) : Except Fault (Heap × O1Rq) := do
  let task ← heap.read ptr
  check (0 ≤ task.cpu)
  check (task.runState = .kRunnable)
  let task := { task with runState := .kQueued }
  let expired ← rq.expired.push ptr task task.prioBoost
  .ok (heap.putGranted ptr task, { rq with expired := expired })

/-- The array that the next `Dequeue` pops from is the active one afterwards. -/
def turned (rq : O1Rq) : O1Rq := if rq.active.empty then rq.swap else rq

def dequeue (rq : O1Rq) (heap : Heap) : Except Fault (Heap × O1Rq × Option TaskPtr) := do
  if rq.active.empty ∧ rq.expired.empty then .ok (heap, rq, none)
  else
    let rq := rq.turned
    let (popped, active) ← rq.active.pop
    match popped with
    | none => .error .check
    | some ptr =>
        let task ← heap.read ptr
        check (task.runState = .kQueued)
        .ok (heap.put ptr { task with runState := .kRunnable }, { rq with active := active },
          some ptr)

def erase (rq : O1Rq) (heap : Heap) (ptr : TaskPtr) : Except Fault (Heap × O1Rq) := do
  let task ← heap.read ptr
  check (task.runState = .kQueued)
  match ← rq.active.erase ptr task with
  | some active =>
      .ok (heap.put ptr { task with runState := .kRunnable }, { rq with active := active })
  | none =>
      match ← rq.expired.erase ptr task with
      | some expired =>
          .ok (heap.put ptr { task with runState := .kRunnable }, { rq with expired := expired })
      | none => .error .check

/-! ## What each operation does -/

def Coherent (rq : O1Rq) : Prop := rq.active.Coherent ∧ rq.expired.Coherent

/-- All queued tasks of one priority, in either array. -/
def contents (rq : O1Rq) : Buckets kNumPrio TaskPtr :=
  fun idx => rq.active.queues idx ++ rq.expired.queues idx

theorem coherent_init : init.Coherent := ⟨PrioArray.coherent_init, PrioArray.coherent_init⟩

theorem vacant_contents {rq : O1Rq} :
    rq.contents.Vacant ↔ rq.active.queues.Vacant ∧ rq.expired.queues.Vacant := by
  simp only [Buckets.Vacant, contents, List.append_eq_nil_iff, forall_and]

/-- `Empty` adds up sizes; it tells whether both arrays are vacant. -/
theorem empty_iff {rq : O1Rq} : rq.empty = true ↔ rq.contents.Vacant := by
  rw [vacant_contents, ← PrioArray.size_eq_zero, ← PrioArray.size_eq_zero, empty,
    decide_eq_true_eq, size, Nat.add_eq_zero_iff]

/-- A task that `Enqueue` accepts, with its bucket. -/
structure Enqueueable (heap : Heap) (ptr : TaskPtr) (task : O1Task) (idx : Fin kNumPrio) : Prop where
  allocated : heap.tasks ptr = some task
  cpu : 0 ≤ task.cpu
  runnable : task.runState = .kRunnable
  bucket : task.staticPriority = kBasePrio + idx.val

theorem enqueue_eq_ok {rq rq' : O1Rq} {heap heap' : Heap} {ptr : TaskPtr} :
    rq.enqueue heap ptr = .ok (heap', rq') ↔
      ∃ task idx, Enqueueable heap ptr task idx ∧
        (0 < task.remainingTime ∧ heap.put ptr { task with runState := .kQueued } = heap' ∧
            { rq with active := rq.active.grow idx ptr task.prioBoost } = rq' ∨
          task.remainingTime ≤ 0 ∧ heap.putGranted ptr { task with runState := .kQueued } = heap' ∧
            { rq with expired := rq.expired.grow idx ptr task.prioBoost } = rq') := by
  simp only [enqueue, bind_eq_ok, Heap.read_eq_ok, check_eq_ok]
  constructor
  · rintro ⟨task, allocated, -, cpu, -, runnable, result⟩
    split at result
    · next positive =>
        simp only [bind_eq_ok, PrioArray.push_eq_ok, Except.ok.injEq, Prod.mk.injEq] at result
        obtain ⟨_, ⟨idx, bucket, rfl⟩, heapEq, rqEq⟩ := result
        exact ⟨task, idx, ⟨allocated, cpu, runnable, bucket⟩, .inl ⟨positive, heapEq, rqEq⟩⟩
    · next exhausted =>
        simp only [bind_eq_ok, PrioArray.push_eq_ok, Except.ok.injEq, Prod.mk.injEq] at result
        obtain ⟨_, ⟨idx, bucket, rfl⟩, heapEq, rqEq⟩ := result
        exact ⟨task, idx, ⟨allocated, cpu, runnable, bucket⟩,
          .inr ⟨not_lt.mp exhausted, heapEq, rqEq⟩⟩
  · intro found
    obtain ⟨task, idx, ⟨allocated, cpu, runnable, bucket⟩, outcome⟩ := found
    refine ⟨task, allocated, (), cpu, (), runnable, ?_⟩
    rcases outcome with ⟨positive, rfl, rfl⟩ | ⟨exhausted, rfl, rfl⟩
    · simp only [if_pos positive, bind_eq_ok, PrioArray.push_eq_ok]
      exact ⟨_, ⟨idx, bucket, rfl⟩, rfl⟩
    · simp only [if_neg (not_lt.mpr exhausted), bind_eq_ok, PrioArray.push_eq_ok]
      exact ⟨_, ⟨idx, bucket, rfl⟩, rfl⟩

theorem enqueueActive_eq_ok {rq rq' : O1Rq} {heap heap' : Heap} {ptr : TaskPtr} :
    rq.enqueueActive heap ptr = .ok (heap', rq') ↔
      ∃ task idx, Enqueueable heap ptr task idx ∧
        heap.put ptr { task with runState := .kQueued } = heap' ∧
        { rq with active := rq.active.grow idx ptr task.prioBoost } = rq' := by
  simp only [enqueueActive, bind_eq_ok, Heap.read_eq_ok, check_eq_ok, PrioArray.push_eq_ok,
    Except.ok.injEq, Prod.mk.injEq]
  constructor
  · rintro ⟨task, allocated, -, cpu, -, runnable, _, ⟨idx, bucket, rfl⟩, heapEq, rqEq⟩
    exact ⟨task, idx, ⟨allocated, cpu, runnable, bucket⟩, heapEq, rqEq⟩
  · intro found
    obtain ⟨task, idx, ⟨allocated, cpu, runnable, bucket⟩, heapEq, rqEq⟩ := found
    exact ⟨task, allocated, (), cpu, (), runnable, _, ⟨idx, bucket, rfl⟩, heapEq, rqEq⟩

theorem enqueueExpired_eq_ok {rq rq' : O1Rq} {heap heap' : Heap} {ptr : TaskPtr} :
    rq.enqueueExpired heap ptr = .ok (heap', rq') ↔
      ∃ task idx, Enqueueable heap ptr task idx ∧
        heap.putGranted ptr { task with runState := .kQueued } = heap' ∧
        { rq with expired := rq.expired.grow idx ptr task.prioBoost } = rq' := by
  simp only [enqueueExpired, bind_eq_ok, Heap.read_eq_ok, check_eq_ok, PrioArray.push_eq_ok,
    Except.ok.injEq, Prod.mk.injEq]
  constructor
  · rintro ⟨task, allocated, -, cpu, -, runnable, _, ⟨idx, bucket, rfl⟩, heapEq, rqEq⟩
    exact ⟨task, idx, ⟨allocated, cpu, runnable, bucket⟩, heapEq, rqEq⟩
  · intro holds
    obtain ⟨task, idx, ⟨allocated, cpu, runnable, bucket⟩, heapEq, rqEq⟩ := holds
    exact ⟨task, allocated, (), cpu, (), runnable, _, ⟨idx, bucket, rfl⟩, heapEq, rqEq⟩

theorem Coherent.turned {rq : O1Rq} (coherent : rq.Coherent) : rq.turned.Coherent := by
  unfold O1Rq.turned
  split
  · exact ⟨coherent.2, coherent.1⟩
  · exact coherent

/-- `Dequeue` decides from the bitmaps. It takes the front of the lowest occupied
deque of the active array, or of the expired one when no task is active. -/
theorem dequeue_spec {rq : O1Rq} (coherent : rq.Coherent) (heap : Heap) :
    rq.contents.Vacant ∧ rq.dequeue heap = .ok (heap, rq, none) ∨
      ∃ idx ptr rest, rq.turned.active.queues.Lowest idx ∧
        rq.turned.active.queues idx = ptr :: rest ∧
        rq.dequeue heap = (do
          let task ← heap.read ptr
          check (task.runState = .kQueued)
          .ok (heap.put ptr { task with runState := .kRunnable },
            { rq.turned with active := rq.turned.active.shrink idx rest }, some ptr)) := by
  unfold dequeue
  have activeEmpty := PrioArray.empty_iff coherent.1
  have expiredEmpty := PrioArray.empty_iff coherent.2
  by_cases bothEmpty : rq.active.empty = true ∧ rq.expired.empty = true
  · rw [if_pos bothEmpty]
    exact .inl ⟨vacant_contents.mpr ⟨activeEmpty.mp bothEmpty.1, expiredEmpty.mp bothEmpty.2⟩, rfl⟩
  · rw [if_neg bothEmpty]
    rcases PrioArray.pop_spec coherent.turned.1 with ⟨vacant, -⟩ | ⟨idx, ptr, rest, lowest, front, popped⟩
    · refine absurd ?_ bothEmpty
      unfold O1Rq.turned at vacant
      split at vacant
      · next active => exact ⟨active, expiredEmpty.mpr vacant⟩
      · next active => exact absurd (activeEmpty.mpr vacant) active
    · refine .inr ⟨idx, ptr, rest, lowest, front, ?_⟩
      dsimp only
      rw [popped]
      rfl

/-- `Erase` looks in the task's own bucket, first among the active tasks. -/
theorem erase_eq_ok {rq rq' : O1Rq} {heap heap' : Heap} {ptr : TaskPtr} :
    rq.erase heap ptr = .ok (heap', rq') ↔
      ∃ (task : O1Task) (idx : Fin kNumPrio), heap.tasks ptr = some task ∧
        task.runState = .kQueued ∧ task.staticPriority = kBasePrio + idx.val ∧
        heap.put ptr { task with runState := .kRunnable } = heap' ∧
        (ptr ∈ rq.active.queues idx ∧
            { rq with active := rq.active.shrink idx ((rq.active.queues idx).erase ptr) } = rq' ∨
          ptr ∉ rq.active.queues idx ∧ ptr ∈ rq.expired.queues idx ∧
            { rq with expired := rq.expired.shrink idx ((rq.expired.queues idx).erase ptr) } =
              rq') := by
  have bucketed : ∀ (array : PrioArray) (task : O1Task) (result : Option PrioArray),
      array.erase ptr task = .ok result →
        ∃ idx : Fin kNumPrio, task.staticPriority = kBasePrio + idx.val := by
    intro array task result erased
    simp only [PrioArray.erase, bind_eq_ok, PrioArray.bucketOf_eq_ok] at erased
    obtain ⟨idx, bucket, -⟩ := erased
    exact ⟨idx, bucket⟩
  simp only [erase, bind_eq_ok, Heap.read_eq_ok, check_eq_ok]
  constructor
  · rintro ⟨task, allocated, -, queued, found, first, result⟩
    obtain ⟨idx, bucket⟩ := bucketed _ _ _ first
    rw [PrioArray.erase_spec bucket, Except.ok.injEq] at first
    refine ⟨task, idx, allocated, queued, bucket, ?_⟩
    split at first
    · next inActive =>
        subst first
        simp only [Except.ok.injEq, Prod.mk.injEq] at result
        exact ⟨result.1, .inl ⟨inActive, result.2⟩⟩
    · next notActive =>
        subst first
        simp only [bind_eq_ok, PrioArray.erase_spec bucket, Except.ok.injEq] at result
        obtain ⟨_, rfl, result⟩ := result
        by_cases inExpired : ptr ∈ rq.expired.queues idx
        · simp only [if_pos inExpired, Except.ok.injEq, Prod.mk.injEq] at result
          exact ⟨result.1, .inr ⟨notActive, inExpired, result.2⟩⟩
        · simp [if_neg inExpired] at result
  · rintro ⟨task, idx, allocated, queued, bucket, rfl, outcome⟩
    refine ⟨task, allocated, (), queued, _, PrioArray.erase_spec bucket, ?_⟩
    rcases outcome with ⟨inActive, rfl⟩ | ⟨notActive, inExpired, rfl⟩
    · simp [if_pos inActive]
    · simp only [if_neg notActive, bind_eq_ok]
      exact ⟨_, PrioArray.erase_spec bucket, by simp [if_pos inExpired]⟩

/-! ## Contents -/

theorem gains_growActive (rq : O1Rq) (idx : Fin kNumPrio) (ptr : TaskPtr) (front : Bool) :
    rq.contents.Gains idx ptr
      ({ rq with active := rq.active.grow idx ptr front } : O1Rq).contents := by
  refine ⟨?_, fun other different => ?_⟩
  · simp only [contents, PrioArray.grow, Function.update_self]
    exact (PrioArray.pushed_perm _ ptr front).append_right _
  · simp [contents, PrioArray.grow, different]

theorem gains_growExpired (rq : O1Rq) (idx : Fin kNumPrio) (ptr : TaskPtr) (front : Bool) :
    rq.contents.Gains idx ptr
      ({ rq with expired := rq.expired.grow idx ptr front } : O1Rq).contents := by
  refine ⟨?_, fun other different => ?_⟩
  · simp only [contents, PrioArray.grow, Function.update_self]
    exact ((PrioArray.pushed_perm _ ptr front).append_left _).trans List.perm_middle
  · simp [contents, PrioArray.grow, different]

private theorem gains_shrinkActive {rq : O1Rq} {idx : Fin kNumPrio} {ptr : TaskPtr}
    {rest : List TaskPtr}
    (front : (rq.active.queues idx).Perm (ptr :: rest)) :
    ({ rq with active := rq.active.shrink idx rest } : O1Rq).contents.Gains idx ptr rq.contents := by
  refine ⟨?_, fun other different => ?_⟩
  · simp only [contents, PrioArray.shrink, Function.update_self]
    exact front.append_right _
  · simp [contents, PrioArray.shrink, different]

private theorem gains_shrinkExpired {rq : O1Rq} {idx : Fin kNumPrio} {ptr : TaskPtr}
    {rest : List TaskPtr}
    (front : (rq.expired.queues idx).Perm (ptr :: rest)) :
    ({ rq with expired := rq.expired.shrink idx rest } : O1Rq).contents.Gains idx ptr
      rq.contents := by
  refine ⟨?_, fun other different => ?_⟩
  · simp only [contents, PrioArray.shrink, Function.update_self]
    exact (front.append_left _).trans List.perm_middle
  · simp [contents, PrioArray.shrink, different]

theorem contents_turned (rq : O1Rq) (idx : Fin kNumPrio) :
    (rq.turned.contents idx).Perm (rq.contents idx) := by
  unfold turned
  split
  · exact List.perm_append_comm
  · exact .refl _

/-- `Dequeue` of a queue whose next task is known. -/
theorem dequeue_front {rq : O1Rq} (coherent : rq.Coherent) {heap : Heap} {idx : Fin kNumPrio}
    {ptr : TaskPtr} {rest : List TaskPtr} {task : O1Task}
    (lowest : rq.turned.active.queues.Lowest idx)
    (front : rq.turned.active.queues idx = ptr :: rest)
    (allocated : heap.tasks ptr = some task) (queued : task.runState = .kQueued) :
    rq.dequeue heap = .ok (heap.put ptr { task with runState := .kRunnable },
      { rq.turned with active := rq.turned.active.shrink idx rest }, some ptr) := by
  rcases dequeue_spec coherent heap with ⟨vacant, -⟩ | ⟨idx', ptr', rest', lowest', front', popped⟩
  · have nothing := rq.contents_turned idx
    rw [vacant idx, List.perm_nil, contents, front] at nothing
    simp at nothing
  · obtain rfl := lowest.unique lowest'
    obtain ⟨rfl, rfl⟩ := List.cons.inj (front.symm.trans front')
    rw [popped]
    simp only [bind_eq_ok, Heap.read_eq_ok, check_eq_ok]
    exact ⟨task, allocated, (), queued, rfl⟩

/-! ## Queue and heap agree -/

/-- Every queued pointer is an allocated task in state `kQueued`, once, in the
bucket of its priority. -/
structure Sound (rq : O1Rq) (heap : Heap) : Prop where
  coherent : rq.Coherent
  unique : ∀ idx, (rq.contents idx).Nodup
  queued : ∀ idx ptr, ptr ∈ rq.contents idx → ∃ task, heap.tasks ptr = some task ∧
    task.runState = .kQueued ∧ task.staticPriority = kBasePrio + idx.val

theorem sound_init (heap : Heap) : init.Sound heap :=
  ⟨coherent_init, fun _ => .nil, fun _ _ member => absurd member List.not_mem_nil⟩

section Sound

variable {rq rq' : O1Rq} {heap heap' : Heap} {ptr : TaskPtr} {idx : Fin kNumPrio}

/-- Only the state and the priority of queued tasks matter. -/
theorem Sound.congr (sound : rq.Sound heap)
    (same : ∀ idx ptr, ptr ∈ rq.contents idx → ∀ task, heap.tasks ptr = some task →
      ∃ task', heap'.tasks ptr = some task' ∧ task'.runState = task.runState ∧
        task'.staticPriority = task.staticPriority) : rq.Sound heap' := by
  refine { sound with queued := fun idx ptr member => ?_ }
  obtain ⟨task, allocated, queued, bucket⟩ := sound.queued idx ptr member
  obtain ⟨task', allocated', sameState, samePriority⟩ := same idx ptr member task allocated
  exact ⟨task', allocated', sameState.trans queued, samePriority.trans bucket⟩

/-- A task in any other state is not queued. -/
theorem Sound.not_mem (sound : rq.Sound heap) {task : O1Task} (allocated : heap.tasks ptr = some task)
    (notQueued : task.runState ≠ .kQueued) (idx : Fin kNumPrio) : ptr ∉ rq.contents idx := by
  intro member
  obtain ⟨other, allocated', queued, -⟩ := sound.queued idx ptr member
  rw [allocated] at allocated'
  exact notQueued (Option.some.inj allocated' ▸ queued)

/-- Writing a task that is not queued. -/
theorem Sound.put (sound : rq.Sound heap) (task : O1Task)
    (outside : ∀ idx, ptr ∉ rq.contents idx) : rq.Sound (heap.put ptr task) := by
  refine sound.congr fun idx other member task' allocated => ⟨task', ?_, rfl, rfl⟩
  rw [Heap.put_tasks, Function.update_of_ne]
  · exact allocated
  · rintro rfl
    exact outside idx member

/-- A task that enters its bucket. -/
theorem Sound.gained (sound : rq.Sound heap) (gains : rq.contents.Gains idx ptr rq'.contents)
    (coherent : rq'.Coherent) (outside : ∀ idx, ptr ∉ rq.contents idx) (task : O1Task)
    (queued : task.runState = .kQueued) (bucket : task.staticPriority = kBasePrio + idx.val) :
    rq'.Sound (heap.put ptr task) := by
  refine ⟨coherent, gains.nodup sound.unique (outside idx), fun other item member => ?_⟩
  rcases gains.mem_iff.mp member with old | ⟨rfl, rfl⟩
  · exact (sound.put task outside).queued other item old
  · exact ⟨task, by simp, queued, bucket⟩

/-- A task that leaves its bucket is queued nowhere any more. -/
theorem Sound.lost (sound : rq.Sound heap) (gains : rq'.contents.Gains idx ptr rq.contents)
    (coherent : rq'.Coherent) (task : O1Task) :
    (∀ idx, ptr ∉ rq'.contents idx) ∧ rq'.Sound (heap.put ptr task) := by
  obtain ⟨gone, unique⟩ := gains.lost sound.unique
  have inBucket : ptr ∈ rq.contents idx := gains.mem_iff.mpr (.inr ⟨rfl, rfl⟩)
  have outside : ∀ other, ptr ∉ rq'.contents other := by
    intro other member
    obtain ⟨first, allocated, -, bucket⟩ := sound.queued idx ptr inBucket
    obtain ⟨second, allocated', -, bucket'⟩ :=
      sound.queued other ptr (gains.mem_iff.mpr (.inl member))
    obtain rfl : first = second := Option.some.inj (allocated.symm.trans allocated')
    have same : other = idx := Fin.ext (by omega)
    exact gone (same ▸ member)
  refine ⟨outside, coherent, unique, fun other item member => ?_⟩
  obtain ⟨found, allocated, queued, bucket⟩ :=
    sound.queued other item (gains.mem_iff.mpr (.inl member))
  refine ⟨found, ?_, queued, bucket⟩
  rw [Heap.put_tasks, Function.update_of_ne]
  · exact allocated
  · rintro rfl
    exact outside other member

/-- What a successful `Enqueue` leaves behind. -/
theorem Sound.enqueue (sound : rq.Sound heap) (result : rq.enqueue heap ptr = .ok (heap', rq')) :
    ∃ (task : O1Task) (idx : Fin kNumPrio), Enqueueable heap ptr task idx ∧ rq'.Sound heap' ∧
      rq.contents.Gains idx ptr rq'.contents ∧
      heap'.tasks = Function.update heap.tasks ptr (some
        { task with
          runState := .kQueued
          remainingTime := if 0 < task.remainingTime then task.remainingTime else timeSlice }) := by
  obtain ⟨task, idx, able, outcome⟩ := enqueue_eq_ok.mp result
  have outside := sound.not_mem able.allocated (by simp [able.runnable])
  refine ⟨task, idx, able, ?_⟩
  rcases outcome with ⟨positive, rfl, rfl⟩ | ⟨exhausted, rfl, rfl⟩
  · have gains := rq.gains_growActive idx ptr task.prioBoost
    refine ⟨sound.gained gains ⟨sound.coherent.1.grow idx ptr _, sound.coherent.2⟩ outside _ rfl
      able.bucket, gains, ?_⟩
    simp [positive]
  · have gains := rq.gains_growExpired idx ptr task.prioBoost
    have stored := sound.gained gains ⟨sound.coherent.1, sound.coherent.2.grow idx ptr _⟩ outside
      { task with runState := .kQueued }.setRemainingTime rfl able.bucket
    exact ⟨stored.congr fun idx ptr _ task allocated => ⟨task, allocated, rfl, rfl⟩, gains, by
      simp [O1Task.setRemainingTime, not_lt.mpr exhausted]⟩

/-- What a successful `Dequeue` leaves behind. -/
theorem Sound.dequeue (sound : rq.Sound heap) {popped : Option TaskPtr}
    (result : rq.dequeue heap = .ok (heap', rq', popped)) :
    (popped = none ∧ rq.contents.Vacant ∧ heap' = heap ∧ rq' = rq) ∨
      ∃ (ptr : TaskPtr) (task : O1Task) (idx : Fin kNumPrio), popped = some ptr ∧
        heap.tasks ptr = some task ∧ task.runState = .kQueued ∧
        heap' = heap.put ptr { task with runState := .kRunnable } ∧
        (∀ idx, ptr ∉ rq'.contents idx) ∧ rq'.Sound heap' ∧
        rq'.contents.Gains idx ptr rq.contents := by
  rcases dequeue_spec sound.coherent heap with ⟨vacant, nothing⟩ |
    ⟨idx, ptr, rest, lowest, front, something⟩
  · rw [nothing] at result
    cases result
    exact .inl ⟨rfl, vacant, rfl, rfl⟩
  · rw [something] at result
    simp only [bind_eq_ok, Heap.read_eq_ok, check_eq_ok, Except.ok.injEq, Prod.mk.injEq] at result
    obtain ⟨task, allocated, -, queued, rfl, rfl, rfl⟩ := result
    have gains : ({ rq.turned with active := rq.turned.active.shrink idx rest } : O1Rq).contents.Gains
        idx ptr rq.contents := by
      have turned := gains_shrinkActive (List.Perm.of_eq front)
      exact ⟨(rq.contents_turned idx).symm.trans turned.1, fun other different =>
        (rq.contents_turned other).symm.trans (turned.2 other different)⟩
    have coherent := sound.coherent.turned
    obtain ⟨outside, sound'⟩ := sound.lost gains
      ⟨coherent.1.shrink lowest.occupied rest, coherent.2⟩ { task with runState := .kRunnable }
    exact .inr ⟨ptr, task, idx, rfl, allocated, queued, rfl, outside, sound', gains⟩

/-- What a successful `Erase` leaves behind. -/
theorem Sound.erase (sound : rq.Sound heap) (result : rq.erase heap ptr = .ok (heap', rq')) :
    ∃ (task : O1Task) (idx : Fin kNumPrio), heap.tasks ptr = some task ∧
      task.runState = .kQueued ∧ task.staticPriority = kBasePrio + idx.val ∧
      heap' = heap.put ptr { task with runState := .kRunnable } ∧
      (∀ idx, ptr ∉ rq'.contents idx) ∧ rq'.Sound heap' ∧
      rq'.contents.Gains idx ptr rq.contents := by
  obtain ⟨task, idx, allocated, queued, bucket, rfl, outcome⟩ := erase_eq_ok.mp result
  have assemble : rq'.contents.Gains idx ptr rq.contents → rq'.Coherent → _ :=
    fun gains coherent => sound.lost gains coherent { task with runState := .kRunnable }
  have shrunk : rq'.contents.Gains idx ptr rq.contents ∧ rq'.Coherent := by
    rcases outcome with ⟨inActive, rfl⟩ | ⟨-, inExpired, rfl⟩
    · exact ⟨gains_shrinkActive (List.perm_cons_erase inActive),
        sound.coherent.1.shrink (List.ne_nil_of_mem inActive) _, sound.coherent.2⟩
    · exact ⟨gains_shrinkExpired (List.perm_cons_erase inExpired), sound.coherent.1,
        sound.coherent.2.shrink (List.ne_nil_of_mem inExpired) _⟩
  obtain ⟨outside, sound'⟩ := assemble shrunk.1 shrunk.2
  exact ⟨task, idx, allocated, queued, bucket, rfl, outside, sound', shrunk.1⟩

end Sound

end O1Rq

end Ghost.O1
