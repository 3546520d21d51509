import Ghost.Lib.Outcomes
import Ghost.O1.Invariant
import Ghost.O1.TwoLevelQueue

/-!
# The assertions of the O(1) scheduler

Which message orders make a `CHECK` fail. A task is fit when it has a valid
priority and, unless it was never queued, a CPU; fitness and the state invariant
together carry every handler through, for every message that the protocol allows,
except one: a task that was never migrated may not report a switchto.
-/

set_option autoImplicit false

namespace Ghost.O1

open Lib

structure O1Task.Fit (task : O1Task) : Prop where
  located : task.cpu = -1 ∨ ∃ cpu : CpuId, task.cpu = cpu.val
  placed : task.runState = .kQueued ∨ task.runState = .kOnCpu → task.cpu ≠ -1
  ranked : ∃ idx : Fin kNumPrio, task.staticPriority = kBasePrio + idx.val

def Heap.Fit (heap : Heap) : Prop := ∀ ptr task, heap.tasks ptr = some task → task.Fit

private theorem Heap.Fit.store {heap heap' : Heap} {ptr : TaskPtr} {value : Option O1Task}
    (fit : heap.Fit)
    (stored : heap'.tasks = Function.update heap.tasks ptr value)
    (fitting : ∀ task, value = some task → task.Fit) : heap'.Fit := by
  intro other task allocated
  rw [stored] at allocated
  by_cases same : other = ptr
  · rw [same, Function.update_self] at allocated
    exact fitting task allocated
  · rw [Function.update_of_ne same] at allocated
    exact fit other task allocated

private theorem Heap.Fit.put {heap : Heap} {ptr : TaskPtr} {task : O1Task} (fit : heap.Fit)
    (fitting : task.Fit) : (heap.put ptr task).Fit := by
  apply fit.store rfl
  intro found isTask
  cases isTask
  exact fitting

/-- A priority that a nice value of the kernel stands for. -/
theorem ranked_of_nice {nice : Int} (lower : -20 ≤ nice) (upper : nice ≤ 19) :
    ∃ idx : Fin kNumPrio, 120 + nice = kBasePrio + idx.val := by
  refine ⟨⟨(nice + 20).toNat, ?_⟩, ?_⟩
  · unfold kNumPrio
    omega
  · simp only [kBasePrio]
    omega

theorem check_pass {condition : Prop} [Decidable condition] (holds : condition) :
    check condition = .ok () := check_eq_ok.mpr holds

namespace O1Scheduler

/-- All tasks are fit, and the iterator of `AssignCpu` is within the CPU list. -/
structure Fit (count : Nat) (scheduler : O1Scheduler) : Prop where
  heap : scheduler.heap.Fit
  iterator : scheduler.nextCpu ≤ count

variable {scheduler next : O1Scheduler} {cpu : CpuId} {ptr : TaskPtr} {task task' : O1Task}
  {count : Nat}

private theorem Fit.put (fit : scheduler.Fit count) (fitting : task.Fit) :
    (scheduler.put ptr task).Fit count := ⟨fit.heap.put fitting, fit.iterator⟩

/-- After a handler: all is fit, and this task still has its sequence number. -/
structure Keeps (count : Nat) (ptr : TaskPtr) (seqnum : Nat) (next : O1Scheduler) : Prop where
  fit : next.Fit count
  known : ∃ task, next.heap.tasks ptr = some task ∧ task.seqnum = seqnum

private theorem cpuStateOf_ok (fit : task.Fit) (placed : task.cpu ≠ -1) :
    ∃ cpu : CpuId, task.cpu = cpu.val ∧ cpuStateOf task = .ok cpu := by
  cases fit.located with
  | inl unplaced => exact absurd unplaced placed
  | inr located =>
      obtain ⟨cpu, home⟩ := located
      exact ⟨cpu, home, cpuStateOf_eq_ok.mpr home⟩

/-! ## Run queues -/

private theorem enqueueOn_succeeds (fit : scheduler.Fit count)
    (allocated : scheduler.heap.tasks ptr = some task) (runnable : task.runState = .kRunnable)
    (placed : task.cpu ≠ -1) :
    Succeeds (scheduler.enqueueOn cpu ptr) (Keeps count ptr task.seqnum) := by
  have fitting := fit.heap ptr task allocated
  obtain ⟨idx, bucket⟩ := fitting.ranked
  obtain ⟨home, isHome, -⟩ := cpuStateOf_ok fitting placed
  have able : O1Rq.Enqueueable scheduler.heap ptr task idx :=
    ⟨allocated, by omega, runnable, bucket⟩
  unfold enqueueOn
  by_cases left : 0 < task.remainingTime
  · have pushing : (scheduler.cpuStates cpu).runQueue.enqueue scheduler.heap ptr = .ok (_, _) :=
      O1Rq.enqueue_eq_ok.mpr ⟨task, idx, able, .inl ⟨left, rfl, rfl⟩⟩
    apply Succeeds.bind_of_eq pushing
    apply Succeeds.ok
    constructor
    · exact ⟨fit.heap.put ⟨fitting.located, fun _ => placed, fitting.ranked⟩, fit.iterator⟩
    · exact ⟨_, Function.update_self .., rfl⟩
  · have pushing : (scheduler.cpuStates cpu).runQueue.enqueue scheduler.heap ptr = .ok (_, _) :=
      O1Rq.enqueue_eq_ok.mpr ⟨task, idx, able, .inr ⟨not_lt.mp left, rfl, rfl⟩⟩
    apply Succeeds.bind_of_eq pushing
    apply Succeeds.ok
    constructor
    · have granted : (scheduler.heap.put ptr
          { task with runState := .kQueued }.setRemainingTime).Fit :=
        fit.heap.put ⟨fitting.located, fun _ => placed, fitting.ranked⟩
      exact ⟨granted, fit.iterator⟩
    · exact ⟨_, Function.update_self .., rfl⟩

private theorem eraseOn_succeeds (consistent : (scheduler.placed none).Consistent)
    (allocated : scheduler.heap.tasks ptr = some task) (queued : task.runState = .kQueued)
    (home : task.cpu = cpu.val) : Succeeds (scheduler.eraseOn cpu ptr) fun next =>
      next.heap = scheduler.heap.put ptr { task with runState := .kRunnable } ∧
        next.nextCpu = scheduler.nextCpu := by
  obtain ⟨-, cpu', idx, member⟩ := consistent.queued ptr task allocated queued
  have home' := consistent.home cpu' idx ptr task member allocated
  have same : cpu' = cpu := Fin.ext (by omega)
  subst same
  obtain ⟨found, stored, -, bucket⟩ := (consistent.sound cpu').queued idx ptr member
  cases allocated.symm.trans stored
  have erasing : ∃ rq, (scheduler.cpuStates cpu').runQueue.erase scheduler.heap ptr =
      .ok (scheduler.heap.put ptr { task with runState := .kRunnable }, rq) := by
    by_cases inActive : ptr ∈ (scheduler.cpuStates cpu').runQueue.active.queues idx
    · exact ⟨_, O1Rq.erase_eq_ok.mpr
        ⟨task, idx, allocated, queued, bucket, rfl, .inl ⟨inActive, rfl⟩⟩⟩
    · have inExpired := (List.mem_append.mp member).resolve_left inActive
      exact ⟨_, O1Rq.erase_eq_ok.mpr
        ⟨task, idx, allocated, queued, bucket, rfl, .inr ⟨inActive, inExpired, rfl⟩⟩⟩
  obtain ⟨rq, erasing⟩ := erasing
  unfold eraseOn
  apply Succeeds.bind_of_eq erasing
  apply Succeeds.ok
  exact ⟨rfl, rfl⟩

/-! ## Helpers of the handlers -/

/-- `TaskOffCpu` of a placed task, on its CPU or blocked after a switchto. -/
theorem taskOffCpu_succeeds {blocked fromSwitchto : Bool} {now : Int} (fit : scheduler.Fit count)
    (allocated : scheduler.heap.tasks ptr = some task) (placed : task.cpu ≠ -1)
    (reason : task.runState = .kOnCpu ∨ task.runState = .kBlocked ∧ fromSwitchto = true) :
    Succeeds (scheduler.taskOffCpu ptr blocked fromSwitchto now) fun next =>
      next.Fit count ∧ ∃ task', next.heap.tasks ptr = some task' ∧ task'.seqnum = task.seqnum ∧
        task'.cpu = task.cpu ∧ task'.runState = if blocked then .kBlocked else .kRunnable := by
  have fitting := fit.heap ptr task allocated
  obtain ⟨cpu, home, found⟩ := cpuStateOf_ok fitting placed
  unfold taskOffCpu
  apply Succeeds.bind_of_eq (Heap.read_eq_ok.mpr allocated)
  apply Succeeds.bind_of_eq found
  have leaves : ∀ task' : O1Task, task'.cpu = task.cpu →
      task'.staticPriority = task.staticPriority → task'.Fit := by
    intro task' sameCpu samePriority
    exact ⟨sameCpu ▸ fitting.located, fun _ => sameCpu ▸ placed, samePriority ▸ fitting.ranked⟩
  cases reason with
  | inl onCpu =>
      rw [if_pos onCpu]
      apply Succeeds.ok
      constructor
      · refine ⟨fit.heap.store rfl ?_, fit.iterator⟩
        intro found isTask
        cases isTask
        exact leaves _ rfl rfl
      · exact ⟨_, Function.update_self .., rfl, rfl, rfl⟩
  | inr switched =>
      obtain ⟨isBlocked, switched⟩ := switched
      rw [if_neg (by simp [isBlocked])]
      apply Succeeds.bind_of_eq (check_pass switched)
      apply Succeeds.bind_of_eq (check_pass isBlocked)
      apply Succeeds.ok
      constructor
      · exact fit.put (leaves _ rfl rfl)
      · exact ⟨_, Function.update_self .., rfl, rfl, rfl⟩

private theorem assignCpu_succeeds {cpus : List CpuId} (nonempty : cpus ≠ [])
    (fit : scheduler.Fit cpus.length) : Succeeds (scheduler.assignCpu cpus) fun assigned =>
      assigned.2.heap = scheduler.heap ∧ assigned.2.nextCpu ≤ cpus.length := by
  have occupied : 0 < cpus.length := List.length_pos_iff.mpr nonempty
  have within := fit.iterator
  unfold assignCpu
  dsimp only
  have inRange : (if scheduler.nextCpu = cpus.length then 0 else scheduler.nextCpu) < cpus.length := by
    split
    · exact occupied
    · next before => exact lt_of_le_of_ne within before
  rw [List.getElem?_eq_getElem inRange]
  apply Succeeds.ok
  exact ⟨rfl, inRange⟩

private theorem migrate_succeeds {seqnum : Nat} (fit : scheduler.Fit count)
    (allocated : scheduler.heap.tasks ptr = some task) (runnable : task.runState = .kRunnable)
    (unplaced : task.cpu = -1) :
    Succeeds (scheduler.migrate ptr cpu seqnum true) (Keeps count ptr task.seqnum) := by
  have fitting := fit.heap ptr task allocated
  unfold migrate
  apply Succeeds.bind_of_eq (Heap.read_eq_ok.mpr allocated)
  apply Succeeds.bind_of_eq (check_pass runnable)
  apply Succeeds.bind_of_eq (check_pass unplaced)
  apply Succeeds.bind_of_eq (check_pass rfl)
  have placed : ((cpu.val : Nat) : Int) ≠ -1 := by omega
  have placing : ((scheduler.emit (.associateTask task.gtid cpu seqnum)).put ptr
      { task with cpu := cpu.val }).Fit count :=
    ⟨fit.heap.put ⟨.inr ⟨cpu, rfl⟩, fun _ => placed, fitting.ranked⟩, fit.iterator⟩
  apply Succeeds.bind (enqueueOn_succeeds placing (Function.update_self ..) runnable placed)
  intro queued keeps
  apply Succeeds.ok
  exact ⟨⟨keeps.fit.heap, keeps.fit.iterator⟩, keeps.known⟩

private theorem pingSwitchto_fit (fit : scheduler.Fit count) (payload : Switchto) :
    (scheduler.pingSwitchto payload).Fit count := by
  unfold pingSwitchto
  split
  · exact ⟨fit.heap, fit.iterator⟩
  · exact fit

private theorem Keeps.pingSwitchto {seqnum : Nat} (keeps : Keeps count ptr seqnum scheduler)
    (payload : Switchto) : Keeps count ptr seqnum (scheduler.pingSwitchto payload) := by
  refine ⟨pingSwitchto_fit keeps.fit payload, ?_⟩
  unfold O1Scheduler.pingSwitchto
  split <;> exact keeps.known

/-- Requeueing a task that is in the transitory state. -/
theorem requeue_succeeds (task' : O1Task) (fit : scheduler.Fit count)
    (allocated : scheduler.heap.tasks ptr = some task) (runnable : task'.runState = .kRunnable)
    (sameCpu : task'.cpu = task.cpu) (placed : task.cpu ≠ -1)
    (ranked : ∃ idx : Fin kNumPrio, task'.staticPriority = kBasePrio + idx.val) :
    Succeeds ((scheduler.put ptr task').enqueueOn cpu ptr) (Keeps count ptr task'.seqnum) := by
  have fitting := fit.heap ptr task allocated
  have fitting' : task'.Fit := ⟨sameCpu ▸ fitting.located, fun _ => sameCpu ▸ placed, ranked⟩
  exact enqueueOn_succeeds (fit.put fitting') (Function.update_self ..) runnable (sameCpu ▸ placed)

/-! ## Task messages -/

private theorem taskNew_succeeds {cpus : List CpuId} (nonempty : cpus ≠ [])
    (fit : scheduler.Fit cpus.length)
    {gtid seqnum : Nat} {nice : Int} {runnable : Bool} (lower : -20 ≤ nice) (upper : nice ≤ 19) :
    Succeeds ((scheduler.put ptr { gtid := gtid }).taskNew cpus ptr seqnum nice runnable true)
      (·.Fit cpus.length) := by
  have ranked := ranked_of_nice lower upper
  unfold taskNew
  apply Succeeds.bind_of_eq (Heap.read_eq_ok.mpr (Function.update_self ..))
  have stored : ∀ task : O1Task, task.Fit → ((scheduler.put ptr { gtid := gtid }).setHeap
      ((scheduler.put ptr { gtid := gtid }).heap.putGranted ptr task)).Fit cpus.length := by
    intro task fitting
    constructor
    · have same : ((scheduler.heap.put ptr { gtid := gtid }).putGranted ptr task).tasks =
          Function.update scheduler.heap.tasks ptr (some task.setRemainingTime) := by simp
      apply fit.heap.store same
      intro found isTask
      cases isTask
      exact ⟨fitting.located, fitting.placed, fitting.ranked⟩
    · exact fit.iterator
  split
  · have arrived := stored
      { gtid := gtid, seqnum := seqnum, runState := .kRunnable, staticPriority := 120 + nice }
      ⟨.inl rfl, by simp, ranked⟩
    apply Succeeds.bind (assignCpu_succeeds nonempty arrived)
    intro outcome holds
    obtain ⟨cpu, assigned⟩ := outcome
    obtain ⟨sameHeap, iterator⟩ := holds
    have fit' : assigned.Fit cpus.length := ⟨sameHeap ▸ arrived.heap, iterator⟩
    have allocated := (congrFun (congrArg Heap.tasks sameHeap) ptr).trans (Function.update_self ..)
    apply (migrate_succeeds fit' allocated rfl rfl).mono
    intro next keeps
    exact keeps.fit
  · apply Succeeds.ok
    exact stored _ ⟨.inl rfl, by simp, ranked⟩

private theorem taskRunnable_succeeds {cpus : List CpuId} (nonempty : cpus ≠ [])
    (fit : scheduler.Fit cpus.length) {seqnum : Nat} {deferrable : Bool}
    (allocated : scheduler.heap.tasks ptr = some task) (blocked : task.runState = .kBlocked) :
    Succeeds (scheduler.taskRunnable cpus ptr seqnum deferrable true)
      (Keeps cpus.length ptr task.seqnum) := by
  have fitting := fit.heap ptr task allocated
  unfold taskRunnable
  apply Succeeds.bind_of_eq (Heap.read_eq_ok.mpr allocated)
  apply Succeeds.bind_of_eq (check_pass blocked)
  have woken : (scheduler.put ptr
      { task with runState := .kRunnable, prioBoost := !deferrable }).Fit cpus.length :=
    fit.put ⟨fitting.located, by simp, fitting.ranked⟩
  dsimp only
  split
  · next negative =>
      have unplaced : task.cpu = -1 := by
        cases fitting.located with
        | inl unplaced => exact unplaced
        | inr located =>
            obtain ⟨cpu, home⟩ := located
            omega
      apply Succeeds.bind (assignCpu_succeeds nonempty woken)
      intro outcome holds
      obtain ⟨cpu, assigned⟩ := outcome
      obtain ⟨sameHeap, iterator⟩ := holds
      have fit' : assigned.Fit cpus.length := ⟨sameHeap ▸ woken.heap, iterator⟩
      have allocated' := (congrFun (congrArg Heap.tasks sameHeap) ptr).trans (Function.update_self ..)
      have migrating := @migrate_succeeds _ cpu _ _ _ seqnum fit' allocated' rfl unplaced
      exact migrating
  · next placed =>
      have placed' : task.cpu ≠ -1 := by
        intro unplaced
        rw [unplaced] at placed
        exact placed (by decide)
      obtain ⟨cpu, home, -⟩ := cpuStateOf_ok fitting placed'
      apply Succeeds.bind_of_eq (cpuStateOf_eq_ok.mpr home)
      exact requeue_succeeds { task with runState := .kRunnable, prioBoost := !deferrable } fit
        allocated rfl rfl placed' fitting.ranked

private theorem taskDeparted_succeeds {payload : Switchto} {now : Int} (fit : scheduler.Fit count)
    (consistent : (scheduler.placed none).Consistent)
    (allocated : scheduler.heap.tasks ptr = some task)
    (reason : payload.fromSwitchto = false ∧ task.runState ≠ .kRunnable ∨
      task.runState = .kBlocked ∧ task.cpu ≠ -1) :
    Succeeds (scheduler.taskDeparted ptr payload now) (·.Fit count) := by
  have fitting := fit.heap ptr task allocated
  unfold taskDeparted
  apply Succeeds.bind_of_eq (Heap.read_eq_ok.mpr allocated)
  apply @Succeeds.bind _ _ _ _ (·.Fit count)
  · split
    · next leaving =>
        have placed : task.cpu ≠ -1 := by
          cases reason with
          | inl plain =>
              rw [plain.1] at leaving
              exact fitting.placed (.inr (leaving.resolve_right Bool.false_ne_true))
          | inr blocked => exact blocked.2
        have state : task.runState = .kOnCpu ∨
            task.runState = .kBlocked ∧ payload.fromSwitchto = true := by
          cases leaving with
          | inl onCpu => exact .inl onCpu
          | inr switched =>
              cases reason with
              | inl plain => cases plain.1.symm.trans switched
              | inr blocked => exact .inr ⟨blocked.1, switched⟩
        apply (taskOffCpu_succeeds fit allocated placed state).mono
        intro next left
        exact left.1
    · split
      · next queued =>
          obtain ⟨cpu, home, found⟩ := cpuStateOf_ok fitting (fitting.placed (.inl queued))
          apply Succeeds.bind_of_eq found
          apply (eraseOn_succeeds consistent allocated queued home).mono
          intro next holds
          obtain ⟨stored, iterator⟩ := holds
          constructor
          · rw [stored]
            exact fit.heap.put ⟨fitting.located, by simp, fitting.ranked⟩
          · rw [iterator]
            exact fit.iterator
      · next notLeaving notQueued =>
          have blocked : task.runState = .kBlocked := by
            cases reason with
            | inl plain =>
                cases state : task.runState with
                | kBlocked => rfl
                | kRunnable => exact absurd state plain.2
                | kQueued => exact absurd state notQueued
                | kOnCpu => exact absurd (.inl state) notLeaving
            | inr blocked => exact blocked.1
          apply Succeeds.bind_of_eq (check_pass blocked)
          exact Succeeds.ok fit
  · intro taken fit'
    apply Succeeds.ok
    have pinged := pingSwitchto_fit fit' payload
    refine ⟨pinged.heap.store rfl ?_, pinged.iterator⟩
    intro found isTask
    cases isTask

private theorem taskDead_succeeds (fit : scheduler.Fit count)
    (allocated : scheduler.heap.tasks ptr = some task) (blocked : task.runState = .kBlocked) :
    Succeeds (scheduler.taskDead ptr) (·.Fit count) := by
  unfold taskDead
  apply Succeeds.bind_of_eq (Heap.read_eq_ok.mpr allocated)
  apply Succeeds.bind_of_eq (check_pass blocked)
  apply Succeeds.ok
  refine ⟨fit.heap.store rfl ?_, fit.iterator⟩
  intro found isTask
  cases isTask

section OffCpu

variable {payload : Switchto} {now : Int} (fit : scheduler.Fit count)
  (allocated : scheduler.heap.tasks ptr = some task) (placed : task.cpu ≠ -1)
  (reason : task.runState = .kOnCpu ∨ task.runState = .kBlocked ∧ payload.fromSwitchto = true)

include fit allocated placed reason

private theorem taskYield_succeeds :
    Succeeds (scheduler.taskYield ptr payload now) (Keeps count ptr task.seqnum) := by
  unfold taskYield
  apply Succeeds.bind (taskOffCpu_succeeds fit allocated placed reason)
  intro taken holds
  obtain ⟨fit', task', allocated', sameSeqnum, sameCpu, runnable⟩ := holds
  apply Succeeds.bind_of_eq (Heap.read_eq_ok.mpr allocated')
  have placed' : task'.cpu ≠ -1 := sameCpu ▸ placed
  obtain ⟨cpu, home, found⟩ := cpuStateOf_ok (fit'.heap ptr task' allocated') placed'
  apply Succeeds.bind_of_eq found
  apply Succeeds.bind (enqueueOn_succeeds fit' allocated' runnable placed')
  intro queued keeps
  rw [sameSeqnum] at keeps
  exact Succeeds.ok (keeps.pingSwitchto payload)

private theorem taskBlocked_succeeds :
    Succeeds (scheduler.taskBlocked ptr payload now) (Keeps count ptr task.seqnum) := by
  unfold taskBlocked
  apply Succeeds.bind (taskOffCpu_succeeds fit allocated placed reason)
  intro taken holds
  obtain ⟨fit', task', allocated', sameSeqnum, -⟩ := holds
  apply Succeeds.ok
  have keeps : Keeps count ptr task.seqnum taken := ⟨fit', task', allocated', sameSeqnum⟩
  exact keeps.pingSwitchto payload

private theorem taskPreempted_succeeds :
    Succeeds (scheduler.taskPreempted ptr payload now) (Keeps count ptr task.seqnum) := by
  unfold taskPreempted
  apply Succeeds.bind (taskOffCpu_succeeds fit allocated placed reason)
  intro taken holds
  obtain ⟨fit', task', allocated', sameSeqnum, sameCpu, runnable⟩ := holds
  apply Succeeds.bind_of_eq (Heap.read_eq_ok.mpr allocated')
  have placed' : task'.cpu ≠ -1 := sameCpu ▸ placed
  have fitting := fit'.heap ptr task' allocated'
  obtain ⟨cpu, home, -⟩ := cpuStateOf_ok fitting placed'
  apply Succeeds.bind_of_eq (cpuStateOf_eq_ok.mpr home)
  apply Succeeds.bind (requeue_succeeds { task' with preempted := true, prioBoost := true } fit'
    allocated' runnable rfl placed' fitting.ranked)
  intro queued keeps
  dsimp only at keeps
  rw [sameSeqnum] at keeps
  exact Succeeds.ok (keeps.pingSwitchto payload)

end OffCpu

private theorem taskPriorityChanged_succeeds (fit : scheduler.Fit count)
    (consistent : (scheduler.placed none).Consistent)
    (allocated : scheduler.heap.tasks ptr = some task) {nice : Int} (lower : -20 ≤ nice)
    (upper : nice ≤ 19) :
    Succeeds (scheduler.taskPriorityChanged ptr nice) (Keeps count ptr task.seqnum) := by
  have fitting := fit.heap ptr task allocated
  have ranked := ranked_of_nice lower upper
  unfold taskPriorityChanged
  apply Succeeds.bind_of_eq (Heap.read_eq_ok.mpr allocated)
  dsimp only
  split
  · next queued =>
      have placed := fitting.placed (.inl queued)
      obtain ⟨cpu, home, found⟩ := cpuStateOf_ok fitting placed
      apply Succeeds.bind_of_eq found
      apply Succeeds.bind (eraseOn_succeeds consistent allocated queued home)
      intro erased holds
      obtain ⟨stored, iterator⟩ := holds
      have allocated' := (congrFun (congrArg Heap.tasks stored) ptr).trans (Function.update_self ..)
      apply Succeeds.bind_of_eq (Heap.read_eq_ok.mpr allocated')
      have fit' : erased.Fit count := by
        constructor
        · rw [stored]
          exact fit.heap.put ⟨fitting.located, fun _ => placed, fitting.ranked⟩
        · rw [iterator]
          exact fit.iterator
      exact requeue_succeeds { task with runState := .kRunnable, staticPriority := 120 + nice } fit'
        allocated' rfl rfl placed ranked
  · apply Succeeds.ok
    constructor
    · exact fit.put ⟨fitting.located, fitting.placed, ranked⟩
    · exact ⟨_, Function.update_self .., rfl⟩

private theorem taskSwitchto_succeeds {now : Int} (fit : scheduler.Fit count)
    (allocated : scheduler.heap.tasks ptr = some task) (onCpu : task.runState = .kOnCpu) :
    Succeeds (scheduler.taskSwitchto ptr now) (Keeps count ptr task.seqnum) := by
  have placed := (fit.heap ptr task allocated).placed (.inr onCpu)
  apply (taskOffCpu_succeeds fit allocated placed (.inl onCpu)).mono
  intro taken holds
  obtain ⟨fit', task', allocated', sameSeqnum, -⟩ := holds
  exact ⟨fit', task', allocated', sameSeqnum⟩

private theorem advance_succeeds {seqnum nextSeqnum : Nat}
    (keeps : Keeps count ptr seqnum scheduler)
    (later : seqnum < nextSeqnum) :
    Succeeds (scheduler.advance ptr nextSeqnum) (·.Fit count) := by
  obtain ⟨fit, task, allocated, rfl⟩ := keeps
  have fitting := fit.heap ptr task allocated
  unfold advance
  apply Succeeds.bind_of_eq (Heap.read_eq_ok.mpr allocated)
  apply Succeeds.bind_of_eq (check_pass later)
  apply Succeeds.ok
  exact fit.put ⟨fitting.located, fitting.placed, fitting.ranked⟩

/-! ## Ticks and scheduling -/

private theorem cpuTick_succeeds {now later : Int} (fit : scheduler.Fit count)
    (consistent : (scheduler.placed none).Consistent) :
    Succeeds (scheduler.cpuTick cpu now later) (·.Fit count) := by
  unfold cpuTick
  dsimp only
  split
  · exact Succeeds.ok fit
  · next ptr current =>
      obtain ⟨task, allocated, -, -⟩ := consistent.current cpu ptr current
      have fitting := fit.heap ptr task allocated
      apply Succeeds.bind_of_eq (Heap.read_eq_ok.mpr allocated)
      have charged : (scheduler.put ptr (task.updateRemainingTime false now later).1).Fit count :=
        fit.put ⟨fitting.located, fitting.placed, fitting.ranked⟩
      split
      · exact Succeeds.ok ⟨charged.heap, charged.iterator⟩
      · exact Succeeds.ok charged

private theorem takePreemption_succeeds (fit : scheduler.Fit count)
    (consistent : (scheduler.placed none).Consistent) :
    Succeeds (scheduler.takePreemption cpu) fun next =>
      next.Fit count ∧ (next.placed none).Consistent := by
  have taking : Succeeds (scheduler.takePreemption cpu) (·.Fit count) := by
    unfold takePreemption
    dsimp only
    split
    · split
      · exact Succeeds.ok ⟨fit.heap, fit.iterator⟩
      · next prev current =>
          split
          · obtain ⟨task, allocated, -, -⟩ := consistent.current cpu prev current
            have fitting := fit.heap prev task allocated
            apply Succeeds.bind_of_eq (Heap.read_eq_ok.mpr allocated)
            apply Succeeds.ok
            refine ⟨fit.heap.store (Heap.putGranted_tasks task) ?_, fit.iterator⟩
            intro found isTask
            cases isTask
            exact ⟨fitting.located, fitting.placed, fitting.ranked⟩
          · exact Succeeds.ok ⟨fit.heap, fit.iterator⟩
    · exact Succeeds.ok fit
  obtain ⟨next, returns, fit'⟩ := taking
  exact ⟨next, returns, fit', (takePreemption_preemption returns).consistent consistent⟩

/-- What `O1Schedule` knows of the task that it picked. -/
structure Picked (count : Nat) (cpu : CpuId) (ptr : TaskPtr) (scheduler : O1Scheduler) : Prop where
  fit : scheduler.Fit count
  known : ∃ task, scheduler.heap.tasks ptr = some task ∧ task.cpu = cpu.val ∧
    ((scheduler.cpuStates cpu).current = some ptr ∧ task.runState = .kOnCpu ∨
      (scheduler.cpuStates cpu).current = none ∧ task.runState = .kRunnable)

private theorem pickNext_succeeds {prioBoost : Bool} (fit : scheduler.Fit count)
    (consistent : (scheduler.placed none).Consistent) :
    Succeeds (scheduler.pickNext cpu prioBoost) fun picked =>
      picked.2.Fit count ∧ ∀ ptr, picked.1 = some ptr → Picked count cpu ptr picked.2 := by
  unfold pickNext
  split
  · exact Succeeds.ok ⟨fit, nofun⟩
  · split
    · next current isCurrent =>
        apply Succeeds.ok
        refine ⟨fit, ?_⟩
        intro ptr isPicked
        cases isPicked
        obtain ⟨task, allocated, onCpu, home⟩ := consistent.current cpu current isCurrent
        exact ⟨fit, task, allocated, home, .inl ⟨isCurrent, onCpu⟩⟩
    · next idle =>
        unfold dequeueOn
        obtain ⟨heap, rq, popped, popping, -⟩ := (consistent.sound cpu).dequeue_pops
        apply Succeeds.bind_of_eq popping
        apply Succeeds.ok
        obtain ⟨rfl, -, rfl, rfl⟩ | ⟨ptr, task, idx, rfl, allocated, queued, rfl, -, -, gains⟩ :=
          (consistent.sound cpu).dequeue popping
        · exact ⟨⟨fit.heap, fit.iterator⟩, nofun⟩
        · have fitting := fit.heap ptr task allocated
          have placed := fitting.placed (.inl queued)
          have home := consistent.home cpu idx ptr task (gains.mem_iff.mpr (.inr ⟨rfl, rfl⟩)) allocated
          have fit' : (scheduler.heap.put ptr { task with runState := .kRunnable }).Fit :=
            fit.heap.put ⟨fitting.located, fun _ => placed, fitting.ranked⟩
          refine ⟨⟨fit', fit.iterator⟩, ?_⟩
          intro other isPicked
          cases isPicked
          refine ⟨⟨fit', fit.iterator⟩, _, Function.update_self .., home, .inr ⟨?_, rfl⟩⟩
          simp [setHeap, setCpu, idle]

private theorem commitNext_succeeds {agentBarrier : Nat} {now : Int} {committed : Bool}
    (picked : Picked count cpu ptr scheduler) :
    Succeeds (scheduler.commitNext cpu ptr agentBarrier now committed) (·.Fit count) := by
  obtain ⟨fit, task, allocated, home, reason⟩ := picked
  have fitting := fit.heap ptr task allocated
  have placed : task.cpu ≠ -1 := by omega
  unfold commitNext
  apply Succeeds.bind_of_eq (Heap.read_eq_ok.mpr allocated)
  dsimp only
  split
  · unfold taskOnCpu
    apply Succeeds.bind_of_eq (Heap.read_eq_ok.mpr allocated)
    apply Succeeds.ok
    refine ⟨fit.heap.store rfl ?_, fit.iterator⟩
    intro found isTask
    cases isTask
    have onCpu : ((cpu.val : Nat) : Int) ≠ -1 := by omega
    exact ⟨.inr ⟨cpu, rfl⟩, fun _ => onCpu, fitting.ranked⟩
  · have opened : ((scheduler.emit (.openTxn cpu task.gtid task.seqnum agentBarrier)).emit
        (.commit cpu committed)).Fit count := ⟨fit.heap, fit.iterator⟩
    apply @Succeeds.bind _ _ _ _ fun taken => taken.Fit count ∧ ∃ task',
      taken.heap.tasks ptr = some task' ∧ task'.cpu = task.cpu ∧ task'.runState = .kRunnable
    · split
      · next isCurrent =>
          have onCpu : task.runState = .kOnCpu := by
            cases reason with
            | inl running => exact running.2
            | inr dequeued => cases dequeued.1.symm.trans isCurrent
          apply (taskOffCpu_succeeds opened allocated placed (.inl onCpu)).mono
          intro taken holds
          obtain ⟨fit', task', allocated', -, sameCpu, runnable⟩ := holds
          exact ⟨fit', task', allocated', sameCpu, runnable⟩
      · next notCurrent =>
          apply Succeeds.ok
          refine ⟨opened, task, allocated, rfl, ?_⟩
          cases reason with
          | inl running => exact absurd running.1 notCurrent
          | inr dequeued => exact dequeued.2
    · intro taken holds
      obtain ⟨fit', task', allocated', sameCpu, runnable⟩ := holds
      have fitting' := fit'.heap ptr task' allocated'
      apply Succeeds.bind_of_eq (Heap.read_eq_ok.mpr allocated')
      apply (requeue_succeeds { task' with prioBoost := true } fit' allocated' runnable rfl
        (sameCpu ▸ placed) fitting'.ranked).mono
      intro queued keeps
      exact keeps.fit

private theorem o1Schedule_succeeds {agentBarrier : Nat} {prioBoost committed : Bool}
    {started now : Int}
    (fit : scheduler.Fit count) (consistent : (scheduler.placed none).Consistent) :
    Succeeds (scheduler.o1Schedule cpu agentBarrier prioBoost started now committed)
      (·.Fit count) := by
  have entered : (scheduler.setHeap (scheduler.heap.note (.entered started))).Fit count :=
    ⟨fit.heap, fit.iterator⟩
  unfold o1Schedule
  apply Succeeds.bind (takePreemption_succeeds entered (consistent.note _))
  intro taken holds
  obtain ⟨fit', consistent'⟩ := holds
  apply Succeeds.bind (pickNext_succeeds fit' consistent')
  intro outcome found
  obtain ⟨chosen, picked⟩ := outcome
  obtain ⟨fit'', known⟩ := found
  cases chosen with
  | none => exact Succeeds.ok ⟨fit''.heap, fit''.iterator⟩
  | some chosen => exact commitNext_succeeds (known chosen rfl)

/-! ## The protocol -/

/-- A later message about a known task. -/
def Sends (scheduler : O1Scheduler) (ptr : TaskPtr) (seqnum : Nat) (task : O1Task) : Prop :=
  scheduler.heap.tasks ptr = some task ∧ task.seqnum < seqnum

end O1Scheduler

/-- A task gets off its CPU, or, as the target of a switchto, off the CPU of another
task. -/
def Switchto.Leaves (payload : Switchto) (task : O1Task) : Prop :=
  task.runState = .kOnCpu ∧ payload.fromSwitchto = false ∨
    task.runState = .kBlocked ∧ payload.fromSwitchto = true

/-- What the ghOSt protocol allows next. -/
def Event.Legal (scheduler : O1Scheduler) : Event → Prop
  | .taskNew ptr _ _ nice _ associated =>
      scheduler.heap.tasks ptr = none ∧ -20 ≤ nice ∧ nice ≤ 19 ∧ associated = true
  | .taskRunnable ptr seqnum _ associated =>
      ∃ task, scheduler.Sends ptr seqnum task ∧ task.runState = .kBlocked ∧ associated = true
  | .taskDeparted ptr payload _ => ∃ task, scheduler.heap.tasks ptr = some task ∧
      (payload.Leaves task ∨ payload.fromSwitchto = false ∧
        (task.runState = .kBlocked ∨ task.runState = .kQueued))
  | .taskDead ptr => ∃ task, scheduler.heap.tasks ptr = some task ∧ task.runState = .kBlocked
  | .taskYield ptr seqnum payload _ =>
      ∃ task, scheduler.Sends ptr seqnum task ∧ payload.Leaves task
  | .taskBlocked ptr seqnum payload _ =>
      ∃ task, scheduler.Sends ptr seqnum task ∧ payload.Leaves task
  | .taskPreempted ptr seqnum payload _ =>
      ∃ task, scheduler.Sends ptr seqnum task ∧ payload.Leaves task
  | .taskSwitchto ptr seqnum _ =>
      ∃ task, scheduler.Sends ptr seqnum task ∧ task.runState = .kOnCpu
  | .taskPriorityChanged ptr seqnum nice => ∃ task, scheduler.Sends ptr seqnum task ∧
      (task.runState = .kBlocked ∨ task.runState = .kQueued) ∧ -20 ≤ nice ∧ nice ≤ 19
  | .cpuTick .. => True
  | .o1Schedule .. => True

/-- A task that reports a switchto has been migrated before. -/
def O1Scheduler.Migrated (scheduler : O1Scheduler) (ptr : TaskPtr) (payload : Switchto) : Prop :=
  payload.fromSwitchto = true → ∀ task, scheduler.heap.tasks ptr = some task → 0 ≤ task.cpu

/-- No message with `from_switchto` is about a task that was never migrated. -/
def Event.Placed (scheduler : O1Scheduler) : Event → Prop
  | .taskDeparted ptr payload _ => scheduler.Migrated ptr payload
  | .taskYield ptr _ payload _ => scheduler.Migrated ptr payload
  | .taskBlocked ptr _ payload _ => scheduler.Migrated ptr payload
  | .taskPreempted ptr _ payload _ => scheduler.Migrated ptr payload
  | _ => True

namespace O1Scheduler

variable {scheduler next : O1Scheduler} {cpu : CpuId} {ptr : TaskPtr} {task : O1Task} {count : Nat}
  {payload : Switchto} {now : Int}

private theorem placed_of_leaves (fit : scheduler.Fit count)
    (allocated : scheduler.heap.tasks ptr = some task) (leaves : payload.Leaves task)
    (migrated : scheduler.Migrated ptr payload) : task.cpu ≠ -1 ∧
      (task.runState = .kOnCpu ∨ task.runState = .kBlocked ∧ payload.fromSwitchto = true) := by
  cases leaves with
  | inl running => exact ⟨(fit.heap ptr task allocated).placed (.inr running.1), .inl running.1⟩
  | inr switched =>
      have located := migrated switched.2 task allocated
      exact ⟨by omega, .inr switched⟩

private theorem dispatchKnown_succeeds {handled : Except Fault O1Scheduler} {seqnum : Nat}
    (sends : scheduler.Sends ptr seqnum task)
    (handling : Succeeds handled (Keeps count ptr task.seqnum)) :
    Succeeds (scheduler.dispatchKnown ptr handled (some seqnum)) (·.Fit count) := by
  unfold dispatchKnown
  rw [sends.1]
  apply handling.bind
  intro after keeps
  exact advance_succeeds keeps sends.2

private theorem dispatchLast_succeeds {handled : Except Fault O1Scheduler}
    (allocated : scheduler.heap.tasks ptr = some task) (handling : Succeeds handled (·.Fit count)) :
    Succeeds (scheduler.dispatchKnown ptr handled none) (·.Fit count) := by
  unfold dispatchKnown
  rw [allocated]
  apply handling.bind
  intro after fit
  exact Succeeds.ok fit

/-- A legal event about migrated tasks is handled. -/
theorem dispatch_succeeds {cpus : List CpuId} (nonempty : cpus ≠ [])
    (fit : scheduler.Fit cpus.length) (consistent : (scheduler.placed none).Consistent)
    {event : Event} (legal : event.Legal scheduler) (placed : event.Placed scheduler) :
    Succeeds (scheduler.dispatch cpus event) (·.Fit cpus.length) := by
  cases event with
  | taskNew ptr gtid seqnum nice runnable associated =>
      obtain ⟨fresh, lower, upper, rfl⟩ := legal
      simp only [dispatch, fresh]
      exact taskNew_succeeds nonempty fit lower upper
  | taskRunnable ptr seqnum deferrable associated =>
      obtain ⟨task, sends, blocked, rfl⟩ := legal
      exact dispatchKnown_succeeds sends (taskRunnable_succeeds nonempty fit sends.1 blocked)
  | taskDeparted ptr payload now =>
      obtain ⟨task, allocated, reason⟩ := legal
      apply dispatchLast_succeeds allocated
      apply taskDeparted_succeeds fit consistent allocated
      obtain (⟨onCpu, plain⟩ | ⟨blocked, switched⟩) | ⟨plain, blocked | queued⟩ := reason
      · exact .inl ⟨plain, by simp [onCpu]⟩
      · have located := placed switched task allocated
        exact .inr ⟨blocked, by omega⟩
      · exact .inl ⟨plain, by simp [blocked]⟩
      · exact .inl ⟨plain, by simp [queued]⟩
  | taskDead ptr =>
      obtain ⟨task, allocated, blocked⟩ := legal
      exact dispatchLast_succeeds allocated (taskDead_succeeds fit allocated blocked)
  | taskYield ptr seqnum payload now =>
      obtain ⟨task, sends, leaves⟩ := legal
      obtain ⟨located, reason⟩ := placed_of_leaves fit sends.1 leaves placed
      exact dispatchKnown_succeeds sends (taskYield_succeeds fit sends.1 located reason)
  | taskBlocked ptr seqnum payload now =>
      obtain ⟨task, sends, leaves⟩ := legal
      obtain ⟨located, reason⟩ := placed_of_leaves fit sends.1 leaves placed
      exact dispatchKnown_succeeds sends (taskBlocked_succeeds fit sends.1 located reason)
  | taskPreempted ptr seqnum payload now =>
      obtain ⟨task, sends, leaves⟩ := legal
      obtain ⟨located, reason⟩ := placed_of_leaves fit sends.1 leaves placed
      exact dispatchKnown_succeeds sends (taskPreempted_succeeds fit sends.1 located reason)
  | taskSwitchto ptr seqnum now =>
      obtain ⟨task, sends, onCpu⟩ := legal
      exact dispatchKnown_succeeds sends (taskSwitchto_succeeds fit sends.1 onCpu)
  | taskPriorityChanged ptr seqnum nice =>
      obtain ⟨task, sends, -, lower, upper⟩ := legal
      exact dispatchKnown_succeeds sends
        (taskPriorityChanged_succeeds fit consistent sends.1 lower upper)
  | cpuTick cpu now later => exact cpuTick_succeeds fit consistent
  | o1Schedule cpu agentBarrier prioBoost started now committed =>
      exact o1Schedule_succeeds fit consistent

/-! ## The assertion that fails -/

/-- `TaskOffCpu` looks up the CPU of the task before anything else. -/
theorem taskOffCpu_unplaced {blocked fromSwitchto : Bool}
    (allocated : scheduler.heap.tasks ptr = some task) (unplaced : task.cpu < 0) :
    scheduler.taskOffCpu ptr blocked fromSwitchto now = .error .check := by
  have missing : cpuStateOf task = .error .check := by
    unfold cpuStateOf
    rw [dif_neg]
    omega
  unfold taskOffCpu
  rw [Heap.read_eq_ok.mpr allocated]
  change (cpuStateOf task >>= _) = _
  rw [missing]
  rfl

private theorem dispatchKnown_error {handled : Except Fault O1Scheduler} {seqnum : Option Nat}
    (allocated : scheduler.heap.tasks ptr = some task) (failing : handled = .error .check) :
    scheduler.dispatchKnown ptr handled seqnum = .error .check := by
  unfold dispatchKnown
  rw [allocated, failing]
  rfl

theorem dispatch_unplaced {cpus : List CpuId} {event : Event}
    (unplaced : ¬event.Placed scheduler) : scheduler.dispatch cpus event = .error .check := by
  have found : ∀ {ptr payload}, ¬scheduler.Migrated ptr payload → payload.fromSwitchto = true ∧
      ∃ task, scheduler.heap.tasks ptr = some task ∧ task.cpu < 0 := by
    intro ptr payload absent
    simp only [Migrated, not_forall, not_le] at absent
    obtain ⟨switched, task, allocated, negative⟩ := absent
    exact ⟨switched, task, allocated, negative⟩
  unfold dispatch
  cases event with
  | taskDeparted ptr payload now =>
      obtain ⟨switched, task, allocated, negative⟩ := found unplaced
      apply dispatchKnown_error allocated
      unfold taskDeparted
      rw [Heap.read_eq_ok.mpr allocated]
      have leaving : task.runState = .kOnCpu ∨ payload.fromSwitchto = true := .inr switched
      simp only [bind, Except.bind, if_pos leaving, taskOffCpu_unplaced allocated negative]
  | taskYield ptr seqnum payload now =>
      obtain ⟨-, task, allocated, negative⟩ := found unplaced
      apply dispatchKnown_error allocated
      rw [taskYield, taskOffCpu_unplaced allocated negative]
      rfl
  | taskBlocked ptr seqnum payload now =>
      obtain ⟨-, task, allocated, negative⟩ := found unplaced
      apply dispatchKnown_error allocated
      rw [taskBlocked, taskOffCpu_unplaced allocated negative]
      rfl
  | taskPreempted ptr seqnum payload now =>
      obtain ⟨-, task, allocated, negative⟩ := found unplaced
      apply dispatchKnown_error allocated
      rw [taskPreempted, taskOffCpu_unplaced allocated negative]
      rfl
  | _ => exact absurd trivial unplaced

end O1Scheduler

/-! ## Runs -/

/-- The runs that the protocol allows, as far as no `CHECK` fails. -/
def legalRuns (cpus : List CpuId) : Machine O1Scheduler Event :=
  (schedulers cpus).restrict fun scheduler event => event.Legal scheduler

/-- Those in which only migrated tasks report a switchto. -/
def placedRuns (cpus : List CpuId) : Machine O1Scheduler Event :=
  (legalRuns cpus).restrict fun scheduler event => event.Placed scheduler

theorem placedRuns_consistent {cpus : List CpuId} {scheduler : O1Scheduler}
    (reachable : (placedRuns cpus).Reachable scheduler) : (scheduler.placed none).Consistent :=
  schedulers_consistent reachable.of_restrict.of_restrict

private theorem placedRuns_fit {cpus : List CpuId} (nonempty : cpus ≠ []) {scheduler : O1Scheduler}
    (reachable : (placedRuns cpus).Reachable scheduler) : scheduler.Fit cpus.length := by
  have both : scheduler.Fit cpus.length ∧ (scheduler.placed none).Consistent := by
    apply reachable.invariant fun scheduler =>
      scheduler.Fit cpus.length ∧ (scheduler.placed none).Consistent
    · intro first starts
      have isInit : first = .init cpus := starts
      rw [isInit]
      refine ⟨⟨?_, Nat.le_refl _⟩, consistent_init cpus⟩
      intro ptr task allocated
      cases allocated
    · intro before event after holds facts
      obtain ⟨fit, consistent⟩ := holds
      obtain ⟨placed, legal, moved⟩ := facts
      have handled := O1Scheduler.dispatch_succeeds nonempty fit consistent legal placed
      exact ⟨handled.elim moved, dispatch_consistent consistent moved⟩
  exact both.1

/-- Whether the next message fails a `CHECK` is only a matter of that. -/
theorem legal_dispatch_iff {cpus : List CpuId} (nonempty : cpus ≠ []) {scheduler : O1Scheduler}
    (reachable : (placedRuns cpus).Reachable scheduler) {event : Event}
    (legal : event.Legal scheduler) :
    (∃ next, scheduler.dispatch cpus event = .ok next) ↔ event.Placed scheduler := by
  constructor
  · intro found
    obtain ⟨next, handled⟩ := found
    by_contra unplaced
    cases handled.symm.trans (O1Scheduler.dispatch_unplaced unplaced)
  · intro placed
    obtain ⟨next, handled, -⟩ := O1Scheduler.dispatch_succeeds nonempty
      (placedRuns_fit nonempty reachable) (placedRuns_consistent reachable) legal placed
    exact ⟨next, handled⟩

end Ghost.O1
