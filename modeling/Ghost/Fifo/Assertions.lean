import Ghost.Fifo.Invariant
import Ghost.O1.Assertions

/-!
# The assertions of the FIFO scheduler

As for the O(1) scheduler: for every message that the protocol allows, the
handlers get through, except that a task that was never migrated may not report a
switchto.
-/

set_option autoImplicit false

namespace Ghost.Fifo

open Lib
open O1 (Fault TaskPtr CpuId Effect Switchto check check_pass)

namespace FifoScheduler

variable {scheduler next : FifoScheduler} {cpu : CpuId} {ptr : TaskPtr} {task task' : FifoTask}
  {count : Nat} {moving : Option TaskPtr}

/-- The iterator of `AssignCpu` is within the CPU list, and the task still has its
sequence number. -/
structure Keeps (count : Nat) (ptr : TaskPtr) (seqnum : Nat) (next : FifoScheduler) : Prop where
  iterator : next.nextCpu ≤ count
  known : ∃ task, next.tasks ptr = some task ∧ task.seqnum = seqnum

private theorem cpuStateOf_ok (located : task.Located) (placed : task.cpu ≠ -1) :
    ∃ cpu : CpuId, task.cpu = cpu.val ∧ cpuStateOf task = .ok cpu := by
  cases located with
  | inl unplaced => exact absurd unplaced.1 placed
  | inr located =>
      obtain ⟨cpu, home⟩ := located
      exact ⟨cpu, home, cpuStateOf_eq_ok.mpr home⟩

private theorem Consistent.placed (consistent : scheduler.Consistent moving)
    (allocated : scheduler.tasks ptr = some task)
    (state : task.runState = .kQueued ∨ task.runState = .kOnCpu) : task.cpu ≠ -1 := by
  cases consistent.located ptr task allocated with
  | inl unplaced =>
      obtain ⟨-, blocked | runnable⟩ := unplaced
      · simp [blocked] at state
      · simp [runnable] at state
  | inr located =>
      obtain ⟨cpu, home⟩ := located
      omega

/-! ## Operations -/

private theorem enqueueOn_succeeds (iterator : scheduler.nextCpu ≤ count)
    (allocated : scheduler.tasks ptr = some task) (runnable : task.runState = .kRunnable)
    (home : task.cpu = cpu.val) :
    Succeeds (scheduler.enqueueOn cpu ptr) (Keeps count ptr task.seqnum) := by
  have pushing : scheduler.enqueueOn cpu ptr = .ok _ :=
    enqueueOn_eq_ok.mpr ⟨task, allocated, by omega, runnable, rfl⟩
  exact Succeeds.of_eq pushing ⟨iterator, _, Tasks.put_self _, rfl⟩

/-- `TaskOffCpu` of a placed task, current on its CPU or blocked after a switchto. -/
theorem taskOffCpu_succeeds {blocked fromSwitchto : Bool} (iterator : scheduler.nextCpu ≤ count)
    (consistent : scheduler.Consistent none) (allocated : scheduler.tasks ptr = some task)
    (placed : task.cpu ≠ -1)
    (reason : task.runState = .kOnCpu ∨ task.runState = .kBlocked ∧ fromSwitchto = true) :
    Succeeds (scheduler.taskOffCpu ptr blocked fromSwitchto) fun next =>
      next.nextCpu ≤ count ∧ ∃ task', next.tasks ptr = some task' ∧ task'.seqnum = task.seqnum ∧
        task'.cpu = task.cpu ∧ task'.runState = if blocked then .kBlocked else .kRunnable := by
  obtain ⟨cpu, home, -⟩ := cpuStateOf_ok (consistent.located ptr task allocated) placed
  cases reason with
  | inl onCpu =>
      have current := consistent.current_iff.mpr ⟨task, allocated, onCpu, home⟩
      have leaving : scheduler.taskOffCpu ptr blocked fromSwitchto = .ok _ := taskOffCpu_eq_ok.mpr
        ⟨task, cpu, allocated, home, .inl ⟨onCpu, current, rfl⟩⟩
      exact Succeeds.of_eq leaving ⟨iterator, _, Tasks.put_self _, rfl, rfl, rfl⟩
  | inr switched =>
      have leaving : scheduler.taskOffCpu ptr blocked fromSwitchto = .ok _ := taskOffCpu_eq_ok.mpr
        ⟨task, cpu, allocated, home, .inr ⟨switched.1, switched.2, rfl⟩⟩
      exact Succeeds.of_eq leaving ⟨iterator, _, Tasks.put_self _, rfl, rfl, rfl⟩

private theorem assignCpu_succeeds {cpus : List CpuId} (nonempty : cpus ≠ [])
    (iterator : scheduler.nextCpu ≤ cpus.length) :
    Succeeds (scheduler.assignCpu cpus) fun assigned =>
      assigned.2.tasks = scheduler.tasks ∧ assigned.2.nextCpu ≤ cpus.length := by
  have occupied : 0 < cpus.length := List.length_pos_iff.mpr nonempty
  unfold assignCpu
  dsimp only
  have inRange : (if scheduler.nextCpu = cpus.length then 0 else scheduler.nextCpu) < cpus.length := by
    split
    · exact occupied
    · next before => exact lt_of_le_of_ne iterator before
  rw [List.getElem?_eq_getElem inRange]
  apply Succeeds.ok
  exact ⟨rfl, inRange⟩

private theorem migrate_succeeds {seqnum : Nat} (iterator : scheduler.nextCpu ≤ count)
    (allocated : scheduler.tasks ptr = some task) (runnable : task.runState = .kRunnable)
    (unplaced : task.cpu = -1) :
    Succeeds (scheduler.migrate ptr cpu seqnum true) (Keeps count ptr task.seqnum) := by
  unfold migrate
  apply Succeeds.bind_of_eq (Tasks.read_eq_ok.mpr allocated)
  apply Succeeds.bind_of_eq (check_pass runnable)
  apply Succeeds.bind_of_eq (check_pass unplaced)
  apply Succeeds.bind_of_eq (check_pass rfl)
  have placing : ((scheduler.emit (.associateTask task.gtid cpu seqnum)).put ptr
      { task with cpu := cpu.val }).nextCpu ≤ count := iterator
  apply Succeeds.bind (enqueueOn_succeeds placing (Tasks.put_self _) runnable rfl)
  intro queued keeps
  exact Succeeds.ok ⟨keeps.iterator, keeps.known⟩

private theorem Keeps.pingSwitchto {seqnum : Nat} (keeps : Keeps count ptr seqnum scheduler)
    (payload : Switchto) : Keeps count ptr seqnum (scheduler.pingSwitchto payload) := by
  unfold FifoScheduler.pingSwitchto
  split
  · exact ⟨keeps.iterator, keeps.known⟩
  · exact keeps

/-- Requeueing a task that is in the transitory state. -/
theorem requeue_succeeds (task' : FifoTask) (iterator : scheduler.nextCpu ≤ count)
    (runnable : task'.runState = .kRunnable) (home : task'.cpu = cpu.val) :
    Succeeds ((scheduler.put ptr task').enqueueOn cpu ptr) (Keeps count ptr task'.seqnum) := by
  have kept : (scheduler.put ptr task').nextCpu ≤ count := iterator
  exact enqueueOn_succeeds kept (Tasks.put_self _) runnable home

/-! ## Task messages -/

private theorem taskNew_succeeds {cpus : List CpuId} (nonempty : cpus ≠ [])
    (iterator : scheduler.nextCpu ≤ cpus.length) {gtid seqnum : Nat} {runnable : Bool} :
    Succeeds ((scheduler.put ptr { gtid := gtid }).taskNew cpus ptr seqnum runnable true)
      (·.nextCpu ≤ cpus.length) := by
  unfold taskNew
  apply Succeeds.bind_of_eq (Tasks.read_eq_ok.mpr (Tasks.put_self _))
  dsimp only
  split
  · have arrived : ((scheduler.put ptr { gtid := gtid }).put ptr
        { gtid := gtid, seqnum := seqnum, runState := .kRunnable }).nextCpu ≤ cpus.length := iterator
    apply Succeeds.bind (assignCpu_succeeds nonempty arrived)
    intro outcome found
    obtain ⟨cpu, assigned⟩ := outcome
    obtain ⟨sameTasks, iterator'⟩ := found
    have allocated := (congrFun sameTasks ptr).trans (Tasks.put_self _)
    apply (migrate_succeeds iterator' allocated rfl rfl).mono
    intro next keeps
    exact keeps.iterator
  · exact Succeeds.ok iterator

private theorem taskRunnable_succeeds {cpus : List CpuId} (nonempty : cpus ≠ [])
    (iterator : scheduler.nextCpu ≤ cpus.length) (consistent : scheduler.Consistent none)
    {seqnum : Nat} {deferrable : Bool} (allocated : scheduler.tasks ptr = some task)
    (blocked : task.runState = .kBlocked) :
    Succeeds (scheduler.taskRunnable cpus ptr seqnum deferrable true)
      (Keeps cpus.length ptr task.seqnum) := by
  have located := consistent.located ptr task allocated
  unfold taskRunnable
  apply Succeeds.bind_of_eq (Tasks.read_eq_ok.mpr allocated)
  apply Succeeds.bind_of_eq (check_pass blocked)
  dsimp only
  split
  · next negative =>
      have unplaced : task.cpu = -1 := by
        cases located with
        | inl unplaced => exact unplaced.1
        | inr placed =>
            obtain ⟨cpu, home⟩ := placed
            omega
      have woken : (scheduler.put ptr
          { task with runState := .kRunnable, prioBoost := !deferrable }).nextCpu ≤ cpus.length :=
        iterator
      apply Succeeds.bind (assignCpu_succeeds nonempty woken)
      intro outcome holds
      obtain ⟨cpu, assigned⟩ := outcome
      obtain ⟨sameTasks, iterator'⟩ := holds
      have allocated' := (congrFun sameTasks ptr).trans (Tasks.put_self _)
      have migrating := @migrate_succeeds _ cpu _ _ _ seqnum iterator' allocated' rfl unplaced
      exact migrating
  · next placed =>
      have placed' : task.cpu ≠ -1 := by
        intro unplaced
        rw [unplaced] at placed
        exact placed (by decide)
      obtain ⟨cpu, home, -⟩ := cpuStateOf_ok located placed'
      apply Succeeds.bind_of_eq (cpuStateOf_eq_ok.mpr home)
      exact requeue_succeeds { task with runState := .kRunnable, prioBoost := !deferrable } iterator
        rfl home

private theorem taskDeparted_succeeds {payload : Switchto} (iterator : scheduler.nextCpu ≤ count)
    (consistent : scheduler.Consistent none) (allocated : scheduler.tasks ptr = some task)
    (reason : payload.fromSwitchto = false ∨ task.runState = .kBlocked ∧ task.cpu ≠ -1) :
    Succeeds (scheduler.taskDeparted ptr payload) (·.nextCpu ≤ count) := by
  have located := consistent.located ptr task allocated
  unfold taskDeparted
  apply Succeeds.bind_of_eq (Tasks.read_eq_ok.mpr allocated)
  apply @Succeeds.bind _ _ _ _ (·.nextCpu ≤ count)
  · split
    · next leaving =>
        have placed : task.cpu ≠ -1 := by
          cases reason with
          | inl plain =>
              rw [plain] at leaving
              exact consistent.placed allocated (.inr (leaving.resolve_right Bool.false_ne_true))
          | inr blocked => exact blocked.2
        have state : task.runState = .kOnCpu ∨
            task.runState = .kBlocked ∧ payload.fromSwitchto = true := by
          cases leaving with
          | inl onCpu => exact .inl onCpu
          | inr switched =>
              cases reason with
              | inl plain => cases plain.symm.trans switched
              | inr blocked => exact .inr ⟨blocked.1, switched⟩
        apply (taskOffCpu_succeeds iterator consistent allocated placed state).mono
        intro next left
        exact left.1
    · split
      · next queued =>
          obtain ⟨cpu, home, found⟩ := cpuStateOf_ok located (consistent.placed allocated (.inl queued))
          apply Succeeds.bind_of_eq found
          exact Succeeds.of_eq (eraseOn_eq_ok consistent allocated queued home) iterator
      · next notLeaving notQueued =>
          have blocked : task.runState = .kBlocked := by
            cases state : task.runState with
            | kBlocked => rfl
            | kRunnable => exact absurd state (consistent.not_runnable allocated)
            | kQueued => exact absurd state notQueued
            | kOnCpu => exact absurd (.inl state) notLeaving
          apply Succeeds.bind_of_eq (check_pass blocked)
          exact Succeeds.ok iterator
  · intro taken iterator'
    apply Succeeds.ok
    unfold pingSwitchto
    split <;> exact iterator'

private theorem taskDead_succeeds (iterator : scheduler.nextCpu ≤ count)
    (allocated : scheduler.tasks ptr = some task) (blocked : task.runState = .kBlocked) :
    Succeeds (scheduler.taskDead ptr) (·.nextCpu ≤ count) := by
  unfold taskDead
  apply Succeeds.bind_of_eq (Tasks.read_eq_ok.mpr allocated)
  apply Succeeds.bind_of_eq (check_pass blocked)
  exact Succeeds.ok iterator

section OffCpu

variable {payload : Switchto} (iterator : scheduler.nextCpu ≤ count)
  (consistent : scheduler.Consistent none) (allocated : scheduler.tasks ptr = some task)
  (placed : task.cpu ≠ -1)
  (reason : task.runState = .kOnCpu ∨ task.runState = .kBlocked ∧ payload.fromSwitchto = true)

include iterator consistent allocated placed reason

private theorem taskYield_succeeds :
    Succeeds (scheduler.taskYield ptr payload) (Keeps count ptr task.seqnum) := by
  obtain ⟨cpu, home, -⟩ := cpuStateOf_ok (consistent.located ptr task allocated) placed
  unfold taskYield
  apply Succeeds.bind (taskOffCpu_succeeds iterator consistent allocated placed reason)
  intro taken holds
  obtain ⟨iterator', task', allocated', sameSeqnum, sameCpu, runnable⟩ := holds
  apply Succeeds.bind_of_eq (Tasks.read_eq_ok.mpr allocated')
  apply Succeeds.bind_of_eq (cpuStateOf_eq_ok.mpr (sameCpu.trans home))
  apply Succeeds.bind (enqueueOn_succeeds iterator' allocated' runnable (sameCpu.trans home))
  intro queued keeps
  rw [sameSeqnum] at keeps
  exact Succeeds.ok (keeps.pingSwitchto payload)

private theorem taskBlocked_succeeds :
    Succeeds (scheduler.taskBlocked ptr payload) (Keeps count ptr task.seqnum) := by
  unfold taskBlocked
  apply Succeeds.bind (taskOffCpu_succeeds iterator consistent allocated placed reason)
  intro taken found
  obtain ⟨iterator', task', allocated', sameSeqnum, -⟩ := found
  apply Succeeds.ok
  have keeps : Keeps count ptr task.seqnum taken := ⟨iterator', task', allocated', sameSeqnum⟩
  exact keeps.pingSwitchto payload

private theorem taskPreempted_succeeds :
    Succeeds (scheduler.taskPreempted ptr payload) (Keeps count ptr task.seqnum) := by
  obtain ⟨cpu, home, -⟩ := cpuStateOf_ok (consistent.located ptr task allocated) placed
  unfold taskPreempted
  apply Succeeds.bind (taskOffCpu_succeeds iterator consistent allocated placed reason)
  intro taken found
  obtain ⟨iterator', task', allocated', sameSeqnum, sameCpu, runnable⟩ := found
  apply Succeeds.bind_of_eq (Tasks.read_eq_ok.mpr allocated')
  apply Succeeds.bind_of_eq (cpuStateOf_eq_ok.mpr (sameCpu.trans home))
  apply Succeeds.bind (requeue_succeeds { task' with preempted := true, prioBoost := true } iterator'
    runnable (sameCpu.trans home))
  intro queued keeps
  dsimp only at keeps
  rw [sameSeqnum] at keeps
  exact Succeeds.ok (keeps.pingSwitchto payload)

end OffCpu

private theorem taskSwitchto_succeeds (iterator : scheduler.nextCpu ≤ count)
    (consistent : scheduler.Consistent none) (allocated : scheduler.tasks ptr = some task)
    (onCpu : task.runState = .kOnCpu) :
    Succeeds (scheduler.taskSwitchto ptr) (Keeps count ptr task.seqnum) := by
  have placed := consistent.placed allocated (.inr onCpu)
  apply (taskOffCpu_succeeds iterator consistent allocated placed (.inl onCpu)).mono
  intro taken found
  obtain ⟨iterator', task', allocated', sameSeqnum, -⟩ := found
  exact ⟨iterator', task', allocated', sameSeqnum⟩

private theorem advance_succeeds {seqnum nextSeqnum : Nat}
    (keeps : Keeps count ptr seqnum scheduler)
    (later : seqnum < nextSeqnum) :
    Succeeds (scheduler.advance ptr nextSeqnum) (·.nextCpu ≤ count) := by
  obtain ⟨iterator, task, allocated, rfl⟩ := keeps
  unfold advance
  apply Succeeds.bind_of_eq (Tasks.read_eq_ok.mpr allocated)
  apply Succeeds.bind_of_eq (check_pass later)
  exact Succeeds.ok iterator

/-! ## Scheduling -/

/-- What `FifoSchedule` knows of the task that it picked. -/
structure Picked (count : Nat) (cpu : CpuId) (ptr : TaskPtr) (scheduler : FifoScheduler) : Prop where
  iterator : scheduler.nextCpu ≤ count
  known : ∃ task, scheduler.tasks ptr = some task ∧ task.cpu = cpu.val ∧
    ((scheduler.cpuStates cpu).current = some ptr ∧ scheduler.Consistent none ∧
        task.runState = .kOnCpu ∨
      (scheduler.cpuStates cpu).current = none ∧ task.runState = .kRunnable)

private theorem pickNext_succeeds {prioBoost : Bool} (iterator : scheduler.nextCpu ≤ count)
    (consistent : scheduler.Consistent none) :
    Succeeds (scheduler.pickNext cpu prioBoost) fun picked =>
      picked.2.nextCpu ≤ count ∧ ∀ ptr, picked.1 = some ptr → Picked count cpu ptr picked.2 := by
  unfold pickNext
  split
  · exact Succeeds.ok ⟨iterator, nofun⟩
  · split
    · next current isCurrent =>
        apply Succeeds.ok
        refine ⟨iterator, ?_⟩
        intro ptr isPicked
        cases isPicked
        obtain ⟨task, allocated, onCpu, home⟩ := consistent.current_iff.mp isCurrent
        exact ⟨iterator, task, allocated, home, .inl ⟨isCurrent, consistent, onCpu⟩⟩
    · next idle =>
        obtain ⟨-, nothing⟩ | ⟨ptr, task, rest, -, allocated, queued, home, popping⟩ :=
          @dequeueOn_eq_ok _ cpu consistent
        · exact Succeeds.of_eq nothing ⟨iterator, nofun⟩
        · apply Succeeds.of_eq popping
          refine ⟨iterator, ?_⟩
          intro other isPicked
          cases isPicked
          refine ⟨iterator, _, Tasks.put_self _, home, .inr ⟨?_, rfl⟩⟩
          simp [put, setTasks, setCpu, idle]

private theorem commitNext_succeeds {agentBarrier : Nat} {committed : Bool}
    (picked : Picked count cpu ptr scheduler) :
    Succeeds (scheduler.commitNext cpu ptr agentBarrier committed) (·.nextCpu ≤ count) := by
  obtain ⟨iterator, task, allocated, home, reason⟩ := picked
  have placed : task.cpu ≠ -1 := by omega
  unfold commitNext
  apply Succeeds.bind_of_eq (Tasks.read_eq_ok.mpr allocated)
  dsimp only
  split
  · unfold taskOnCpu
    apply Succeeds.bind_of_eq (Tasks.read_eq_ok.mpr allocated)
    exact Succeeds.ok iterator
  · have opened : ((scheduler.emit (.openTxn cpu task.gtid task.seqnum agentBarrier)).emit
        (.commit cpu committed)).nextCpu ≤ count := iterator
    apply @Succeeds.bind _ _ _ _ fun taken => taken.nextCpu ≤ count ∧ ∃ task',
      taken.tasks ptr = some task' ∧ task'.cpu = task.cpu ∧ task'.runState = .kRunnable
    · split
      · next isCurrent =>
          cases reason with
          | inl running =>
              obtain ⟨-, consistent, onCpu⟩ := running
              have consistent' := (consistent.emit
                (.openTxn cpu task.gtid task.seqnum agentBarrier)).emit (.commit cpu committed)
              apply (taskOffCpu_succeeds opened consistent' allocated placed (.inl onCpu)).mono
              intro taken found
              obtain ⟨iterator', task', allocated', -, sameCpu, runnable⟩ := found
              exact ⟨iterator', task', allocated', sameCpu, runnable⟩
          | inr dequeued => cases dequeued.1.symm.trans isCurrent
      · next notCurrent =>
          apply Succeeds.ok
          refine ⟨opened, task, allocated, rfl, ?_⟩
          cases reason with
          | inl running => exact absurd running.1 notCurrent
          | inr dequeued => exact dequeued.2
    · intro taken found
      obtain ⟨iterator', task', allocated', sameCpu, runnable⟩ := found
      apply Succeeds.bind_of_eq (Tasks.read_eq_ok.mpr allocated')
      apply (requeue_succeeds { task' with prioBoost := true } iterator' runnable
        (sameCpu.trans home)).mono
      intro queued keeps
      exact keeps.iterator

private theorem fifoSchedule_succeeds {agentBarrier : Nat} {prioBoost committed : Bool}
    (iterator : scheduler.nextCpu ≤ count) (consistent : scheduler.Consistent none) :
    Succeeds (scheduler.fifoSchedule cpu agentBarrier prioBoost committed) (·.nextCpu ≤ count) := by
  unfold fifoSchedule
  apply Succeeds.bind (pickNext_succeeds iterator consistent)
  intro outcome found
  obtain ⟨chosen, picked⟩ := outcome
  obtain ⟨iterator', known⟩ := found
  cases chosen with
  | none => exact Succeeds.ok iterator'
  | some chosen => exact commitNext_succeeds (known chosen rfl)

/-! ## The protocol -/

/-- A later message about a known task. -/
def Sends (scheduler : FifoScheduler) (ptr : TaskPtr) (seqnum : Nat) (task : FifoTask) : Prop :=
  scheduler.tasks ptr = some task ∧ task.seqnum < seqnum

/-- A task that reports a switchto has been migrated before. -/
def Migrated (scheduler : FifoScheduler) (ptr : TaskPtr) (payload : Switchto) : Prop :=
  payload.fromSwitchto = true → ∀ task, scheduler.tasks ptr = some task → 0 ≤ task.cpu

end FifoScheduler

/-- A task gets off its CPU, or, as the target of a switchto, off the CPU of another
task. -/
def FifoTask.Leaves (task : FifoTask) (payload : Switchto) : Prop :=
  task.runState = .kOnCpu ∧ payload.fromSwitchto = false ∨
    task.runState = .kBlocked ∧ payload.fromSwitchto = true

/-- What the ghOSt protocol allows next. -/
def Event.Legal (scheduler : FifoScheduler) : Event → Prop
  | .taskNew ptr _ _ _ associated => scheduler.tasks ptr = none ∧ associated = true
  | .taskRunnable ptr seqnum _ associated =>
      ∃ task, scheduler.Sends ptr seqnum task ∧ task.runState = .kBlocked ∧ associated = true
  | .taskDeparted ptr payload => ∃ task, scheduler.tasks ptr = some task ∧
      (task.Leaves payload ∨ payload.fromSwitchto = false ∧
        (task.runState = .kBlocked ∨ task.runState = .kQueued))
  | .taskDead ptr => ∃ task, scheduler.tasks ptr = some task ∧ task.runState = .kBlocked
  | .taskYield ptr seqnum payload => ∃ task, scheduler.Sends ptr seqnum task ∧ task.Leaves payload
  | .taskBlocked ptr seqnum payload => ∃ task, scheduler.Sends ptr seqnum task ∧ task.Leaves payload
  | .taskPreempted ptr seqnum payload =>
      ∃ task, scheduler.Sends ptr seqnum task ∧ task.Leaves payload
  | .taskSwitchto ptr seqnum => ∃ task, scheduler.Sends ptr seqnum task ∧ task.runState = .kOnCpu
  | .taskPriorityChanged ptr seqnum => ∃ task, scheduler.Sends ptr seqnum task ∧
      (task.runState = .kBlocked ∨ task.runState = .kQueued)
  | .fifoSchedule .. => True

/-- No message with `from_switchto` is about a task that was never migrated. -/
def Event.Placed (scheduler : FifoScheduler) : Event → Prop
  | .taskDeparted ptr payload => scheduler.Migrated ptr payload
  | .taskYield ptr _ payload => scheduler.Migrated ptr payload
  | .taskBlocked ptr _ payload => scheduler.Migrated ptr payload
  | .taskPreempted ptr _ payload => scheduler.Migrated ptr payload
  | _ => True

namespace FifoScheduler

variable {scheduler next : FifoScheduler} {cpu : CpuId} {ptr : TaskPtr} {task : FifoTask}
  {count : Nat} {payload : Switchto}

private theorem placed_of_leaves (consistent : scheduler.Consistent none)
    (allocated : scheduler.tasks ptr = some task) (leaves : task.Leaves payload)
    (migrated : scheduler.Migrated ptr payload) : task.cpu ≠ -1 ∧
      (task.runState = .kOnCpu ∨ task.runState = .kBlocked ∧ payload.fromSwitchto = true) := by
  cases leaves with
  | inl running => exact ⟨consistent.placed allocated (.inr running.1), .inl running.1⟩
  | inr switched =>
      have located := migrated switched.2 task allocated
      exact ⟨by omega, .inr switched⟩

private theorem dispatchKnown_succeeds {handled : Except Fault FifoScheduler} {seqnum : Nat}
    (sends : scheduler.Sends ptr seqnum task)
    (handling : Succeeds handled (Keeps count ptr task.seqnum)) :
    Succeeds (scheduler.dispatchKnown ptr handled (some seqnum)) (·.nextCpu ≤ count) := by
  unfold dispatchKnown
  rw [sends.1]
  apply handling.bind
  intro after keeps
  exact advance_succeeds keeps sends.2

private theorem dispatchLast_succeeds {handled : Except Fault FifoScheduler}
    (allocated : scheduler.tasks ptr = some task)
    (handling : Succeeds handled (·.nextCpu ≤ count)) :
    Succeeds (scheduler.dispatchKnown ptr handled none) (·.nextCpu ≤ count) := by
  unfold dispatchKnown
  rw [allocated]
  apply handling.bind
  intro after iterator
  exact Succeeds.ok iterator

/-- A legal event about migrated tasks is handled. -/
theorem dispatch_succeeds {cpus : List CpuId} (nonempty : cpus ≠ [])
    (iterator : scheduler.nextCpu ≤ cpus.length) (consistent : scheduler.Consistent none)
    {event : Event} (legal : event.Legal scheduler) (placed : event.Placed scheduler) :
    Succeeds (scheduler.dispatch cpus event) (·.nextCpu ≤ cpus.length) := by
  cases event with
  | taskNew ptr gtid seqnum runnable associated =>
      obtain ⟨fresh, rfl⟩ := legal
      simp only [dispatch, fresh]
      exact taskNew_succeeds nonempty iterator
  | taskRunnable ptr seqnum deferrable associated =>
      obtain ⟨task, sends, blocked, rfl⟩ := legal
      exact dispatchKnown_succeeds sends
        (taskRunnable_succeeds nonempty iterator consistent sends.1 blocked)
  | taskDeparted ptr payload =>
      obtain ⟨task, allocated, reason⟩ := legal
      apply dispatchLast_succeeds allocated
      apply taskDeparted_succeeds iterator consistent allocated
      obtain (⟨-, plain⟩ | ⟨blocked, switched⟩) | ⟨plain, -⟩ := reason
      · exact .inl plain
      · have located := placed switched task allocated
        exact .inr ⟨blocked, by omega⟩
      · exact .inl plain
  | taskDead ptr =>
      obtain ⟨task, allocated, blocked⟩ := legal
      exact dispatchLast_succeeds allocated (taskDead_succeeds iterator allocated blocked)
  | taskYield ptr seqnum payload =>
      obtain ⟨task, sends, leaves⟩ := legal
      obtain ⟨located, reason⟩ := placed_of_leaves consistent sends.1 leaves placed
      exact dispatchKnown_succeeds sends
        (taskYield_succeeds iterator consistent sends.1 located reason)
  | taskBlocked ptr seqnum payload =>
      obtain ⟨task, sends, leaves⟩ := legal
      obtain ⟨located, reason⟩ := placed_of_leaves consistent sends.1 leaves placed
      exact dispatchKnown_succeeds sends
        (taskBlocked_succeeds iterator consistent sends.1 located reason)
  | taskPreempted ptr seqnum payload =>
      obtain ⟨task, sends, leaves⟩ := legal
      obtain ⟨located, reason⟩ := placed_of_leaves consistent sends.1 leaves placed
      exact dispatchKnown_succeeds sends
        (taskPreempted_succeeds iterator consistent sends.1 located reason)
  | taskSwitchto ptr seqnum =>
      obtain ⟨task, sends, onCpu⟩ := legal
      exact dispatchKnown_succeeds sends (taskSwitchto_succeeds iterator consistent sends.1 onCpu)
  | taskPriorityChanged ptr seqnum =>
      obtain ⟨task, sends, -⟩ := legal
      exact dispatchKnown_succeeds sends (Succeeds.ok ⟨iterator, task, sends.1, rfl⟩)
  | fifoSchedule cpu agentBarrier prioBoost committed =>
      exact fifoSchedule_succeeds iterator consistent

/-! ## The assertion that fails -/

/-- `TaskOffCpu` looks up the CPU of the task before anything else. -/
theorem taskOffCpu_unplaced {blocked fromSwitchto : Bool}
    (allocated : scheduler.tasks ptr = some task) (unplaced : task.cpu < 0) :
    scheduler.taskOffCpu ptr blocked fromSwitchto = .error .check := by
  have missing : cpuStateOf task = .error .check := by
    unfold cpuStateOf
    rw [dif_neg]
    omega
  unfold taskOffCpu
  rw [Tasks.read_eq_ok.mpr allocated]
  change (cpuStateOf task >>= _) = _
  rw [missing]
  rfl

private theorem dispatchKnown_error {handled : Except Fault FifoScheduler} {seqnum : Option Nat}
    (allocated : scheduler.tasks ptr = some task) (failing : handled = .error .check) :
    scheduler.dispatchKnown ptr handled seqnum = .error .check := by
  unfold dispatchKnown
  rw [allocated, failing]
  rfl

private theorem dispatch_unplaced {cpus : List CpuId} {event : Event}
    (unplaced : ¬event.Placed scheduler) : scheduler.dispatch cpus event = .error .check := by
  have found : ∀ {ptr payload}, ¬scheduler.Migrated ptr payload → payload.fromSwitchto = true ∧
      ∃ task, scheduler.tasks ptr = some task ∧ task.cpu < 0 := by
    intro ptr payload absent
    simp only [Migrated, not_forall, not_le] at absent
    obtain ⟨switched, task, allocated, negative⟩ := absent
    exact ⟨switched, task, allocated, negative⟩
  unfold dispatch
  cases event with
  | taskDeparted ptr payload =>
      obtain ⟨switched, task, allocated, negative⟩ := found unplaced
      apply dispatchKnown_error allocated
      unfold taskDeparted
      rw [Tasks.read_eq_ok.mpr allocated]
      have leaving : task.runState = .kOnCpu ∨ payload.fromSwitchto = true := .inr switched
      simp only [bind, Except.bind, if_pos leaving, taskOffCpu_unplaced allocated negative]
  | taskYield ptr seqnum payload =>
      obtain ⟨-, task, allocated, negative⟩ := found unplaced
      apply dispatchKnown_error allocated
      rw [taskYield, taskOffCpu_unplaced allocated negative]
      rfl
  | taskBlocked ptr seqnum payload =>
      obtain ⟨-, task, allocated, negative⟩ := found unplaced
      apply dispatchKnown_error allocated
      rw [taskBlocked, taskOffCpu_unplaced allocated negative]
      rfl
  | taskPreempted ptr seqnum payload =>
      obtain ⟨-, task, allocated, negative⟩ := found unplaced
      apply dispatchKnown_error allocated
      rw [taskPreempted, taskOffCpu_unplaced allocated negative]
      rfl
  | _ => exact absurd trivial unplaced

end FifoScheduler

/-! ## Runs -/

/-- The runs that the protocol allows, as far as no `CHECK` fails. -/
def legalRuns (cpus : List CpuId) : Machine FifoScheduler Event :=
  (schedulers cpus).restrict fun scheduler event => event.Legal scheduler

/-- Those in which only migrated tasks report a switchto. -/
def placedRuns (cpus : List CpuId) : Machine FifoScheduler Event :=
  (legalRuns cpus).restrict fun scheduler event => event.Placed scheduler

private theorem placedRuns_iterator {cpus : List CpuId} (nonempty : cpus ≠ [])
    {scheduler : FifoScheduler}
    (reachable : (placedRuns cpus).Reachable scheduler) : scheduler.nextCpu ≤ cpus.length := by
  have both : scheduler.nextCpu ≤ cpus.length ∧ scheduler.Consistent none := by
    apply reachable.invariant fun scheduler =>
      scheduler.nextCpu ≤ cpus.length ∧ scheduler.Consistent none
    · intro first starts
      have isInit : first = .init cpus := starts
      rw [isInit]
      exact ⟨Nat.le_refl _, FifoScheduler.init_consistent cpus⟩
    · intro before event after holds facts
      obtain ⟨iterator, consistent⟩ := holds
      obtain ⟨placed, legal, moved⟩ := facts
      have handled := FifoScheduler.dispatch_succeeds nonempty iterator consistent legal placed
      exact ⟨handled.elim moved, consistent.dispatch moved⟩
  exact both.1

/-- Whether the next message fails a `CHECK` is only a matter of that. -/
theorem legal_dispatch_iff {cpus : List CpuId} (nonempty : cpus ≠ []) {scheduler : FifoScheduler}
    (reachable : (placedRuns cpus).Reachable scheduler) {event : Event}
    (legal : event.Legal scheduler) :
    (∃ next, scheduler.dispatch cpus event = .ok next) ↔ event.Placed scheduler := by
  constructor
  · intro holds
    obtain ⟨next, handled⟩ := holds
    by_contra unplaced
    cases handled.symm.trans (FifoScheduler.dispatch_unplaced unplaced)
  · intro placed
    have consistent := schedulers_consistent reachable.of_restrict.of_restrict
    obtain ⟨next, handled, -⟩ := FifoScheduler.dispatch_succeeds nonempty
      (placedRuns_iterator nonempty reachable) consistent legal placed
    exact ⟨next, handled⟩

/-! ## Both schedulers -/

/-- Along every legal run in which only migrated tasks report a switchto, both
schedulers handle a legal event exactly if it is of that kind, too. -/
theorem assertions_hold_iff_migrated (first : CpuId) (rest : List CpuId) :
    (∀ scheduler, (O1.placedRuns (first :: rest)).Reachable scheduler →
      ∀ event : O1.Event, event.Legal scheduler →
        ((∃ next, scheduler.dispatch (first :: rest) event = .ok next) ↔ event.Placed scheduler)) ∧
    (∀ scheduler, (placedRuns (first :: rest)).Reachable scheduler →
      ∀ event : Event, event.Legal scheduler →
        ((∃ next, scheduler.dispatch (first :: rest) event = .ok next) ↔
          event.Placed scheduler)) := by
  have nonempty : first :: rest ≠ [] := List.cons_ne_nil first rest
  constructor
  · intro scheduler reachable event legal
    exact O1.legal_dispatch_iff nonempty reachable legal
  · intro scheduler reachable event legal
    exact legal_dispatch_iff nonempty reachable legal

/-- A task arrives blocked, so that neither scheduler places it. -/
def o1Arrived : O1.O1Scheduler := O1.O1Scheduler.after [firstCpu] [.taskNew 1 101 1 0 false true]

def fifoArrived : FifoScheduler := FifoScheduler.after [firstCpu] [.taskNew 1 101 1 false true]

theorem o1Arrived_reachable : (O1.placedRuns [firstCpu]).Reachable o1Arrived := by
  refine ⟨.init [firstCpu], [.taskNew 1 101 1 0 false true], rfl, .cons ⟨trivial, ?_, rfl⟩ (.nil _)⟩
  exact ⟨rfl, by decide, by decide, rfl⟩

theorem fifoArrived_reachable : (placedRuns [firstCpu]).Reachable fifoArrived := by
  refine ⟨.init [firstCpu], [.taskNew 1 101 1 false true], rfl, .cons ⟨trivial, ?_, rfl⟩ (.nil _)⟩
  exact ⟨rfl, rfl⟩

/-- Its wakeup is handled. -/
theorem assertions_hold_iff_migrated_wakeup :
    (∃ next, o1Arrived.dispatch [firstCpu] (.taskRunnable 1 2 false true) = .ok next) ∧
      ∃ next, fifoArrived.dispatch [firstCpu] (.taskRunnable 1 2 false true) = .ok next := by
  obtain ⟨o1, fifo⟩ := assertions_hold_iff_migrated firstCpu []
  constructor
  · apply (o1 o1Arrived o1Arrived_reachable (.taskRunnable 1 2 false true) ?_).mpr trivial
    exact ⟨_, ⟨rfl, by decide⟩, rfl, rfl⟩
  · apply (fifo fifoArrived fifoArrived_reachable (.taskRunnable 1 2 false true) ?_).mpr trivial
    exact ⟨_, ⟨rfl, by decide⟩, rfl, rfl⟩

/-- But if another task switches to it, then the message with which it blocks again
fails `CHECK_GE(task->cpu, 0)`. -/
theorem assertions_fail_for_switchto_target :
    ((O1.legalRuns [firstCpu]).Reachable o1Arrived ∧
      (O1.Event.taskBlocked 1 2 ⟨true, firstCpu⟩ 0).Legal o1Arrived ∧
      o1Arrived.dispatch [firstCpu] (.taskBlocked 1 2 ⟨true, firstCpu⟩ 0) = .error .check) ∧
    (legalRuns [firstCpu]).Reachable fifoArrived ∧
      (Event.taskBlocked 1 2 ⟨true, firstCpu⟩).Legal fifoArrived ∧
      fifoArrived.dispatch [firstCpu] (.taskBlocked 1 2 ⟨true, firstCpu⟩) = .error .check := by
  refine ⟨⟨o1Arrived_reachable.of_restrict, ?_, ?_⟩, fifoArrived_reachable.of_restrict, ?_, ?_⟩
  · exact ⟨_, ⟨rfl, by decide⟩, .inr ⟨rfl, rfl⟩⟩
  · exact O1.O1Scheduler.dispatch_unplaced fun placed => absurd (placed rfl _ rfl) (by decide)
  · exact ⟨_, ⟨rfl, by decide⟩, .inr ⟨rfl, rfl⟩⟩
  · exact FifoScheduler.dispatch_unplaced fun placed => absurd (placed rfl _ rfl) (by decide)

end Ghost.Fifo
