import Ghost.O1.Invariant

/-!
# Time-slice accounting

A ledger follows the record of accounting calls and adds up, for every task, the
time it was on a CPU since its last slice was granted. The scheduler charges a
running task at ticks and when it gets off its CPU; it charges exactly the time
of the ledger as long as nothing moves `runtime_at_last_pick` without charging.
-/

set_option autoImplicit false

namespace Ghost.O1

open Lib

/-! ## The ledger -/

/-- The time on a CPU since the last grant, without the interval that is open. -/
structure Account where
  ran : Int := 0
  since : Option Int := none

namespace Account

/-- A new slice: an open interval counts from now on. -/
def renew (clock : Int) (account : Account) : Account :=
  { ran := 0, since := account.since.map fun _ => clock }

/-- An interval starts when the task gets on a CPU from off-CPU. -/
def start (now : Int) (account : Account) : Account :=
  { account with since := some (account.since.getD now) }

def stop (now : Int) (account : Account) : Account :=
  match account.since with
  | some since => { ran := account.ran + (now - since), since := none }
  | none => account

end Account

structure Ledger where
  clock : Int := 0
  account : TaskPtr → Account := fun _ => {}

namespace Ledger

def adjust (ledger : Ledger) (ptr : TaskPtr) (change : Account → Account) : Ledger :=
  { ledger with account := Function.update ledger.account ptr (change (ledger.account ptr)) }

def post (entry : Accounting) (ledger : Ledger) : Ledger :=
  match entry with
  | .entered at_ => { ledger with clock := at_ }
  | .grant ptr => ledger.adjust ptr (.renew ledger.clock)
  | .onCpu ptr now => ledger.adjust ptr (.start now)
  | .offCpu ptr now => ledger.adjust ptr (.stop now)

/-- The ledger of a record, which lists the newest entry first. -/
def ofRecord (record : List Accounting) : Ledger := record.foldr post {}

end Ledger

def Heap.ledger (heap : Heap) : Ledger := .ofRecord heap.record

@[simp] theorem Heap.ledger_put (heap : Heap) (ptr : TaskPtr) (task : O1Task) :
    (heap.put ptr task).ledger = heap.ledger := rfl

@[simp] theorem Heap.ledger_note (heap : Heap) (entry : Accounting) :
    (heap.note entry).ledger = heap.ledger.post entry := rfl

@[simp] theorem Heap.ledger_putGranted (heap : Heap) (ptr : TaskPtr) (task : O1Task) :
    (heap.putGranted ptr task).ledger = heap.ledger.post (.grant ptr) := rfl

/-! ## Balanced heaps -/

/-- The charge of a task matches its account. The open interval of a task on a
CPU is charged up to `runtime_at_last_pick`. -/
def Account.Matches (account : Account) : Option O1Task → Prop
  | none => account.since = none
  | some task =>
      match account.since with
      | some since => task.runState = .kOnCpu ∧
          timeSlice - task.remainingTime = account.ran + (task.runtimeAtLastPick - since)
      | none => task.runState ≠ .kOnCpu ∧ timeSlice - task.remainingTime = account.ran

def Heap.Balanced (heap : Heap) : Prop :=
  ∀ ptr, (heap.ledger.account ptr).Matches (heap.tasks ptr)

section Balanced

variable {heap heap' : Heap} {ptr : TaskPtr} {task : O1Task}

private theorem Account.matches_off {account : Account} (off : task.runState ≠ .kOnCpu) :
    account.Matches (some task) ↔
      account.since = none ∧ timeSlice - task.remainingTime = account.ran := by
  unfold Account.Matches
  cases account.since <;> simp [off]

private theorem Account.matches_on {account : Account} (on : task.runState = .kOnCpu) :
    account.Matches (some task) ↔ ∃ since, account.since = some since ∧
      timeSlice - task.remainingTime = account.ran + (task.runtimeAtLastPick - since) := by
  unfold Account.Matches
  cases account.since <;> simp [on]

private theorem Heap.Balanced.at_task (balanced : heap.Balanced)
    (allocated : heap.tasks ptr = some task) :
    (heap.ledger.account ptr).Matches (some task) :=
  allocated ▸ balanced ptr

/-- Only one task and its account change. -/
theorem Heap.Balanced.store (balanced : heap.Balanced) {value : Option O1Task}
    (stored : heap'.tasks = Function.update heap.tasks ptr value)
    (others : ∀ other, other ≠ ptr → heap'.ledger.account other = heap.ledger.account other)
    (self : (heap'.ledger.account ptr).Matches value) : heap'.Balanced := by
  intro other
  by_cases same : other = ptr
  · subst same
    rwa [stored, Function.update_self]
  · rw [stored, Function.update_of_ne same, others other same]
    exact balanced other

private theorem Ledger.adjust_self (ledger : Ledger) (change : Account → Account) :
    (ledger.adjust ptr change).account ptr = change (ledger.account ptr) :=
  Function.update_self ..

private theorem Ledger.adjust_other (ledger : Ledger) (change : Account → Account) {other : TaskPtr}
    (different : other ≠ ptr) : (ledger.adjust ptr change).account other = ledger.account other :=
  Function.update_of_ne different ..

private theorem Account.Matches.congr {account : Account} {task' : O1Task}
    (before : account.Matches (some task)) (runState : task'.runState = task.runState)
    (remaining : task'.remainingTime = task.remainingTime)
    (lastPick : task'.runtimeAtLastPick = task.runtimeAtLastPick) : account.Matches (some task') := by
  simp only [Account.Matches, runState, remaining, lastPick] at before ⊢
  exact before

/-- A task off CPU stays so, with the same charge. -/
theorem Heap.Balanced.putOff (balanced : heap.Balanced) {task' : O1Task}
    (allocated : heap.tasks ptr = some task) (off : task.runState ≠ .kOnCpu)
    (off' : task'.runState ≠ .kOnCpu) (remaining : task'.remainingTime = task.remainingTime) :
    (heap.put ptr task').Balanced := by
  refine balanced.store rfl (fun _ _ => rfl) ?_
  rw [Heap.ledger_put, Account.matches_off off', remaining, ← Account.matches_off off]
  exact balanced.at_task allocated

/-- A task off CPU gets a new slice. -/
theorem Heap.Balanced.putGranted (balanced : heap.Balanced)
    (off : (heap.ledger.account ptr).since = none) (off' : task.runState ≠ .kOnCpu) :
    (heap.putGranted ptr task).Balanced := by
  refine balanced.store (Heap.putGranted_tasks task) (fun _ => Ledger.adjust_other _ _) ?_
  rw [Heap.ledger_putGranted, Ledger.post, Ledger.adjust_self,
    Account.matches_off (show task.setRemainingTime.runState ≠ .kOnCpu from off')]
  simp [Account.renew, off, O1Task.setRemainingTime]

private theorem Heap.Balanced.offCpu (balanced : heap.Balanced)
    (allocated : heap.tasks ptr = some task)
    (on : task.runState = .kOnCpu) (now : Int) {runState : O1TaskState}
    (off : runState ≠ .kOnCpu) :
    ((heap.put ptr { (task.updateRemainingTime true now now).1 with
      runState := runState }).note (.offCpu ptr now)).Balanced := by
  refine balanced.store rfl (fun _ => Ledger.adjust_other _ _) ?_
  obtain ⟨since, opened, charge⟩ := (Account.matches_on on).mp (balanced.at_task allocated)
  rw [Heap.ledger_note, Ledger.post, Ledger.adjust_self, Account.matches_off off]
  simp only [Account.stop, Heap.ledger_put, opened, O1Task.updateRemainingTime, if_true, true_and]
  omega

private theorem Heap.Balanced.onCpu (balanced : heap.Balanced)
    (allocated : heap.tasks ptr = some task)
    (off : task.runState ≠ .kOnCpu) (cpu : CpuId) (now : Int) :
    ((heap.put ptr (task.onCpu cpu now)).note (.onCpu ptr now)).Balanced := by
  refine balanced.store rfl (fun _ => Ledger.adjust_other _ _) ?_
  obtain ⟨closed, charge⟩ := (Account.matches_off off).mp (balanced.at_task allocated)
  rw [Heap.ledger_note, Ledger.post, Ledger.adjust_self, Account.matches_on rfl]
  refine ⟨now, by simp [Account.start, closed], ?_⟩
  simp only [Account.start, Heap.ledger_put, O1Task.onCpu, O1Task.setRuntimeAtLastPick]
  omega

end Balanced

private theorem Transfer.balanced {place after : Placement} (transfer : Transfer place after)
    (consistent : place.Consistent) (balanced : place.heap.Balanced) : after.heap.Balanced := by
  cases transfer with
  | @arrive ptr task fresh moving state =>
      have closed := balanced ptr
      rw [fresh] at closed
      exact balanced.putGranted closed (by rcases state with state | state <;> simp [state])
  | @adjust ptr task task' allocated stays =>
      exact balanced.store rfl (fun _ _ => rfl) ((balanced.at_task allocated).congr stays.runState
        stays.remaining stays.lastPick)
  | wake allocated blocked moving runnable remaining =>
      exact balanced.putOff allocated (by simp [blocked]) (by simp [runnable]) remaining
  | enqueue moving allocated home result =>
      obtain ⟨task', idx, able, outcome⟩ := O1Rq.enqueue_eq_ok.mp result
      have off : task'.runState ≠ .kOnCpu := by simp [able.runnable]
      rcases outcome with ⟨-, rfl, -⟩ | ⟨-, rfl, -⟩
      · exact balanced.putOff able.allocated off (by simp) rfl
      · exact balanced.putGranted
          ((Account.matches_off off).mp (balanced.at_task able.allocated)).1 (by simp)
  | @dequeue cpu ptr heap rq moving result =>
      rcases (consistent.sound cpu).dequeue result with ⟨nothing, -⟩ |
        ⟨_, task, _, same, allocated, queued, rfl, -⟩
      · cases nothing
      · exact balanced.putOff allocated (by simp [queued]) (by simp) rfl
  | @erase cpu ptr heap rq moving result =>
      obtain ⟨task, _, allocated, queued, -, rfl, -⟩ := (consistent.sound cpu).erase result
      exact balanced.putOff allocated (by simp [queued]) (by simp) rfl
  | offCpu now blocked allocated onCpu home moving =>
      exact balanced.offCpu allocated onCpu now (by cases blocked <;> simp)
  | onCpu now moving allocated idle =>
      have runnable := consistent.moving_runnable moving allocated
      exact balanced.onCpu allocated (by simp [runnable]) _ now
  | @free ptr task allocated reason =>
      have off : task.runState ≠ .kOnCpu := by
        rcases reason with ⟨blocked, -⟩ | moving
        · simp [blocked]
        · simp [consistent.moving_runnable moving allocated]
      exact balanced.store rfl (fun _ _ => rfl)
        ((Account.matches_off off).mp (balanced.at_task allocated)).1

private theorem Transfers.balanced {place after : Placement} (transfers : Transfers place after)
    (consistent : place.Consistent) (balanced : place.heap.Balanced) : after.heap.Balanced := by
  induction transfers with
  | refl => exact balanced
  | tail before last ih => exact last.balanced (Transfers.consistent before consistent) ih

/-! ## Steps that move `runtime_at_last_pick` -/

section Charging

variable {heap : Heap} {ptr : TaskPtr} {task : O1Task}

/-- A tick charges up to its first clock read and restarts at its second. -/
theorem Heap.Balanced.tick (balanced : heap.Balanced) (allocated : heap.tasks ptr = some task)
    (on : task.runState = .kOnCpu) (now : Int) :
    (heap.put ptr (task.updateRemainingTime false now now).1).Balanced := by
  refine balanced.store rfl (fun _ _ => rfl) ?_
  obtain ⟨since, opened, charge⟩ := (Account.matches_on on).mp (balanced.at_task allocated)
  rw [Heap.ledger_put, Account.matches_on (by exact on)]
  refine ⟨since, opened, ?_⟩
  simp only [O1Task.updateRemainingTime, O1Task.setRuntimeAtLastPick, Bool.false_eq_true, if_false]
  omega

/-- A commit of the current task restarts the charge without charging. -/
theorem Heap.Balanced.recommit (balanced : heap.Balanced) (allocated : heap.tasks ptr = some task)
    (on : task.runState = .kOnCpu) (cpu : CpuId) :
    ((heap.put ptr (task.onCpu cpu task.runtimeAtLastPick)).note
      (.onCpu ptr task.runtimeAtLastPick)).Balanced := by
  refine balanced.store rfl (fun _ => Ledger.adjust_other _ _) ?_
  obtain ⟨since, opened, charge⟩ := (Account.matches_on on).mp (balanced.at_task allocated)
  rw [Heap.ledger_note, Ledger.post, Ledger.adjust_self, Account.matches_on rfl]
  exact ⟨since, by simp [Account.start, opened], charge⟩

/-- A new slice for a task on a CPU, charged up to now. -/
theorem Heap.Balanced.renew (balanced : heap.Balanced) (allocated : heap.tasks ptr = some task)
    (on : task.runState = .kOnCpu) (charged : heap.ledger.clock = task.runtimeAtLastPick) :
    (heap.putGranted ptr task).Balanced := by
  refine balanced.store (Heap.putGranted_tasks task) (fun _ => Ledger.adjust_other _ _) ?_
  obtain ⟨since, opened, -⟩ := (Account.matches_on on).mp (balanced.at_task allocated)
  rw [Heap.ledger_putGranted, Ledger.post, Ledger.adjust_self,
    Account.matches_on (show task.setRemainingTime.runState = .kOnCpu from on)]
  refine ⟨heap.ledger.clock, by simp [Account.renew, opened], ?_⟩
  simp [Account.renew, O1Task.setRemainingTime, charged]

/-- A new slice for a task on a CPU that is committed again at the same time. -/
theorem Heap.Balanced.renewRecommit (balanced : heap.Balanced)
    (allocated : heap.tasks ptr = some task) (on : task.runState = .kOnCpu) (cpu : CpuId) :
    (((heap.putGranted ptr task).put ptr (task.setRemainingTime.onCpu cpu heap.ledger.clock)).note
      (.onCpu ptr heap.ledger.clock)).Balanced := by
  have stored : (((heap.putGranted ptr task).put ptr
      (task.setRemainingTime.onCpu cpu heap.ledger.clock)).note (.onCpu ptr heap.ledger.clock)).tasks =
      Function.update heap.tasks ptr (some (task.setRemainingTime.onCpu cpu heap.ledger.clock)) := by
    simp
  refine balanced.store stored ?_ ?_
  · intro other different
    rw [Heap.ledger_note, Ledger.post, Ledger.adjust_other _ _ different]
    exact Ledger.adjust_other _ _ different
  · obtain ⟨since, opened, -⟩ := (Account.matches_on on).mp (balanced.at_task allocated)
    rw [Heap.ledger_note, Ledger.post, Ledger.adjust_self, Heap.ledger_put, Heap.ledger_putGranted,
      Ledger.post, Ledger.adjust_self, Account.matches_on rfl]
    refine ⟨heap.ledger.clock, by simp [Account.start, Account.renew, opened], ?_⟩
    simp [Account.start, Account.renew, O1Task.onCpu, O1Task.setRuntimeAtLastPick,
      O1Task.setRemainingTime]

end Charging

/-! ## Runs that charge every moment -/

/-- The clock does not move between two uses of it that the accounting of a running task
takes for one. These are the two ways in which a current task is committed again: with
its slice as it is, or with its slice renewed, when it may also not be committed. -/
def Event.Charges (scheduler : O1Scheduler) : Event → Prop
  | .cpuTick cpu now later => (scheduler.cpuStates cpu).current ≠ none → later = now
  | .o1Schedule cpu _ prioBoost started now committed =>
      ∀ task ∈ (scheduler.cpuStates cpu).current.bind scheduler.heap.tasks,
        ((scheduler.cpuStates cpu).preemptCurr = false → prioBoost = false → committed = true →
          now = task.runtimeAtLastPick) ∧
        ((scheduler.cpuStates cpu).preemptCurr = true →
          (scheduler.cpuStates cpu).runQueue.empty = true →
          if prioBoost = false ∧ committed = true then now = started
          else started = task.runtimeAtLastPick)
  | _ => True

def charging (cpus : List CpuId) : Machine O1Scheduler Event :=
  (schedulers cpus).restrict fun scheduler event => event.Charges scheduler

section Steps

variable {place middle after : Placement} {cpu : CpuId}

private theorem Tick.balanced {now later : Int} (tick : Tick cpu now later place after)
    (consistent : place.Consistent) (balanced : place.heap.Balanced)
    (charges : place.current cpu ≠ none → later = now) : after.heap.Balanced := by
  cases tick with
  | idle => exact balanced
  | charge current allocated =>
      obtain rfl := charges (by simp [current])
      exact balanced.tick allocated (consistent.current_onCpu current allocated).1 later

/-- The two parts of `O1Schedule` together. -/
theorem Finish.balanced {preemptCurr prioBoost committed : Bool} {now : Int}
    (finishing : Finish cpu prioBoost committed now middle after)
    (taking : Preemption cpu preemptCurr place middle) (consistent : place.Consistent)
    (settled : place.moving = none) (balanced : place.heap.Balanced)
    (charges : ∀ ptr task, place.current cpu = some ptr → place.heap.tasks ptr = some task →
      (preemptCurr = false → prioBoost = false → committed = true →
        now = task.runtimeAtLastPick) ∧
      (preemptCurr = true → (place.queue cpu).contents.Vacant →
        if prioBoost = false ∧ committed = true then now = place.heap.ledger.clock
        else place.heap.ledger.clock = task.runtimeAtLastPick)) : after.heap.Balanced := by
  have middleConsistent := taking.consistent consistent
  cases taking with
  | keep reason =>
      rcases finishing.transfers_or_recommit consistent settled with
        transfers | ⟨boost, commits, ptr, task, current, allocated, rfl⟩
      · exact transfers.balanced consistent balanced
      · have unpreempted : preemptCurr = false := reason.resolve_right (by simp [current])
        obtain rfl := (charges ptr task current allocated).1 unpreempted boost commits
        exact balanced.recommit allocated (consistent.current_onCpu current allocated).1 cpu
  | drop =>
      rcases finishing.transfers_or_recommit middleConsistent settled with
        transfers | ⟨-, -, ptr, task, current, -⟩
      · exact transfers.balanced middleConsistent balanced
      · simp at current
  | @renew prev task preempt current vacant allocated =>
      have on := (consistent.current_onCpu current allocated).1
      have charged := (charges prev task current allocated).2 preempt vacant
      by_cases again : prioBoost = false ∧ committed = true
      · rw [if_pos again] at charged
        subst charged
        cases finishing with
        | yield reason => simp [again.1, current] at reason
        | switch _ _ idle => simp [current] at idle
        | requeue _ _ idle => simp [current] at idle
        | recommit _ _ current' allocated' =>
            cases current.symm.trans current'
            simp only [Heap.putGranted_tasks, Function.update_self, Option.some.injEq] at allocated'
            subst allocated'
            exact balanced.renewRecommit allocated on cpu
        | evict _ fails => simp [again.2] at fails
      · rw [if_neg again] at charged
        have renewed := balanced.renew allocated on charged
        rcases finishing.transfers_or_recommit middleConsistent settled with
          transfers | ⟨boost, commits, -⟩
        · exact transfers.balanced middleConsistent renewed
        · exact absurd ⟨boost, commits⟩ again

end Steps

/-- Consistent and balanced, between events. -/
def Accurate (scheduler : O1Scheduler) : Prop :=
  (scheduler.placed none).Consistent ∧ scheduler.heap.Balanced

theorem Accurate.step {cpus : List CpuId} {scheduler next : O1Scheduler} {event : Event}
    (accurate : Accurate scheduler) (moved : (charging cpus).step scheduler event next) :
    Accurate next := by
  obtain ⟨consistent, balanced⟩ := accurate
  obtain ⟨charges, moved⟩ := moved
  refine ⟨dispatch_consistent consistent moved, ?_⟩
  cases O1Scheduler.dispatch_does consistent moved with
  | message _ transfers => exact transfers.balanced consistent balanced
  | tick tick => exact tick.balanced consistent balanced charges
  | schedule taken taking finishing =>
      refine finishing.balanced taking (consistent.note _) rfl balanced ?_
      intro ptr task current allocated
      obtain ⟨again, renewed⟩ := charges task (Option.bind_eq_some_iff.mpr ⟨ptr, current, allocated⟩)
      exact ⟨again, fun preempt vacant => renewed preempt (O1Rq.empty_iff.mpr vacant)⟩

/-- Along every run that charges every moment, the part of its slice that a task
off CPU has used is the time it was on a CPU since the slice was granted. -/
theorem charging_accounts {cpus : List CpuId} {scheduler : O1Scheduler}
    (reachable : (charging cpus).Reachable scheduler) {ptr : TaskPtr} {task : O1Task}
    (allocated : scheduler.heap.tasks ptr = some task) (off : task.runState ≠ .kOnCpu) :
    timeSlice - task.remainingTime = (scheduler.heap.ledger.account ptr).ran := by
  have accurate : Accurate scheduler := by
    refine reachable.invariant _ ?_ fun _ _ _ => Accurate.step
    rintro _ rfl
    exact ⟨consistent_init cpus, fun _ => rfl⟩
  exact ((Account.matches_off off).mp (accurate.2.at_task allocated)).2

instance (scheduler : O1Scheduler) (event : Event) : Decidable (event.Charges scheduler) :=
  match event with
  | .cpuTick .. => inferInstanceAs (Decidable (_ → _))
  | .o1Schedule cpu .. =>
      Option.decidableForallMem ((scheduler.cpuStates cpu).current.bind scheduler.heap.tasks)
  | .taskNew .. | .taskRunnable .. | .taskDeparted .. | .taskDead .. | .taskYield ..
  | .taskBlocked .. | .taskPreempted .. | .taskSwitchto .. | .taskPriorityChanged .. => isTrue trivial

/-! ## Two short lives -/

def chargingEvent (cpus : List CpuId) (scheduler : O1Scheduler) (event : Event) :
    Except Fault O1Scheduler := do
  check (event.Charges scheduler)
  scheduler.dispatch cpus event

/-- A task gets on the CPU at 0 ms, is charged by a tick at 5 ms and blocks at 8 ms. -/
def ticked : List Event :=
  [.taskNew 1 101 1 0 true true, .o1Schedule firstCpu 1 false 0 0 true,
    .cpuTick firstCpu 5000000 5000000, .taskBlocked 1 2 ⟨false, firstCpu⟩ 8000000]

def tickedLife : O1Scheduler :=
  match ticked.foldlM (chargingEvent [firstCpu]) (.init [firstCpu]) with
  | .ok scheduler => scheduler
  | .error _ => .init [firstCpu]

theorem tickedLife_reachable : (charging [firstCpu]).Reachable tickedLife := by
  unfold tickedLife
  split
  · next state replayed =>
      refine ⟨_, ticked, rfl, .of_foldlM (fun before event after result => ?_) replayed⟩
      simp only [chargingEvent, bind_eq_ok, check_eq_ok] at result
      obtain ⟨-, charges, moved⟩ := result
      exact ⟨charges, moved⟩
  · exact ⟨_, [], rfl, .nil _⟩

private def blockedAt (remaining lastPick : Int) : O1Task where
  gtid := 101
  seqnum := 2
  cpu := 0
  runtimeAtLastPick := lastPick
  remainingTime := remaining

theorem charging_accounts_ticked :
    tickedLife.heap.tasks 1 = some (blockedAt 2000000 5000000) ∧
      timeSlice - 2000000 = (tickedLife.heap.ledger.account 1).ran := by
  have stored : tickedLife.heap.tasks 1 = some (blockedAt 2000000 5000000) := by decide +kernel
  exact ⟨stored, charging_accounts tickedLife_reachable stored (by decide)⟩

/-- The same life with a successful commit of the running task in place of the
tick: of the 8 ms on the CPU only 3 are charged. -/
theorem recommit_undercharges :
    ∃ scheduler, (schedulers [firstCpu]).Reachable scheduler ∧
      scheduler.heap.tasks 1 = some (blockedAt 7000000 5000000) ∧
      (scheduler.heap.ledger.account 1).ran = 8000000 ∧
      timeSlice - (blockedAt 7000000 5000000).remainingTime ≠
        (scheduler.heap.ledger.account 1).ran :=
  ⟨.after [firstCpu] [.taskNew 1 101 1 0 true true, .o1Schedule firstCpu 1 false 0 0 true,
      .o1Schedule firstCpu 2 false 5000000 5000000 true, .taskBlocked 1 2 ⟨false, firstCpu⟩ 8000000],
    O1Scheduler.after_reachable _ _, by decide +kernel, by decide +kernel, by decide +kernel⟩

end Ghost.O1
