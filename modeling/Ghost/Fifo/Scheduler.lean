import Ghost.Fifo.RunQueue

/-!
# The FIFO scheduler

The message handlers of `FifoScheduler` and `FifoSchedule`, one queue and one
current task for each CPU. The kernel is the environment, as for the O(1)
scheduler.
-/

set_option autoImplicit false

namespace Ghost.Fifo

open Lib
open O1 (Fault TaskPtr CpuId Effect Switchto check maxCpus)

structure CpuState where
  current : Option TaskPtr := none
  runQueue : FifoRq := .init

structure FifoScheduler where
  tasks : Tasks
  cpuStates : CpuId → CpuState
  /-- The static iterator of `AssignCpu`, as an index into the CPU list. -/
  nextCpu : Nat
  /-- Newest first. -/
  effects : List Effect

/-- The fields that `TaskOnCpu` writes. -/
def FifoTask.onCpu (task : FifoTask) (cpu : CpuId) : FifoTask :=
  { task with runState := .kOnCpu, cpu := cpu.val, preempted := false, prioBoost := false }

namespace FifoScheduler

def init (cpus : List CpuId) : FifoScheduler where
  tasks _ := none
  cpuStates _ := {}
  nextCpu := cpus.length
  effects := []

variable (scheduler : FifoScheduler)

def emit (effect : Effect) : FifoScheduler :=
  { scheduler with effects := effect :: scheduler.effects }

def setTasks (tasks : Tasks) : FifoScheduler := { scheduler with tasks := tasks }

def put (ptr : TaskPtr) (task : FifoTask) : FifoScheduler :=
  scheduler.setTasks (scheduler.tasks.put ptr task)

def setCpu (cpu : CpuId) (cs : CpuState) : FifoScheduler :=
  { scheduler with cpuStates := Function.update scheduler.cpuStates cpu cs }

def cpuStateOf (task : FifoTask) : Except Fault CpuId :=
  if inRange : 0 ≤ task.cpu ∧ task.cpu < maxCpus then .ok ⟨task.cpu.toNat, by omega⟩
  else .error .check

/-! Operations on the run queue of one CPU. -/

def enqueueOn (cpu : CpuId) (ptr : TaskPtr) : Except Fault FifoScheduler := do
  let cs := scheduler.cpuStates cpu
  let (tasks, rq) ← cs.runQueue.enqueue scheduler.tasks ptr
  .ok ((scheduler.setCpu cpu { cs with runQueue := rq }).setTasks tasks)

def dequeueOn (cpu : CpuId) : Except Fault (Option TaskPtr × FifoScheduler) := do
  let cs := scheduler.cpuStates cpu
  let (tasks, rq, popped) ← cs.runQueue.dequeue scheduler.tasks
  .ok (popped, (scheduler.setCpu cpu { cs with runQueue := rq }).setTasks tasks)

def eraseOn (cpu : CpuId) (ptr : TaskPtr) : Except Fault FifoScheduler := do
  let cs := scheduler.cpuStates cpu
  let (tasks, rq) ← cs.runQueue.erase scheduler.tasks ptr
  .ok ((scheduler.setCpu cpu { cs with runQueue := rq }).setTasks tasks)

/-! ## Placement -/

def assignCpu (cpus : List CpuId) : Except Fault (CpuId × FifoScheduler) :=
  let next := if scheduler.nextCpu = cpus.length then 0 else scheduler.nextCpu
  match cpus[next]? with
  | some cpu => .ok (cpu, { scheduler with nextCpu := next + 1 })
  | none => .error .undefinedBehaviour

def migrate (ptr : TaskPtr) (cpu : CpuId) (seqnum : Nat) (associated : Bool) :
    Except Fault FifoScheduler := do
  let task ← scheduler.tasks.read ptr
  check (task.runState = .kRunnable)
  check (task.cpu = -1)
  let scheduler := scheduler.emit (.associateTask task.gtid cpu seqnum)
  check (associated = true)
  let scheduler ← (scheduler.put ptr { task with cpu := cpu.val }).enqueueOn cpu ptr
  .ok (scheduler.emit (.ping cpu))

def pingSwitchto (payload : Switchto) : FifoScheduler :=
  if payload.fromSwitchto then scheduler.emit (.ping payload.cpu) else scheduler

/-! ## Getting on and off a CPU -/

def taskOffCpu (ptr : TaskPtr) (blocked fromSwitchto : Bool) : Except Fault FifoScheduler := do
  let task ← scheduler.tasks.read ptr
  let cpu ← cpuStateOf task
  let runState : FifoTaskState := if blocked then .kBlocked else .kRunnable
  if task.runState = .kOnCpu then
    let cs := scheduler.cpuStates cpu
    check (cs.current = some ptr)
    .ok ((scheduler.setCpu cpu { cs with current := none }).put ptr { task with runState := runState })
  else
    check (fromSwitchto = true)
    check (task.runState = .kBlocked)
    .ok (scheduler.put ptr { task with runState := runState })

def taskOnCpu (ptr : TaskPtr) (cpu : CpuId) : Except Fault FifoScheduler := do
  let task ← scheduler.tasks.read ptr
  let cs := { scheduler.cpuStates cpu with current := some ptr }
  .ok ((scheduler.setCpu cpu cs).put ptr (task.onCpu cpu))

/-! ## Task messages -/

/-- `TaskNew`, for the task that was just allocated. -/
def taskNew (cpus : List CpuId) (ptr : TaskPtr) (seqnum : Nat) (runnable associated : Bool) :
    Except Fault FifoScheduler := do
  let task ← scheduler.tasks.read ptr
  let task := { task with seqnum := seqnum, runState := .kBlocked }
  if runnable then
    let task := { task with runState := .kRunnable }
    let (cpu, scheduler) ← (scheduler.put ptr task).assignCpu cpus
    scheduler.migrate ptr cpu seqnum associated
  else
    .ok (scheduler.put ptr task)

def taskRunnable (cpus : List CpuId) (ptr : TaskPtr) (seqnum : Nat)
    (deferrable associated : Bool) : Except Fault FifoScheduler := do
  let task ← scheduler.tasks.read ptr
  check (task.runState = .kBlocked)
  let task := { task with runState := .kRunnable, prioBoost := !deferrable }
  if task.cpu < 0 then
    let (cpu, scheduler) ← (scheduler.put ptr task).assignCpu cpus
    scheduler.migrate ptr cpu seqnum associated
  else
    let cpu ← cpuStateOf task
    (scheduler.put ptr task).enqueueOn cpu ptr

def taskDeparted (ptr : TaskPtr) (payload : Switchto) : Except Fault FifoScheduler := do
  let task ← scheduler.tasks.read ptr
  let scheduler ←
    (if task.runState = .kOnCpu ∨ payload.fromSwitchto = true then
      scheduler.taskOffCpu ptr false payload.fromSwitchto
    else if task.runState = .kQueued then do
      let cpu ← cpuStateOf task
      scheduler.eraseOn cpu ptr
    else do
      check (task.runState = .kBlocked)
      .ok scheduler)
  let scheduler := scheduler.pingSwitchto payload
  .ok (scheduler.setTasks (scheduler.tasks.free ptr))

def taskDead (ptr : TaskPtr) : Except Fault FifoScheduler := do
  let task ← scheduler.tasks.read ptr
  check (task.runState = .kBlocked)
  .ok (scheduler.setTasks (scheduler.tasks.free ptr))

def taskYield (ptr : TaskPtr) (payload : Switchto) : Except Fault FifoScheduler := do
  let scheduler ← scheduler.taskOffCpu ptr false payload.fromSwitchto
  let task ← scheduler.tasks.read ptr
  let cpu ← cpuStateOf task
  let scheduler ← scheduler.enqueueOn cpu ptr
  .ok (scheduler.pingSwitchto payload)

def taskBlocked (ptr : TaskPtr) (payload : Switchto) : Except Fault FifoScheduler := do
  let scheduler ← scheduler.taskOffCpu ptr true payload.fromSwitchto
  .ok (scheduler.pingSwitchto payload)

def taskPreempted (ptr : TaskPtr) (payload : Switchto) : Except Fault FifoScheduler := do
  let scheduler ← scheduler.taskOffCpu ptr false payload.fromSwitchto
  let task ← scheduler.tasks.read ptr
  let task := { task with preempted := true, prioBoost := true }
  let cpu ← cpuStateOf task
  let scheduler ← (scheduler.put ptr task).enqueueOn cpu ptr
  .ok (scheduler.pingSwitchto payload)

def taskSwitchto (ptr : TaskPtr) : Except Fault FifoScheduler := scheduler.taskOffCpu ptr true false

/-- `Task::Advance`: messages of a task are not reordered. -/
def advance (ptr : TaskPtr) (nextSeqnum : Nat) : Except Fault FifoScheduler := do
  let task ← scheduler.tasks.read ptr
  check (task.seqnum < nextSeqnum)
  .ok (scheduler.put ptr { task with seqnum := nextSeqnum })

/-! ## Scheduling -/

def pickNext (cpu : CpuId) (prioBoost : Bool) : Except Fault (Option TaskPtr × FifoScheduler) :=
  if prioBoost then .ok (none, scheduler)
  else
    match (scheduler.cpuStates cpu).current with
    | some current => .ok (some current, scheduler)
    | none => scheduler.dequeueOn cpu

def commitNext (cpu : CpuId) (next : TaskPtr) (agentBarrier : Nat) (committed : Bool) :
    Except Fault FifoScheduler := do
  let task ← scheduler.tasks.read next
  let scheduler := scheduler.emit (.openTxn cpu task.gtid task.seqnum agentBarrier)
  let scheduler := scheduler.emit (.commit cpu committed)
  if committed then scheduler.taskOnCpu next cpu
  else
    let scheduler ←
      (if (scheduler.cpuStates cpu).current = some next then scheduler.taskOffCpu next false false
      else .ok scheduler)
    let task ← scheduler.tasks.read next
    (scheduler.put next { task with prioBoost := true }).enqueueOn cpu next

/-- `FifoSchedule`, without the wait for `next` to get off its last CPU. -/
def fifoSchedule (cpu : CpuId) (agentBarrier : Nat) (prioBoost committed : Bool) :
    Except Fault FifoScheduler := do
  let (next, scheduler) ← scheduler.pickNext cpu prioBoost
  match next with
  | some next => scheduler.commitNext cpu next agentBarrier committed
  | none =>
      let cs := scheduler.cpuStates cpu
      let onIdle := prioBoost && (cs.current.isSome || !cs.runQueue.empty)
      .ok (scheduler.emit (.localYield cpu agentBarrier onIdle))

end FifoScheduler

/-! ## Message dispatch -/

inductive Event where
  | taskNew (ptr : TaskPtr) (gtid seqnum : Nat) (runnable associated : Bool)
  | taskRunnable (ptr : TaskPtr) (seqnum : Nat) (deferrable associated : Bool)
  | taskDeparted (ptr : TaskPtr) (payload : Switchto)
  | taskDead (ptr : TaskPtr)
  | taskYield (ptr : TaskPtr) (seqnum : Nat) (payload : Switchto)
  | taskBlocked (ptr : TaskPtr) (seqnum : Nat) (payload : Switchto)
  | taskPreempted (ptr : TaskPtr) (seqnum : Nat) (payload : Switchto)
  | taskSwitchto (ptr : TaskPtr) (seqnum : Nat)
  | taskPriorityChanged (ptr : TaskPtr) (seqnum : Nat)
  | fifoSchedule (cpu : CpuId) (agentBarrier : Nat) (prioBoost committed : Bool)

namespace FifoScheduler

def dispatchKnown (scheduler : FifoScheduler) (ptr : TaskPtr)
    (handled : Except Fault FifoScheduler) (seqnum : Option Nat) : Except Fault FifoScheduler :=
  match scheduler.tasks ptr with
  | none => .ok scheduler
  | some _ => do
      let scheduler ← handled
      match seqnum with
      | some seqnum => scheduler.advance ptr seqnum
      | none => .ok scheduler

/-- `DispatchMessage` and the call of `FifoSchedule` that follows the messages. The
handler of a changed priority is the empty one of the base class. -/
def dispatch (cpus : List CpuId) (scheduler : FifoScheduler) : Event → Except Fault FifoScheduler
  | .taskNew ptr gtid seqnum runnable associated =>
      match scheduler.tasks ptr with
      | some _ => .ok scheduler
      | none => (scheduler.put ptr { gtid := gtid }).taskNew cpus ptr seqnum runnable associated
  | .taskRunnable ptr seqnum deferrable associated =>
      scheduler.dispatchKnown ptr
        (scheduler.taskRunnable cpus ptr seqnum deferrable associated) (some seqnum)
  | .taskDeparted ptr payload =>
      scheduler.dispatchKnown ptr (scheduler.taskDeparted ptr payload) none
  | .taskDead ptr => scheduler.dispatchKnown ptr (scheduler.taskDead ptr) none
  | .taskYield ptr seqnum payload =>
      scheduler.dispatchKnown ptr (scheduler.taskYield ptr payload) (some seqnum)
  | .taskBlocked ptr seqnum payload =>
      scheduler.dispatchKnown ptr (scheduler.taskBlocked ptr payload) (some seqnum)
  | .taskPreempted ptr seqnum payload =>
      scheduler.dispatchKnown ptr (scheduler.taskPreempted ptr payload) (some seqnum)
  | .taskSwitchto ptr seqnum =>
      scheduler.dispatchKnown ptr (scheduler.taskSwitchto ptr) (some seqnum)
  | .taskPriorityChanged ptr seqnum => scheduler.dispatchKnown ptr (.ok scheduler) (some seqnum)
  | .fifoSchedule cpu agentBarrier prioBoost committed =>
      scheduler.fifoSchedule cpu agentBarrier prioBoost committed

end FifoScheduler

/-- The scheduler over any sequence of events in which no `CHECK` fails. -/
def schedulers (cpus : List CpuId) : Machine FifoScheduler Event where
  initial scheduler := scheduler = .init cpus
  step scheduler event next := scheduler.dispatch cpus event = .ok next

end Ghost.Fifo
