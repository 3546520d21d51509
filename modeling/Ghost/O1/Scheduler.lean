import Ghost.O1.RunQueue

/-!
# The scheduler

The message handlers of `O1Scheduler`, `CpuTick` and `O1Schedule`, as functions
from one scheduler state to the next. The kernel is the environment: the payload
of a message, the clock, the outcome of an association or of a commit are inputs
of a handler, and the calls into the kernel are appended to `effects`.
-/

set_option autoImplicit false

namespace Ghost.O1

open Lib

/-- `MAX_CPUS`. -/
def maxCpus : Nat := 512

abbrev CpuId := Fin maxCpus

structure CpuState where
  current : Option TaskPtr := none
  runQueue : O1Rq := .init
  preemptCurr : Bool := false

/-- The fields that `TaskOnCpu` writes. -/
def O1Task.onCpu (task : O1Task) (cpu : CpuId) (now : Int) : O1Task :=
  let task := { task with runState := .kOnCpu }.setRuntimeAtLastPick now
  { task with cpu := cpu.val, preempted := false, prioBoost := false }

/-- Calls into the kernel. -/
inductive Effect where
  | associateTask (gtid : Nat) (cpu : CpuId) (seqnum : Nat)
  | ping (cpu : CpuId)
  | openTxn (cpu : CpuId) (target targetBarrier agentBarrier : Nat)
  | commit (cpu : CpuId) (succeeded : Bool)
  /-- `onIdle` is the flag `RTLA_ON_IDLE`. -/
  | localYield (cpu : CpuId) (agentBarrier : Nat) (onIdle : Bool)
  deriving DecidableEq, Repr

structure O1Scheduler where
  heap : Heap
  cpuStates : CpuId → CpuState
  /-- The static iterator of `AssignCpu`, as an index into the CPU list. -/
  nextCpu : Nat
  /-- Newest first. -/
  effects : List Effect

/-- The payload that most task messages share. -/
structure Switchto where
  fromSwitchto : Bool
  cpu : CpuId

namespace O1Scheduler

/-- No task is known yet, and the iterator of `AssignCpu` stands at the end. -/
def init (cpus : List CpuId) : O1Scheduler where
  heap := { tasks := fun _ => none, record := [] }
  cpuStates _ := {}
  nextCpu := cpus.length
  effects := []

variable (scheduler : O1Scheduler)

def emit (effect : Effect) : O1Scheduler := { scheduler with effects := effect :: scheduler.effects }

def setHeap (heap : Heap) : O1Scheduler := { scheduler with heap := heap }

def put (ptr : TaskPtr) (task : O1Task) : O1Scheduler :=
  scheduler.setHeap (scheduler.heap.put ptr task)

def setCpu (cpu : CpuId) (cs : CpuState) : O1Scheduler :=
  { scheduler with cpuStates := Function.update scheduler.cpuStates cpu cs }

def cpuStateOf (task : O1Task) : Except Fault CpuId :=
  if inRange : 0 ≤ task.cpu ∧ task.cpu < maxCpus then .ok ⟨task.cpu.toNat, by omega⟩
  else .error .check

/-! Operations on the run queue of one CPU. -/

def enqueueOn (cpu : CpuId) (ptr : TaskPtr) : Except Fault O1Scheduler := do
  let cs := scheduler.cpuStates cpu
  let (heap, rq) ← cs.runQueue.enqueue scheduler.heap ptr
  .ok ((scheduler.setCpu cpu { cs with runQueue := rq }).setHeap heap)

def dequeueOn (cpu : CpuId) : Except Fault (Option TaskPtr × O1Scheduler) := do
  let cs := scheduler.cpuStates cpu
  let (heap, rq, popped) ← cs.runQueue.dequeue scheduler.heap
  .ok (popped, (scheduler.setCpu cpu { cs with runQueue := rq }).setHeap heap)

def eraseOn (cpu : CpuId) (ptr : TaskPtr) : Except Fault O1Scheduler := do
  let cs := scheduler.cpuStates cpu
  let (heap, rq) ← cs.runQueue.erase scheduler.heap ptr
  .ok ((scheduler.setCpu cpu { cs with runQueue := rq }).setHeap heap)

/-! ## Placement -/

def assignCpu (cpus : List CpuId) : Except Fault (CpuId × O1Scheduler) :=
  let next := if scheduler.nextCpu = cpus.length then 0 else scheduler.nextCpu
  match cpus[next]? with
  | some cpu => .ok (cpu, { scheduler with nextCpu := next + 1 })
  | none => .error .undefinedBehaviour

def migrate (ptr : TaskPtr) (cpu : CpuId) (seqnum : Nat) (associated : Bool) :
    Except Fault O1Scheduler := do
  let task ← scheduler.heap.read ptr
  check (task.runState = .kRunnable)
  check (task.cpu = -1)
  let scheduler := scheduler.emit (.associateTask task.gtid cpu seqnum)
  check (associated = true)
  let scheduler ← (scheduler.put ptr { task with cpu := cpu.val }).enqueueOn cpu ptr
  .ok (scheduler.emit (.ping cpu))

/-- The ping that ends the handlers of a message with `from_switchto`. -/
def pingSwitchto (payload : Switchto) : O1Scheduler :=
  if payload.fromSwitchto then scheduler.emit (.ping payload.cpu) else scheduler

/-! ## Getting on and off a CPU -/

def taskOffCpu (ptr : TaskPtr) (blocked fromSwitchto : Bool) (now : Int) :
    Except Fault O1Scheduler := do
  let task ← scheduler.heap.read ptr
  let cpu ← cpuStateOf task
  let runState : O1TaskState := if blocked then .kBlocked else .kRunnable
  if task.runState = .kOnCpu then
    let cs := scheduler.cpuStates cpu
    let (task, exhausted) := task.updateRemainingTime true now now
    let cs := if exhausted then { cs with preemptCurr := true } else cs
    let cs := if cs.current = some ptr then { cs with current := none } else cs
    let heap := (scheduler.heap.put ptr { task with runState := runState }).note (.offCpu ptr now)
    .ok ((scheduler.setCpu cpu cs).setHeap heap)
  else
    check (fromSwitchto = true)
    check (task.runState = .kBlocked)
    .ok (scheduler.put ptr { task with runState := runState })

def taskOnCpu (ptr : TaskPtr) (cpu : CpuId) (now : Int) : Except Fault O1Scheduler := do
  let task ← scheduler.heap.read ptr
  let cs := { scheduler.cpuStates cpu with current := some ptr }
  let heap := (scheduler.heap.put ptr (task.onCpu cpu now)).note (.onCpu ptr now)
  .ok ((scheduler.setCpu cpu cs).setHeap heap)

/-! ## Task messages -/

/-- `TaskNew`, for the task that was just allocated. -/
def taskNew (cpus : List CpuId) (ptr : TaskPtr) (seqnum : Nat) (nice : Int)
    (runnable associated : Bool) : Except Fault O1Scheduler := do
  let task ← scheduler.heap.read ptr
  let task := { task with seqnum := seqnum, runState := .kBlocked, staticPriority := 120 + nice }
  if runnable then
    let task := { task with runState := .kRunnable }
    let (cpu, scheduler) ←
      (scheduler.setHeap (scheduler.heap.putGranted ptr task)).assignCpu cpus
    scheduler.migrate ptr cpu seqnum associated
  else
    .ok (scheduler.setHeap (scheduler.heap.putGranted ptr task))

def taskRunnable (cpus : List CpuId) (ptr : TaskPtr) (seqnum : Nat)
    (deferrable associated : Bool) : Except Fault O1Scheduler := do
  let task ← scheduler.heap.read ptr
  check (task.runState = .kBlocked)
  let task := { task with runState := .kRunnable, prioBoost := !deferrable }
  if task.cpu < 0 then
    let (cpu, scheduler) ← (scheduler.put ptr task).assignCpu cpus
    scheduler.migrate ptr cpu seqnum associated
  else
    let cpu ← cpuStateOf task
    (scheduler.put ptr task).enqueueOn cpu ptr

def taskDeparted (ptr : TaskPtr) (payload : Switchto) (now : Int) : Except Fault O1Scheduler := do
  let task ← scheduler.heap.read ptr
  let scheduler ←
    (if task.runState = .kOnCpu ∨ payload.fromSwitchto = true then
      scheduler.taskOffCpu ptr false payload.fromSwitchto now
    else if task.runState = .kQueued then do
      let cpu ← cpuStateOf task
      scheduler.eraseOn cpu ptr
    else do
      check (task.runState = .kBlocked)
      .ok scheduler)
  let scheduler := scheduler.pingSwitchto payload
  .ok (scheduler.setHeap (scheduler.heap.free ptr))

def taskDead (ptr : TaskPtr) : Except Fault O1Scheduler := do
  let task ← scheduler.heap.read ptr
  check (task.runState = .kBlocked)
  .ok (scheduler.setHeap (scheduler.heap.free ptr))

def taskYield (ptr : TaskPtr) (payload : Switchto) (now : Int) : Except Fault O1Scheduler := do
  let scheduler ← scheduler.taskOffCpu ptr false payload.fromSwitchto now
  let task ← scheduler.heap.read ptr
  let cpu ← cpuStateOf task
  let scheduler ← scheduler.enqueueOn cpu ptr
  .ok (scheduler.pingSwitchto payload)

def taskBlocked (ptr : TaskPtr) (payload : Switchto) (now : Int) : Except Fault O1Scheduler := do
  let scheduler ← scheduler.taskOffCpu ptr true payload.fromSwitchto now
  .ok (scheduler.pingSwitchto payload)

def taskPreempted (ptr : TaskPtr) (payload : Switchto) (now : Int) : Except Fault O1Scheduler := do
  let scheduler ← scheduler.taskOffCpu ptr false payload.fromSwitchto now
  let task ← scheduler.heap.read ptr
  let task := { task with preempted := true, prioBoost := true }
  let cpu ← cpuStateOf task
  let scheduler ← (scheduler.put ptr task).enqueueOn cpu ptr
  .ok (scheduler.pingSwitchto payload)

def taskPriorityChanged (ptr : TaskPtr) (nice : Int) : Except Fault O1Scheduler := do
  let task ← scheduler.heap.read ptr
  let newPriority := 120 + nice
  if task.runState = .kQueued then
    let cpu ← cpuStateOf task
    let scheduler ← scheduler.eraseOn cpu ptr
    let task ← scheduler.heap.read ptr
    (scheduler.put ptr { task with staticPriority := newPriority }).enqueueOn cpu ptr
  else
    .ok (scheduler.put ptr { task with staticPriority := newPriority })

def taskSwitchto (ptr : TaskPtr) (now : Int) : Except Fault O1Scheduler :=
  scheduler.taskOffCpu ptr true false now

/-- `Task::Advance`: messages of a task are not reordered. -/
def advance (ptr : TaskPtr) (nextSeqnum : Nat) : Except Fault O1Scheduler := do
  let task ← scheduler.heap.read ptr
  check (task.seqnum < nextSeqnum)
  .ok (scheduler.put ptr { task with seqnum := nextSeqnum })

/-! ## Ticks and scheduling -/

/-- `CpuTick` and `CheckPreemptTick`, with the two clock reads of the update. -/
def cpuTick (cpu : CpuId) (now later : Int) : Except Fault O1Scheduler := do
  let cs := scheduler.cpuStates cpu
  match cs.current with
  | none => .ok scheduler
  | some ptr =>
      let task ← scheduler.heap.read ptr
      let (task, exhausted) := task.updateRemainingTime false now later
      let scheduler := scheduler.put ptr task
      if exhausted then .ok (scheduler.setCpu cpu { cs with preemptCurr := true })
      else .ok scheduler

/-- The first part of `O1Schedule`: a set `preempt_curr` drops the current task
if another one waits, and renews its slice otherwise. -/
def takePreemption (cpu : CpuId) : Except Fault O1Scheduler :=
  let cs := scheduler.cpuStates cpu
  if cs.preemptCurr then
    let cs := { cs with preemptCurr := false }
    match cs.current with
    | none => .ok (scheduler.setCpu cpu cs)
    | some prev =>
        if cs.runQueue.empty then do
          let task ← scheduler.heap.read prev
          .ok ((scheduler.setCpu cpu cs).setHeap (scheduler.heap.putGranted prev task))
        else .ok (scheduler.setCpu cpu { cs with current := none })
  else .ok scheduler

def pickNext (cpu : CpuId) (prioBoost : Bool) : Except Fault (Option TaskPtr × O1Scheduler) :=
  if prioBoost then .ok (none, scheduler)
  else
    match (scheduler.cpuStates cpu).current with
    | some current => .ok (some current, scheduler)
    | none => scheduler.dequeueOn cpu

def commitNext (cpu : CpuId) (next : TaskPtr) (agentBarrier : Nat) (now : Int) (committed : Bool) :
    Except Fault O1Scheduler := do
  let task ← scheduler.heap.read next
  let scheduler := scheduler.emit (.openTxn cpu task.gtid task.seqnum agentBarrier)
  let scheduler := scheduler.emit (.commit cpu committed)
  if committed then scheduler.taskOnCpu next cpu now
  else
    let scheduler ←
      (if (scheduler.cpuStates cpu).current = some next then
        scheduler.taskOffCpu next false false now
      else .ok scheduler)
    let task ← scheduler.heap.read next
    (scheduler.put next { task with prioBoost := true }).enqueueOn cpu next

/-- `O1Schedule`, entered at `started`; `now` is the clock that `TaskOnCpu` or
`TaskOffCpu` reads. The wait for `next` to get off its last CPU is left out. -/
def o1Schedule (cpu : CpuId) (agentBarrier : Nat) (prioBoost : Bool) (started now : Int)
    (committed : Bool) : Except Fault O1Scheduler := do
  let scheduler ←
    (scheduler.setHeap (scheduler.heap.note (.entered started))).takePreemption cpu
  let (next, scheduler) ← scheduler.pickNext cpu prioBoost
  match next with
  | some next => scheduler.commitNext cpu next agentBarrier now committed
  | none =>
      let cs := scheduler.cpuStates cpu
      let onIdle := prioBoost && (cs.current.isSome || !cs.runQueue.empty)
      .ok (scheduler.emit (.localYield cpu agentBarrier onIdle))

end O1Scheduler

/-! ## Message dispatch -/

/-- What the agents of the enclave handle: task messages, ticks, and their own
calls of `O1Schedule`. -/
inductive Event where
  | taskNew (ptr : TaskPtr) (gtid seqnum : Nat) (nice : Int) (runnable associated : Bool)
  | taskRunnable (ptr : TaskPtr) (seqnum : Nat) (deferrable associated : Bool)
  | taskDeparted (ptr : TaskPtr) (payload : Switchto) (now : Int)
  | taskDead (ptr : TaskPtr)
  | taskYield (ptr : TaskPtr) (seqnum : Nat) (payload : Switchto) (now : Int)
  | taskBlocked (ptr : TaskPtr) (seqnum : Nat) (payload : Switchto) (now : Int)
  | taskPreempted (ptr : TaskPtr) (seqnum : Nat) (payload : Switchto) (now : Int)
  | taskSwitchto (ptr : TaskPtr) (seqnum : Nat) (now : Int)
  | taskPriorityChanged (ptr : TaskPtr) (seqnum : Nat) (nice : Int)
  | cpuTick (cpu : CpuId) (now later : Int)
  | o1Schedule (cpu : CpuId) (agentBarrier : Nat) (prioBoost : Bool) (started now : Int)
      (committed : Bool)

/-- Whether a task message caused the event. -/
def Event.isMessage : Event → Bool
  | .cpuTick .. => false
  | .o1Schedule .. => false
  | _ => true

namespace O1Scheduler

/-- A message about a task that is not known is dropped, and so is everything
after the handler if the task may be gone. -/
def dispatchKnown (scheduler : O1Scheduler) (ptr : TaskPtr) (handled : Except Fault O1Scheduler)
    (seqnum : Option Nat) : Except Fault O1Scheduler :=
  match scheduler.heap.tasks ptr with
  | none => .ok scheduler
  | some _ => do
      let scheduler ← handled
      match seqnum with
      | some seqnum => scheduler.advance ptr seqnum
      | none => .ok scheduler

/-- `DispatchMessage` and the call of `O1Schedule` that follows the messages. -/
def dispatch (cpus : List CpuId) (scheduler : O1Scheduler) : Event → Except Fault O1Scheduler
  | .taskNew ptr gtid seqnum nice runnable associated =>
      match scheduler.heap.tasks ptr with
      | some _ => .ok scheduler
      | none => (scheduler.put ptr { gtid := gtid }).taskNew cpus ptr seqnum nice runnable associated
  | .taskRunnable ptr seqnum deferrable associated =>
      scheduler.dispatchKnown ptr
        (scheduler.taskRunnable cpus ptr seqnum deferrable associated) (some seqnum)
  | .taskDeparted ptr payload now =>
      scheduler.dispatchKnown ptr (scheduler.taskDeparted ptr payload now) none
  | .taskDead ptr => scheduler.dispatchKnown ptr (scheduler.taskDead ptr) none
  | .taskYield ptr seqnum payload now =>
      scheduler.dispatchKnown ptr (scheduler.taskYield ptr payload now) (some seqnum)
  | .taskBlocked ptr seqnum payload now =>
      scheduler.dispatchKnown ptr (scheduler.taskBlocked ptr payload now) (some seqnum)
  | .taskPreempted ptr seqnum payload now =>
      scheduler.dispatchKnown ptr (scheduler.taskPreempted ptr payload now) (some seqnum)
  | .taskSwitchto ptr seqnum now =>
      scheduler.dispatchKnown ptr (scheduler.taskSwitchto ptr now) (some seqnum)
  | .taskPriorityChanged ptr seqnum nice =>
      scheduler.dispatchKnown ptr (scheduler.taskPriorityChanged ptr nice) (some seqnum)
  | .cpuTick cpu now later => scheduler.cpuTick cpu now later
  | .o1Schedule cpu agentBarrier prioBoost started now committed =>
      scheduler.o1Schedule cpu agentBarrier prioBoost started now committed

end O1Scheduler

/-- The scheduler over any sequence of events in which no `CHECK` fails. -/
def schedulers (cpus : List CpuId) : Machine O1Scheduler Event where
  initial scheduler := scheduler = .init cpus
  step scheduler event next := scheduler.dispatch cpus event = .ok next

end Ghost.O1
