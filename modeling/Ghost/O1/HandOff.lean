import Ghost.O1.Invariant

/-!
# Agents in parallel

Every CPU has an agent with a channel of its own. An agent handles a message that
does not migrate its task in one step, and so it calls `O1Schedule`. A message
that does, which is one on the default channel, is handled access by access:
between two of them the other agents and the kernel may act.
-/

set_option autoImplicit false

namespace Ghost.O1

open Lib

inductive MsgKind where
  | taskNew (gtid : Nat) (nice : Int) (runnable : Bool)
  | taskWakeup (deferrable : Bool)
  | taskDeparted (payload : Switchto)
  | taskDead
  | taskYield (payload : Switchto)
  | taskBlocked (payload : Switchto)
  | taskPreempt (payload : Switchto)
  | taskSwitchto
  | taskPriorityChanged (nice : Int)

/-- A message with the task that its gtid stands for. -/
structure Msg where
  ptr : TaskPtr
  seqnum : Nat
  kind : MsgKind

/-- Where an agent stands in a message that migrates its task, by the access that
comes next. -/
inductive Pc where
  | assignCpu
  | associateTask (cpu : CpuId)
  | setCpu (cpu : CpuId)
  | enqueue (cpu : CpuId)
  | advance

/-- `update_seqnum` of `DispatchMessage`. -/
def MsgKind.updateSeqnum : MsgKind → Bool
  | .taskNew .. => false
  | .taskDeparted _ => false
  | .taskDead => false
  | _ => true

namespace Msg

variable (msg : Msg) (cpus : List CpuId) (scheduler : O1Scheduler)

/-- The handler of the message; `now` is the clock that `TaskOffCpu` reads. -/
def handler (now : Int) (associated : Bool) : Except Fault O1Scheduler :=
  match msg.kind with
  | .taskNew gtid nice runnable =>
      (scheduler.put msg.ptr { gtid := gtid }).taskNew cpus msg.ptr msg.seqnum nice runnable associated
  | .taskWakeup deferrable =>
      scheduler.taskRunnable cpus msg.ptr msg.seqnum deferrable associated
  | .taskDeparted payload => scheduler.taskDeparted msg.ptr payload now
  | .taskDead => scheduler.taskDead msg.ptr
  | .taskYield payload => scheduler.taskYield msg.ptr payload now
  | .taskBlocked payload => scheduler.taskBlocked msg.ptr payload now
  | .taskPreempt payload => scheduler.taskPreempted msg.ptr payload now
  | .taskSwitchto => scheduler.taskSwitchto msg.ptr now
  | .taskPriorityChanged nice => scheduler.taskPriorityChanged msg.ptr nice

/-- A new task must not be known yet, and the task of any other message must be. -/
def accepted : Bool :=
  match msg.kind with
  | .taskNew .. => (scheduler.heap.tasks msg.ptr).isNone
  | _ => (scheduler.heap.tasks msg.ptr).isSome

/-- `DispatchMessage`, in one step. -/
def dispatch (now : Int) (associated : Bool) : Except Fault O1Scheduler :=
  if msg.accepted scheduler then do
    let scheduler ← msg.handler cpus scheduler now associated
    if msg.kind.updateSeqnum then scheduler.advance msg.ptr msg.seqnum else .ok scheduler
  else .ok scheduler

/-- The message migrates its task. -/
def migrates : Bool :=
  match msg.kind with
  | .taskNew _ _ runnable => runnable && (scheduler.heap.tasks msg.ptr).isNone
  | .taskWakeup _ => (scheduler.heap.tasks msg.ptr).any fun task => task.cpu < 0
  | _ => false

/-- The writes before the call of `AssignCpu`. -/
def enter : Except Fault O1Scheduler :=
  match msg.kind with
  | .taskNew gtid nice _ => do
      let scheduler := scheduler.put msg.ptr { gtid := gtid }
      let task ← scheduler.heap.read msg.ptr
      .ok (scheduler.setHeap (scheduler.heap.putGranted msg.ptr
        { task with seqnum := msg.seqnum, runState := .kRunnable, staticPriority := 120 + nice }))
  | .taskWakeup deferrable => do
      let task ← scheduler.heap.read msg.ptr
      check (task.runState = .kBlocked)
      .ok (scheduler.put msg.ptr { task with runState := .kRunnable, prioBoost := !deferrable })
  | _ => .error .undefinedBehaviour

/-- The assertions of `Migrate` and the association. -/
def associate (cpu : CpuId) (associated : Bool) : Except Fault O1Scheduler := do
  let task ← scheduler.heap.read msg.ptr
  check (task.runState = .kRunnable)
  check (task.cpu = -1)
  let scheduler := scheduler.emit (.associateTask task.gtid cpu msg.seqnum)
  check (associated = true)
  .ok scheduler

def place (cpu : CpuId) : Except Fault O1Scheduler := do
  let task ← scheduler.heap.read msg.ptr
  .ok (scheduler.put msg.ptr { task with cpu := cpu.val })

def publish (cpu : CpuId) : Except Fault O1Scheduler := do
  let scheduler ← scheduler.enqueueOn cpu msg.ptr
  .ok (scheduler.emit (.ping cpu))

/-- `Advance`, at the end of the messages that call it. -/
def finish : Except Fault O1Scheduler :=
  if msg.kind.updateSeqnum then scheduler.advance msg.ptr msg.seqnum else .ok scheduler

end Msg

/-! ## The system -/

structure System where
  scheduler : O1Scheduler
  /-- The last sequence number that the kernel used for a task. -/
  latest : TaskPtr → Nat
  /-- The agent whose channel the messages of a task go to. -/
  channelOf : TaskPtr → CpuId
  /-- Oldest first. A message is out as soon as its agent has begun with it. -/
  channels : CpuId → List Msg
  doing : CpuId → Option (Msg × Pc)

inductive Action where
  | send (msg : Msg)
  | handle (agent : CpuId) (now : Int)
  | begin_ (agent : CpuId)
  /-- The next access of an agent. -/
  | access (agent : CpuId)
  | cpuTick (agent : CpuId) (now later : Int)
  | o1Schedule (agent : CpuId) (agentBarrier : Nat) (prioBoost : Bool) (started now : Int)
      (committed : Bool)

namespace System

def init (first : CpuId) (rest : List CpuId) : System where
  scheduler := .init (first :: rest)
  latest _ := 0
  channelOf _ := first
  channels _ := []
  doing _ := none

variable (cpus : List CpuId) (system : System)

/-- The kernel associates a task only for the last message that it sent. -/
def fresh (msg : Msg) : Bool := system.latest msg.ptr = msg.seqnum

def moveTo (agent : CpuId) (msg : Msg) (pc : Pc) (scheduler : O1Scheduler) : System :=
  { system with scheduler := scheduler, doing := Function.update system.doing agent (some (msg, pc)) }

/-- One access of an agent that is in the middle of a message. -/
def access (agent : CpuId) (msg : Msg) : Pc → Except Fault System
  | .assignCpu => do
      let (cpu, scheduler) ← system.scheduler.assignCpu cpus
      .ok (system.moveTo agent msg (.associateTask cpu) scheduler)
  | .associateTask cpu => do
      let scheduler ← msg.associate system.scheduler cpu (system.fresh msg)
      .ok { system.moveTo agent msg (.setCpu cpu) scheduler with
        channelOf := Function.update system.channelOf msg.ptr cpu }
  | .setCpu cpu => do
      let scheduler ← msg.place system.scheduler cpu
      .ok (system.moveTo agent msg (.enqueue cpu) scheduler)
  | .enqueue cpu => do
      let scheduler ← msg.publish system.scheduler cpu
      .ok (system.moveTo agent msg .advance scheduler)
  | .advance => do
      let scheduler ← msg.finish system.scheduler
      .ok { system with scheduler := scheduler, doing := Function.update system.doing agent none }

/-- What an action does, if it can be taken. -/
def perform : Action → Option (Except Fault System)
  | .send msg =>
      if system.latest msg.ptr < msg.seqnum then
        let cpu := system.channelOf msg.ptr
        some (.ok { system with
          latest := Function.update system.latest msg.ptr msg.seqnum
          channels := Function.update system.channels cpu (system.channels cpu ++ [msg]) })
      else none
  | .handle agent now =>
      match system.doing agent, system.channels agent with
      | none, msg :: rest =>
          if msg.migrates system.scheduler then none
          else some do
            let scheduler ← msg.dispatch cpus system.scheduler now (system.fresh msg)
            .ok { system with
              scheduler := scheduler, channels := Function.update system.channels agent rest }
      | _, _ => none
  | .begin_ agent =>
      match system.doing agent, system.channels agent with
      | none, msg :: rest =>
          if msg.migrates system.scheduler then some do
            let scheduler ← msg.enter system.scheduler
            .ok { system.moveTo agent msg .assignCpu scheduler with
              channels := Function.update system.channels agent rest }
          else none
      | _, _ => none
  | .access agent =>
      match system.doing agent with
      | some (msg, pc) => some (system.access cpus agent msg pc)
      | none => none
  | .cpuTick agent now later =>
      match system.doing agent with
      | none => some do
          let scheduler ← system.scheduler.cpuTick agent now later
          .ok { system with scheduler := scheduler }
      | some _ => none
  | .o1Schedule agent agentBarrier prioBoost started now committed =>
      match system.doing agent with
      | none => some do
          let scheduler ←
            system.scheduler.o1Schedule agent agentBarrier prioBoost started now committed
          .ok { system with scheduler := scheduler }
      | some _ => none

end System

/-- All interleavings, as far as no `CHECK` fails. The first CPU's channel is the
default one. -/
def systems (first : CpuId) (rest : List CpuId) : Machine System Action where
  initial system := system = .init first rest
  step system action next := system.perform (first :: rest) action = some (.ok next)

/-! ## The accesses of one agent -/

/-- The event that the message is for the scheduler as a whole. -/
def Msg.event (msg : Msg) (now : Int) (associated : Bool) : Event :=
  match msg.kind with
  | .taskNew gtid nice runnable => .taskNew msg.ptr gtid msg.seqnum nice runnable associated
  | .taskWakeup deferrable => .taskRunnable msg.ptr msg.seqnum deferrable associated
  | .taskDeparted payload => .taskDeparted msg.ptr payload now
  | .taskDead => .taskDead msg.ptr
  | .taskYield payload => .taskYield msg.ptr msg.seqnum payload now
  | .taskBlocked payload => .taskBlocked msg.ptr msg.seqnum payload now
  | .taskPreempt payload => .taskPreempted msg.ptr msg.seqnum payload now
  | .taskSwitchto => .taskSwitchto msg.ptr msg.seqnum now
  | .taskPriorityChanged nice => .taskPriorityChanged msg.ptr msg.seqnum nice

/-- Handled in one step, a message is an event of the scheduler. -/
theorem Msg.dispatch_eq (msg : Msg) (cpus : List CpuId) (scheduler : O1Scheduler) (now : Int)
    (associated : Bool) : msg.dispatch cpus scheduler now associated =
      scheduler.dispatch cpus (msg.event now associated) := by
  obtain ⟨ptr, seqnum, kind⟩ := msg
  have returned : ∀ handled : Except Fault O1Scheduler, (handled >>= .ok) = handled := by
    intro handled
    cases handled <;> rfl
  unfold dispatch accepted event O1Scheduler.dispatch
  cases kind with
  | taskNew gtid nice runnable =>
      cases stored : scheduler.heap.tasks ptr with
      | none => simpa [stored, handler, MsgKind.updateSeqnum] using returned _
      | some task => simp [stored]
  | _ =>
      cases stored : scheduler.heap.tasks ptr with
      | none => simp [O1Scheduler.dispatchKnown, stored]
      | some task =>
          simp [O1Scheduler.dispatchKnown, stored, handler, MsgKind.updateSeqnum]

/-- The accesses of one agent, without anything in between. -/
def Msg.accesses (msg : Msg) (cpus : List CpuId) (scheduler : O1Scheduler) (associated : Bool) :
    Except Fault O1Scheduler := do
  let scheduler ← msg.enter scheduler
  let (cpu, scheduler) ← scheduler.assignCpu cpus
  let scheduler ← msg.associate scheduler cpu associated
  let scheduler ← msg.place scheduler cpu
  let scheduler ← msg.publish scheduler cpu
  msg.finish scheduler

theorem Msg.migrate_eq (msg : Msg) (scheduler : O1Scheduler) (cpu : CpuId) (associated : Bool) :
    scheduler.migrate msg.ptr cpu msg.seqnum associated = (do
      let scheduler ← msg.associate scheduler cpu associated
      let scheduler ← msg.place scheduler cpu
      msg.publish scheduler cpu) := by
  unfold O1Scheduler.migrate associate place publish
  cases read : scheduler.heap.read msg.ptr with
  | error fault => rfl
  | ok task =>
      by_cases runnable : task.runState = .kRunnable
      · by_cases unplaced : task.cpu = -1
        · cases associated with
          | false => simp [check, runnable, unplaced, bind, Except.bind]
          | true => simp [check, runnable, unplaced, bind, Except.bind, read]
        · simp [check, runnable, unplaced, bind, Except.bind]
      · simp [check, runnable, bind, Except.bind]

theorem Msg.accesses_migrate (msg : Msg) (cpus : List CpuId) (scheduler : O1Scheduler)
    (associated : Bool) : msg.accesses cpus scheduler associated = (do
      let scheduler ← msg.enter scheduler
      let (cpu, scheduler) ← scheduler.assignCpu cpus
      let scheduler ← scheduler.migrate msg.ptr cpu msg.seqnum associated
      msg.finish scheduler) := by
  simp only [accesses, migrate_eq, bind_assoc]

/-- Undisturbed, the accesses amount to the one step in which the message is
handled in the sequential model. -/
theorem Msg.accesses_eq {msg : Msg} {scheduler : O1Scheduler}
    (migrates : msg.migrates scheduler = true) (cpus : List CpuId) (now : Int) (associated : Bool) :
    msg.accesses cpus scheduler associated = msg.dispatch cpus scheduler now associated := by
  have accepted : msg.accepted scheduler = true := by
    unfold Msg.accepted
    unfold Msg.migrates at migrates
    cases kind : msg.kind with
    | taskNew gtid nice runnable => simp_all
    | taskWakeup deferrable =>
        rw [kind] at migrates
        exact Option.isSome_of_any migrates
    | _ => simp [kind] at migrates
  have handled : msg.handler cpus scheduler now associated = (do
      let scheduler ← msg.enter scheduler
      let (cpu, scheduler) ← scheduler.assignCpu cpus
      scheduler.migrate msg.ptr cpu msg.seqnum associated) := by
    unfold handler enter
    unfold Msg.migrates at migrates
    cases kind : msg.kind with
    | taskNew gtid nice runnable =>
        rw [kind] at migrates
        obtain rfl : runnable = true := (Bool.and_eq_true_iff.mp migrates).1
        have read : (scheduler.put msg.ptr { gtid := gtid }).heap.read msg.ptr = .ok _ :=
          Heap.read_eq_ok.mpr (Function.update_self ..)
        dsimp only
        rw [O1Scheduler.taskNew, read]
        rfl
    | taskWakeup deferrable =>
        rw [kind] at migrates
        cases known : scheduler.heap.tasks msg.ptr with
        | none => simp [known] at migrates
        | some task =>
            have unplaced : task.cpu < 0 := by simpa [known] using migrates
            dsimp only
            rw [O1Scheduler.taskRunnable, Heap.read_eq_ok.mpr known]
            by_cases blocked : task.runState = .kBlocked
            · simp [check, blocked, unplaced, bind, Except.bind]
            · simp [check, blocked, bind, Except.bind]
    | _ => simp [kind] at migrates
  rw [accesses_migrate, dispatch, if_pos accepted, handled]
  simp only [bind_assoc]
  rfl

end Ghost.O1
