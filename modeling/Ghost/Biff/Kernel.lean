import Ghost.Biff.Programs
import Ghost.Lib.Machine
import Ghost.Lib.Tally

/-!
# Biff under the kernel

The threads of an enclave as the kernel has them, with the messages that it sends for each change,
and `biff_pnt` on any number of CPUs. A handler runs with the run queue lock of its task held and
makes one access to the queue, so that it is one step; `biff_pnt` holds no lock, so that its pop,
its `bpf_ghost_run_gtid` and its push are three.
-/

set_option autoImplicit false

namespace Ghost.Biff

open Lib

inductive Phase (Core : Type) where
  | blocked
  /-- It may still have to get off its CPU. -/
  | runnable (onCpu : Bool)
  /-- `bpf_ghost_run_gtid` has succeeded for a CPU. -/
  | latched (cpu : Core)
  | running (cpu : Core) (fromSwitchto : Bool)
  deriving DecidableEq

def Phase.isRunnable {Core : Type} : Phase Core → Bool
  | .runnable _ => true
  | _ => false

/-- The CPU that a thread is on, or is about to be on. -/
def Phase.seat {Core : Type} : Phase Core → Option Core
  | .latched cpu | .running cpu _ => some cpu
  | _ => none

/-- A thread in the enclave. The barrier is the sequence number of its last message. -/
structure Thread (Core : Type) where
  phase : Phase Core
  barrier : BitVec 32
  deriving DecidableEq

/-- What happens to a thread that stays in the enclave, with a message about it. -/
inductive Event where
  | getsOnCpu (cpuSeqnum : BitVec 64)
  | blocks
  | wakesUp
  | preempted
  | yields
  /-- A change of the affinity or the priority, or a failure of a latch. -/
  | unhandled
  deriving DecidableEq

section Kernel

variable {Core Gtid : Type}

/-- What an event does to a thread and the message about it. A latched thread is
preempted when the agent or CFS takes the CPU. -/
def Phase.after (gtid : Gtid) : Phase Core → Event → Option (Phase Core × Msg Core Gtid)
  | .latched cpu, .getsOnCpu cpuSeqnum =>
      some (.running cpu false, .taskOnCpu gtid cpu cpuSeqnum)
  | .running cpu _, .blocks => some (.blocked, .taskBlocked gtid cpu)
  | .blocked, .wakesUp => some (.runnable false, .taskWakeup gtid)
  | .running cpu _, .preempted => some (.runnable true, .taskPreempt gtid cpu)
  | .latched cpu, .preempted => some (.runnable false, .taskPreempt gtid cpu)
  | .running cpu _, .yields => some (.runnable true, .taskYield gtid cpu)
  | phase, .unhandled => some (phase, .unhandled gtid)
  | _, _ => none

/-- The message for a thread that leaves the enclave. One that dies has blocked before. -/
inductive Phase.Leaves (gtid : Gtid) : Phase Core → Msg Core Gtid → Prop
  | dies : Leaves gtid .blocked (.taskDead gtid)
  | current (cpu : Core) (fromSwitchto : Bool) :
      Leaves gtid (.running cpu fromSwitchto) (.taskDeparted gtid cpu true)
  | departs {phase : Phase Core} (cpu : Core) :
      (∀ on fromSwitchto, phase ≠ .running on fromSwitchto) →
      Leaves gtid phase (.taskDeparted gtid cpu false)

variable [DecidableEq Core]

/-- The results that `bpf_ghost_run_gtid` can have. The errors that `biff_pnt` does not expect can
come at any time. -/
def runAllowed (thread : Option (Thread Core)) (barrier : BitVec 32) : Option RunError → Prop
  | none => thread = some ⟨.runnable false, barrier⟩
  | some .enoent => thread = none
  | some .estale => ∃ found, thread = some found ∧ found.barrier ≠ barrier
  | some .ebusy => ∃ found, thread = some found ∧ found.phase = .runnable true
  | some _ => True

end Kernel

structure System (Core Gtid : Type) where
  maps : Maps Core Gtid
  threads : Gtid → Option (Thread Core)
  pnts : Core → PntPc Gtid
  now : BitVec 64

inductive Action (Core Gtid : Type) where
  /-- A thread joins the enclave, and gets a status word with a barrier of its own. -/
  | joins (gtid : Gtid) (runnable : Bool) (barrier : BitVec 32)
  /-- Discovery asks for a `MSG_TASK_NEW` of a thread that is there. -/
  | discovered (gtid : Gtid) (barrier : BitVec 32)
  | event (gtid : Gtid) (event : Event)
  /-- The thread gives its CPU to a blocked one. Only the first of a chain sends a message. -/
  | switchesTo (gtid target : Gtid)
  | getsOffCpu (gtid : Gtid)
  | leaves (gtid : Gtid)
  /-- `MSG_CPU_AVAILABLE` or `MSG_CPU_BUSY`. -/
  | cpuMessage (cpu : Core) (available : Bool)
  /-- `MSG_CPU_TICK`, with the CPUs that its handler reschedules. A CPU may reschedule in any
  case, so that it has no other effect. -/
  | cpuTick (cpu : Core) (rescheduled : List Core)
  /-- The agent has completed Discovery. -/
  | discoveryDone
  | pntPop (cpu : Core)
  | pntRun (cpu : Core) (result : Option RunError)
  | pntEnqueue (cpu : Core)
  | tick (now : BitVec 64)

section Machine

variable {Core Gtid : Type} [DecidableEq Core] [DecidableEq Gtid]

namespace System

/-- The kernel sends a message about a thread, with the thread's barrier. -/
def send (system : System Core Gtid) (gtid : Gtid) (thread : Option (Thread Core))
    (seqnum : BitVec 32) (msg : Msg Core Gtid) : System Core Gtid :=
  { system with
    threads := Function.update system.threads gtid thread
    maps := system.maps.biffMsgSend system.now seqnum msg }

def setThread (system : System Core Gtid) (gtid : Gtid) (thread : Thread Core) :
    System Core Gtid :=
  { system with threads := Function.update system.threads gtid (some thread) }

def setMaps (system : System Core Gtid) (maps : Maps Core Gtid) : System Core Gtid :=
  { system with maps := maps }

def setPnt (system : System Core Gtid) (cpu : Core) (pc : PntPc Gtid) : System Core Gtid :=
  { system with pnts := Function.update system.pnts cpu pc }

/-- No thread is latched or runs on the CPU. -/
def Vacant (system : System Core Gtid) (cpu : Core) : Prop :=
  ∀ gtid thread, system.threads gtid = some thread → thread.phase.seat ≠ some cpu

inductive Step (system : System Core Gtid) : Action Core Gtid → System Core Gtid → Prop
  | joins {gtid : Gtid} {parent : Option Gtid} {runnable : Bool} {swInfo : TaskSwInfo}
      {barrier : BitVec 32} :
      system.threads gtid = none → swInfo.index.toNat < biffMaxGtids →
      Step system (.joins gtid runnable barrier)
        (system.send gtid (some ⟨if runnable then .runnable false else .blocked, barrier⟩) barrier
          (.taskNew gtid parent runnable swInfo))
  | discovered {gtid : Gtid} {thread : Thread Core} {parent : Option Gtid}
      {swInfo : TaskSwInfo} {barrier : BitVec 32} :
      system.threads gtid = some thread → swInfo.index.toNat < biffMaxGtids →
      Step system (.discovered gtid barrier)
        (system.send gtid (some ⟨thread.phase, barrier⟩) barrier
          (.taskNew gtid parent thread.phase.isRunnable swInfo))
  | event {gtid : Gtid} {thread : Thread Core} {event : Event} {phase : Phase Core}
      {msg : Msg Core Gtid} :
      system.threads gtid = some thread → thread.phase.after gtid event = some (phase, msg) →
      Step system (.event gtid event)
        (system.send gtid (some ⟨phase, thread.barrier + 1⟩) (thread.barrier + 1) msg)
  | switchesTo {gtid target : Gtid} {thread other : Thread Core} {cpu : Core} :
      system.threads gtid = some thread → thread.phase = .running cpu false →
      system.threads target = some other → other.phase = .blocked →
      Step system (.switchesTo gtid target)
        ((system.send gtid (some ⟨.blocked, thread.barrier + 1⟩) (thread.barrier + 1)
          (.taskSwitchto gtid)).setThread target ⟨.running cpu true, other.barrier⟩)
  | switchesOn {gtid target : Gtid} {thread other : Thread Core} {cpu : Core} :
      system.threads gtid = some thread → thread.phase = .running cpu true →
      system.threads target = some other → other.phase = .blocked →
      Step system (.switchesTo gtid target)
        ((system.setThread gtid ⟨.blocked, thread.barrier⟩).setThread target
          ⟨.running cpu true, other.barrier⟩)
  | getsOffCpu {gtid : Gtid} {thread : Thread Core} :
      system.threads gtid = some thread → thread.phase = .runnable true →
      Step system (.getsOffCpu gtid)
        (system.setThread gtid ⟨.runnable false, thread.barrier⟩)
  | leaves {gtid : Gtid} {thread : Thread Core} {msg : Msg Core Gtid} :
      system.threads gtid = some thread → thread.phase.Leaves gtid msg →
      Step system (.leaves gtid) (system.send gtid none (thread.barrier + 1) msg)
  | cpuMessage {cpu : Core} {available : Bool} :
      Step system (.cpuMessage cpu available)
        (system.setMaps (system.maps.biffMsgSend system.now 0
          (if available then .cpuAvailable cpu else .cpuBusy cpu)))
  /-- Whatever the siblings of the topology. -/
  | cpuTick {siblingOf : Core → Core} {cpu : Core} {rescheduled : List Core} :
      system.maps.handleCpuTick siblingOf system.now cpu = rescheduled →
      Step system (.cpuTick cpu rescheduled)
        (system.setMaps (system.maps.biffMsgSend system.now 0 (.cpuTick cpu)))
  | discoveryDone :
      (∀ gtid, system.threads gtid ≠ none → system.maps.gtidToSwd gtid ≠ none) →
      Step system .discoveryDone (system.setMaps system.maps.setInitialized)
  | pntPop {cpu : Core} {next : RqItem Gtid} {rest : List (RqItem Gtid)} :
      system.maps.initialized = true → system.Vacant cpu → system.pnts cpu = .idle →
      system.maps.globalRq = next :: rest →
      Step system (.pntPop cpu)
        ((system.setMaps (system.maps.setGlobalRq rest)).setPnt cpu (.run next))
  | pntRuns {cpu : Core} {next : RqItem Gtid} :
      system.pnts cpu = .run next →
      runAllowed (system.threads next.gtid) next.taskBarrier none →
      Step system (.pntRun cpu none)
        ((system.setThread next.gtid ⟨.latched cpu, next.taskBarrier⟩).setPnt cpu
          (.afterRun next none))
  | pntFails {cpu : Core} {next : RqItem Gtid} {err : RunError} :
      system.pnts cpu = .run next →
      runAllowed (system.threads next.gtid) next.taskBarrier (some err) →
      Step system (.pntRun cpu (some err)) (system.setPnt cpu (.afterRun next (some err)))
  | pntEnqueue {cpu : Core} {next : RqItem Gtid} :
      system.pnts cpu = .enqueue next →
      Step system (.pntEnqueue cpu)
        ((system.setMaps (system.maps.enqueueTask next.gtid next.taskBarrier)).setPnt cpu .idle)
  | tick {now : BitVec 64} : Step system (.tick now) { system with now := now }

/-- The programs are loaded into an enclave that may have threads. None of them runs. -/
structure Initial (system : System Core Gtid) : Prop where
  threads : ∀ gtid thread, system.threads gtid = some thread → thread.phase.seat = none
  notInitialized : system.maps.initialized = false
  current : ∀ cpu, (system.maps.cpuData cpu).current = none
  swLookup : system.maps.swLookup = []
  globalRq : system.maps.globalRq = []
  pnts : ∀ cpu, system.pnts cpu = .idle

end System

def biff (Core Gtid : Type) [DecidableEq Core] [DecidableEq Gtid] :
    Machine (System Core Gtid) (Action Core Gtid) where
  initial := System.Initial
  step system action next := system.Step action next

end Machine

end Ghost.Biff
