import Mathlib.Tactic

/-!
# Biff

The programs of `biff.bpf.c`: the message handlers of `biff_msg_send`, and `biff_pnt` with its
global queue. A CPU number below `BIFF_MAX_CPUS` is a `Core`.
-/

set_option autoImplicit false

namespace Ghost.Biff

def biffMaxGtids : Nat := 65536

/-- `struct biff_bpf_cpu_data`. A `current` of zero is `none`. -/
structure CpuData (Gtid : Type) where
  current : Option Gtid
  cpuSeqnum : BitVec 64
  available : Bool

/-- `struct biff_bpf_sw_data`. -/
structure SwData (Gtid : Type) where
  ranAt : BitVec 64
  ranUntil : BitVec 64
  runnableAt : BitVec 64
  parent : Option Gtid

/-- `struct task_sw_info`. -/
structure TaskSwInfo where
  id : BitVec 32
  index : BitVec 32

structure RqItem (Gtid : Type) where
  gtid : Gtid
  taskBarrier : BitVec 32
  deriving DecidableEq

/-- The maps and the globals of the programs. -/
structure Maps (Core Gtid : Type) where
  initialized : Bool
  cpuData : Core → CpuData Gtid
  swData : Nat → SwData Gtid
  swLookup : List (Gtid × TaskSwInfo)
  globalRq : List (RqItem Gtid)

/-- The payload of a message, as far as a handler reads it. -/
inductive Msg (Core Gtid : Type) where
  | taskNew (gtid : Gtid) (parent : Option Gtid) (runnable : Bool) (swInfo : TaskSwInfo)
  | taskOnCpu (gtid : Gtid) (cpu : Core) (cpuSeqnum : BitVec 64)
  | taskBlocked (gtid : Gtid) (cpu : Core)
  | taskWakeup (gtid : Gtid)
  | taskPreempt (gtid : Gtid) (cpu : Core)
  | taskYield (gtid : Gtid) (cpu : Core)
  | taskSwitchto (gtid : Gtid)
  | taskDead (gtid : Gtid)
  | taskDeparted (gtid : Gtid) (cpu : Core) (wasCurrent : Bool)
  | cpuTick (cpu : Core)
  | cpuAvailable (cpu : Core)
  | cpuBusy (cpu : Core)
  /-- The types that the switch of `biff_msg_send` has no case for: changes of the affinity or
  the priority, latch failures. -/
  | unhandled (gtid : Gtid)

section Handlers

variable {Core Gtid : Type} [DecidableEq Core] [DecidableEq Gtid]

namespace Maps

def setGlobalRq (maps : Maps Core Gtid) (globalRq : List (RqItem Gtid)) : Maps Core Gtid :=
  { maps with globalRq := globalRq }

/-- The index of the task's `sw_data`. -/
def gtidToSwd (maps : Maps Core Gtid) (gtid : Gtid) : Option Nat :=
  match maps.swLookup.lookup gtid with
  | none => none
  | some swi => if swi.index.toNat < biffMaxGtids then some swi.index.toNat else none

def setSwd (maps : Maps Core Gtid) (swd : Nat) (data : SwData Gtid) : Maps Core Gtid :=
  { maps with swData := Function.update maps.swData swd data }

def setPcpu (maps : Maps Core Gtid) (cpu : Core) (data : CpuData Gtid) : Maps Core Gtid :=
  { maps with cpuData := Function.update maps.cpuData cpu data }

def taskStarted (maps : Maps Core Gtid) (gtid : Gtid) (cpu : Core) (cpuSeqnum : BitVec 64) :
    Maps Core Gtid :=
  maps.setPcpu cpu ⟨some gtid, cpuSeqnum, (maps.cpuData cpu).available⟩

def taskStopped (maps : Maps Core Gtid) (cpu : Core) : Maps Core Gtid :=
  maps.setPcpu cpu ⟨none, (maps.cpuData cpu).cpuSeqnum, (maps.cpuData cpu).available⟩

def getCurrent (maps : Maps Core Gtid) (cpu : Core) : Option Nat :=
  match (maps.cpuData cpu).current with
  | none => none
  | some gtid => maps.gtidToSwd gtid

/-- A full queue loses the task. -/
def enqueueTask (maps : Maps Core Gtid) (gtid : Gtid) (taskBarrier : BitVec 32) :
    Maps Core Gtid :=
  if maps.globalRq.length < biffMaxGtids then
    maps.setGlobalRq (maps.globalRq ++ [⟨gtid, taskBarrier⟩])
  else maps

/-- `bpf_map_update_elem` with `BPF_NOEXIST`. -/
def updateNoexist (maps : Maps Core Gtid) (gtid : Gtid) (swi : TaskSwInfo) :
    Option (Maps Core Gtid) :=
  if (maps.swLookup.lookup gtid).isSome ∨ biffMaxGtids ≤ maps.swLookup.length then none
  else some { maps with swLookup := (gtid, swi) :: maps.swLookup }

def deleteElem (maps : Maps Core Gtid) (gtid : Gtid) : Maps Core Gtid :=
  { maps with swLookup := maps.swLookup.filter fun entry => decide (entry.1 ≠ gtid) }

def handleNew (maps : Maps Core Gtid) (now : BitVec 64) (seqnum : BitVec 32) (gtid : Gtid)
    (parent : Option Gtid) (runnable : Bool) (swInfo : TaskSwInfo) : Maps Core Gtid :=
  match maps.updateNoexist gtid swInfo with
  | none => maps
  | some known =>
      match known.gtidToSwd gtid with
      | none => known
      | some swd =>
          if runnable then
            (known.setSwd swd { known.swData swd with
              parent := parent, ranUntil := now, runnableAt := now }).enqueueTask gtid seqnum
          else known.setSwd swd { known.swData swd with parent := parent, ranUntil := now }

def handleOnCpu (maps : Maps Core Gtid) (now : BitVec 64) (gtid : Gtid) (cpu : Core)
    (cpuSeqnum : BitVec 64) : Maps Core Gtid :=
  match maps.gtidToSwd gtid with
  | none => maps
  | some swd =>
      (maps.setSwd swd { maps.swData swd with ranAt := now }).taskStarted gtid cpu cpuSeqnum

def handleBlocked (maps : Maps Core Gtid) (now : BitVec 64) (gtid : Gtid) (cpu : Core) :
    Maps Core Gtid :=
  match maps.gtidToSwd gtid with
  | none => maps
  | some swd => (maps.setSwd swd { maps.swData swd with ranUntil := now }).taskStopped cpu

def handleWakeup (maps : Maps Core Gtid) (now : BitVec 64) (seqnum : BitVec 32) (gtid : Gtid) :
    Maps Core Gtid :=
  match maps.gtidToSwd gtid with
  | none => maps
  | some swd =>
      (maps.setSwd swd { maps.swData swd with runnableAt := now }).enqueueTask gtid seqnum

/-- The body that `handle_preempt` and `handle_yield` share. -/
def handleStopped (maps : Maps Core Gtid) (now : BitVec 64) (seqnum : BitVec 32) (gtid : Gtid)
    (cpu : Core) : Maps Core Gtid :=
  match maps.gtidToSwd gtid with
  | none => maps
  | some swd =>
      ((maps.setSwd swd { maps.swData swd with ranUntil := now, runnableAt := now }).taskStopped
        cpu).enqueueTask gtid seqnum

def handlePreempt (maps : Maps Core Gtid) (now : BitVec 64) (seqnum : BitVec 32) (gtid : Gtid)
    (cpu : Core) : Maps Core Gtid := maps.handleStopped now seqnum gtid cpu

def handleYield (maps : Maps Core Gtid) (now : BitVec 64) (seqnum : BitVec 32) (gtid : Gtid)
    (cpu : Core) : Maps Core Gtid := maps.handleStopped now seqnum gtid cpu

def handleSwitchto (maps : Maps Core Gtid) (now : BitVec 64) (gtid : Gtid) : Maps Core Gtid :=
  match maps.gtidToSwd gtid with
  | none => maps
  | some swd => maps.setSwd swd { maps.swData swd with ranUntil := now }

def handleDead (maps : Maps Core Gtid) (gtid : Gtid) : Maps Core Gtid := maps.deleteElem gtid

def handleDeparted (maps : Maps Core Gtid) (gtid : Gtid) (cpu : Core) (wasCurrent : Bool) :
    Maps Core Gtid :=
  if wasCurrent then (maps.taskStopped cpu).deleteElem gtid else maps.deleteElem gtid

/-- The CPUs that a tick reschedules. -/
def handleCpuTick (siblingOf : Core → Core) (maps : Maps Core Gtid) (now : BitVec 64)
    (cpu : Core) : List Core :=
  match maps.getCurrent cpu with
  | none => []
  | some swd => if 50000 < now - (maps.swData swd).ranAt then [cpu, siblingOf cpu] else []

def handleCpuAvailable (maps : Maps Core Gtid) (cpu : Core) (available : Bool) :
    Maps Core Gtid :=
  maps.setPcpu cpu ⟨(maps.cpuData cpu).current, (maps.cpuData cpu).cpuSeqnum, available⟩

/-- The agent writes it when Discovery is complete. -/
def setInitialized (maps : Maps Core Gtid) : Maps Core Gtid := { maps with initialized := true }

/-- `biff_msg_send`, but for the rescheduling at a tick. -/
def biffMsgSend (maps : Maps Core Gtid) (now : BitVec 64) (seqnum : BitVec 32) :
    Msg Core Gtid → Maps Core Gtid
  | .taskNew gtid parent runnable swInfo => maps.handleNew now seqnum gtid parent runnable swInfo
  | .taskOnCpu gtid cpu cpuSeqnum => maps.handleOnCpu now gtid cpu cpuSeqnum
  | .taskBlocked gtid cpu => maps.handleBlocked now gtid cpu
  | .taskWakeup gtid => maps.handleWakeup now seqnum gtid
  | .taskPreempt gtid cpu => maps.handlePreempt now seqnum gtid cpu
  | .taskYield gtid cpu => maps.handleYield now seqnum gtid cpu
  | .taskSwitchto gtid => maps.handleSwitchto now gtid
  | .taskDead gtid => maps.handleDead gtid
  | .taskDeparted gtid cpu wasCurrent => maps.handleDeparted gtid cpu wasCurrent
  | .cpuTick _ => maps
  | .cpuAvailable cpu => maps.handleCpuAvailable cpu true
  | .cpuBusy cpu => maps.handleCpuAvailable cpu false
  | .unhandled _ => maps

end Maps

end Handlers

/-! ## biff_pnt -/

/-- What `bpf_ghost_run_gtid` fails with. -/
inductive RunError where
  | enoent
  | estale
  | ebusy
  | erange
  | exdev
  | einval
  | enospc
  | other
  deriving DecidableEq

/-- The errors after which `biff_pnt` puts the task back. -/
def RunError.enqueues : RunError → Bool
  | .enoent | .estale => false
  | _ => true

/-- Where a CPU stands in `biff_pnt`, by the access that comes next. -/
inductive PntPc (Gtid : Type) where
  /-- Not in it, or before the pop. -/
  | idle
  | run (next : RqItem Gtid)
  | enqueue (next : RqItem Gtid)
  deriving DecidableEq

def PntPc.item {Gtid : Type} : PntPc Gtid → Option (RqItem Gtid)
  | .idle => none
  | .run next | .enqueue next => some next

/-- Where `biff_pnt` goes on after `bpf_ghost_run_gtid`. -/
def PntPc.afterRun {Gtid : Type} (next : RqItem Gtid) : Option RunError → PntPc Gtid
  | none => .idle
  | some err => if err.enqueues then .enqueue next else .idle

end Ghost.Biff
