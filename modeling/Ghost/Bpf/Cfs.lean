import Ghost.Bpf.ArrList

/-!
# The CFS scheduler in BPF

`third_party/bpf/cfs.bpf.c` on one CPU: the run queue of that CPU, the array of threads
whose `next_task` fields link it, and the map from thread ids to elements of the array.
The messages and the results of `bpf_ghost_run_gtid` are the kernel's.
-/

set_option autoImplicit false

namespace Ghost.Bpf

open Lib

theorem cfsMaxGtids_fits : 65536 < 2 ^ 32 := by decide

/-- `CFS_MAX_GTIDS`. -/
def cfsMaxGtids : ArrSize := ⟨65536, cfsMaxGtids_fits⟩

def NICE_0_LOAD : BitVec 64 := 1024

def ENQUEUE_WAKEUP : BitVec 32 := 0x01

def ENQUEUE_MIGRATED : BitVec 32 := 0x40

def schedLatency : BitVec 32 := 6000

def schedMinGranularity : BitVec 32 := 750

def schedNrLatency : BitVec 32 := 8

/-- `struct cfs_bpf_thread` without its link. -/
structure CfsThread where
  gtid : BitVec 64
  taskBarrier : BitVec 64
  ranAt : BitVec 64
  ranUntil : BitVec 64
  runnableAt : BitVec 64
  weight : BitVec 64
  sumExecRuntime : BitVec 64
  vruntime : BitVec 64
  onRq : BitVec 64

/-- The maps, with one `cfs_bpf_rq` and one `cfs_bpf_cpu_data`. -/
structure Cfs where
  /-- `rq->rq_root` and the `next_task` fields. -/
  lists : ArrLists cfsMaxGtids Unit
  threads : cfsMaxGtids.Elem → CfsThread
  /-- `rq->current`. -/
  current : BitVec 64
  /-- `rq->weight`. -/
  weight : BitVec 64
  nrRunning : BitVec 64
  minVruntime : BitVec 64
  /-- `pcpu->current`. -/
  pcpuCurrent : BitVec 64
  cpuSeqnum : BitVec 64
  /-- The `index` of each entry. -/
  swLookup : BitVec 64 → Option (BitVec 32)
  initialized : Bool

namespace Cfs

variable (cfs : Cfs)

def gtidToThread (gtid : BitVec 64) : Option cfsMaxGtids.Elem :=
  match cfs.swLookup gtid with
  | none => none
  | some idx =>
      if inRange : idx.toNat < cfsMaxGtids.value then some ⟨idx.toNat, inRange⟩ else none

/-- A store through a pointer to a thread. -/
def setThread (elem : cfsMaxGtids.Elem) (store : CfsThread → CfsThread) : Cfs :=
  { cfs with threads := Function.update cfs.threads elem (store (cfs.threads elem)) }

/-! ## Virtual runtimes -/

/-- `__calc_delta`; in BPF a division by zero gives zero. -/
def calcDelta (deltaExec weight ldWeight : BitVec 64) : BitVec 64 :=
  deltaExec * (weight * 1000 / ldWeight)

def calcDeltaFair (delta : BitVec 64) (proc : CfsThread) : BitVec 64 :=
  if proc.weight ≠ NICE_0_LOAD then calcDelta delta NICE_0_LOAD proc.weight else delta

def maxVruntime (maximum vruntime : BitVec 64) : BitVec 64 :=
  if 0 < (vruntime - maximum).toInt then vruntime else maximum

def minimumVruntime (minimum vruntime : BitVec 64) : BitVec 64 :=
  if (vruntime - minimum).toInt < 0 then vruntime else minimum

/-- `__sched_period`. -/
def schedPeriod (nrRunning : BitVec 32) : BitVec 64 :=
  if schedNrLatency < nrRunning then nrRunning.setWidth 64 * schedMinGranularity.setWidth 64
  else schedLatency.setWidth 64

def schedSlice (thread : CfsThread) : BitVec 64 :=
  let nrRunning := cfs.nrRunning.setWidth 32
  let slice := schedPeriod (nrRunning + if thread.onRq = 0 then 1 else 0)
  calcDelta slice thread.weight cfs.weight

def schedVslice (thread : CfsThread) : BitVec 64 := calcDeltaFair (cfs.schedSlice thread) thread

/-- The guard of the loops over the run queue. -/
def mayIterate : Bool := 0 < cfs.nrRunning && cfs.nrRunning < 1000

/-- `update_min_vruntime` for a current thread. -/
def updateMinVruntime (curr : cfsMaxGtids.Elem) : Cfs :=
  if cfs.mayIterate then
    let walk := arrListForeach (fun _ => cfs.lists) () cfs.nrRunning.toNat
      (fun elem vruntime => (.next, minimumVruntime vruntime (cfs.threads elem).vruntime))
      (cfs.threads curr).vruntime
    { cfs with minVruntime := maxVruntime cfs.minVruntime walk.state }
  else cfs

def updateCurr (now : BitVec 64) (curr : Option cfsMaxGtids.Elem) : Cfs :=
  match curr with
  | none => cfs
  | some curr =>
      let deltaExec := now - (cfs.threads curr).ranAt
      if deltaExec = 0 then cfs
      else
        let cfs := cfs.setThread curr fun thread =>
          { thread with
            ranAt := now
            sumExecRuntime := thread.sumExecRuntime + deltaExec
            vruntime := thread.vruntime + calcDeltaFair deltaExec thread }
        cfs.updateMinVruntime curr

def placeEntity (thread : cfsMaxGtids.Elem) (initial : Bool) : Cfs :=
  let vruntime :=
    if initial then cfs.minVruntime + cfs.schedVslice (cfs.threads thread)
    else cfs.minVruntime - schedLatency.setWidth 64 >>> 1
  cfs.setThread thread fun thread =>
    { thread with vruntime := maxVruntime thread.vruntime vruntime }

/-! ## The run queue -/

def taskStarted (gtid cpuSeqnum : BitVec 64) : Cfs :=
  { cfs with pcpuCurrent := gtid, cpuSeqnum := cpuSeqnum, current := gtid }

def taskStopped : Cfs := { cfs with pcpuCurrent := 0, current := 0 }

/-- `get_current`. -/
def getCurrent : Option cfsMaxGtids.Elem :=
  if cfs.pcpuCurrent = 0 then none else cfs.gtidToThread cfs.pcpuCurrent

def updateRqOnTaskDead (thread : cfsMaxGtids.Elem) : Cfs :=
  { cfs with
    nrRunning := cfs.nrRunning - 1
    weight := cfs.weight - (cfs.threads thread).weight }

/-- The loop leaves `t` where its bound stops it, and that thread is removed. -/
def removeTaskFromRq (thread : cfsMaxGtids.Elem) : Cfs :=
  if cfs.mayIterate then
    let walk := arrListForeach (fun _ => cfs.lists) () cfs.nrRunning.toNat
      (fun t state => (if t = thread then .leave else .next, state)) ()
    match walk.var with
    | none => cfs
    | some t => { cfs with lists := cfs.lists.remove () t }.updateRqOnTaskDead thread
  else cfs

/-- `enqueue_task`, `current_task` being `curr`. -/
def enqueueEntity (now : BitVec 64) (curr : Option cfsMaxGtids.Elem) (gtid : BitVec 64)
    (thread : cfsMaxGtids.Elem) (flags : BitVec 32) : Cfs :=
  let cfs := cfs.setThread thread fun thread =>
    { thread with weight := if thread.weight = 0 then NICE_0_LOAD else thread.weight }
  let wakeup : Bool := flags &&& ENQUEUE_WAKEUP ≠ 0
  let renorm : Bool := !wakeup || flags &&& ENQUEUE_MIGRATED ≠ 0
  let isCurrent : Bool := cfs.current = gtid
  let renormalise := fun (cfs : Cfs) => cfs.setThread thread fun thread =>
    { thread with vruntime := thread.vruntime + cfs.minVruntime }
  let cfs := if renorm && isCurrent then renormalise cfs else cfs
  let cfs := cfs.updateCurr now curr
  let cfs := if renorm && !isCurrent then renormalise cfs else cfs
  let cfs := { cfs with
    weight := cfs.weight + (cfs.threads thread).weight
    nrRunning := cfs.nrRunning + 1 }
  let cfs := if wakeup then cfs.placeEntity thread false else cfs
  if wakeup then { cfs with lists := cfs.lists.insertTail () thread }
  else { cfs with lists := cfs.lists.insertHead () thread }

def enqueueTask (now gtid : BitVec 64) (taskBarrier flags : BitVec 32) : Cfs :=
  match cfs.gtidToThread gtid with
  | none => cfs
  | some thread =>
      let stored := cfs.setThread thread fun thread =>
        { thread with gtid := gtid, taskBarrier := taskBarrier.setWidth 64 }
      stored.enqueueEntity now cfs.getCurrent gtid thread flags

/-- The thread with the least vruntime of the first hundred, and the queue without it. -/
def pickNextTask : Option (cfsMaxGtids.Elem × Cfs) :=
  match cfs.lists.first () with
  | none => none
  | some first =>
      let walk := arrListForeach (fun _ => cfs.lists) () 100
        (fun thread (best : cfsMaxGtids.Elem × BitVec 64) =>
          (.next, if (cfs.threads thread).vruntime < best.2 then
            (thread, (cfs.threads thread).vruntime) else best))
        (first, (cfs.threads first).vruntime)
      some (walk.state.1, { cfs with lists := cfs.lists.remove () walk.state.1 })

/-! ## Messages -/

/-- `handle_new`. The update fails also if the map is `full`. -/
def handleNew (gtid : BitVec 64) (index seqnum : BitVec 32) (runnable full : Bool)
    (now later : BitVec 64) : Cfs :=
  if full || (cfs.swLookup gtid).isSome then cfs
  else
    let cfs := { cfs with swLookup := Function.update cfs.swLookup gtid (some index) }
    match cfs.gtidToThread gtid with
    | none => cfs
    | some thread =>
        let cfs := cfs.setThread thread fun thread =>
          { thread with gtid := gtid, taskBarrier := seqnum.setWidth 64, ranUntil := now }
        if runnable then
          (cfs.enqueueTask later gtid seqnum 0).setThread thread fun thread =>
            { thread with runnableAt := now }
        else cfs

def handleOnCpu (gtid cpuSeqnum now : BitVec 64) : Cfs :=
  match cfs.gtidToThread gtid with
  | none => cfs
  | some thread =>
      (cfs.setThread thread fun thread => { thread with ranAt := now }).taskStarted gtid cpuSeqnum

def handleBlocked (gtid now : BitVec 64) : Cfs :=
  match cfs.gtidToThread gtid with
  | none => cfs
  | some thread => (cfs.setThread thread fun thread => { thread with ranUntil := now }).taskStopped

def handleWakeup (gtid : BitVec 64) (seqnum : BitVec 32) (now later : BitVec 64) : Cfs :=
  match cfs.gtidToThread gtid with
  | none => cfs
  | some thread =>
      (cfs.setThread thread fun thread => { thread with runnableAt := now }).enqueueTask
        later gtid seqnum ENQUEUE_WAKEUP

/-- `handle_preempt` and `handle_yield`. -/
def handlePutPrev (gtid : BitVec 64) (seqnum : BitVec 32) (now later : BitVec 64) : Cfs :=
  match cfs.gtidToThread gtid with
  | none => cfs
  | some thread =>
      (cfs.setThread thread fun thread =>
        { thread with ranUntil := now, runnableAt := now }).taskStopped.enqueueTask
          later gtid seqnum 0

def handlePreempt (gtid : BitVec 64) (seqnum : BitVec 32) (now later : BitVec 64) : Cfs :=
  cfs.handlePutPrev gtid seqnum now later

def handleYield (gtid : BitVec 64) (seqnum : BitVec 32) (now later : BitVec 64) : Cfs :=
  cfs.handlePutPrev gtid seqnum now later

/-- `bpf_map_delete_elem`. -/
def forget (gtid : BitVec 64) : Cfs :=
  { cfs with swLookup := Function.update cfs.swLookup gtid none }

def handleDead (gtid : BitVec 64) : Cfs :=
  match cfs.gtidToThread gtid with
  | none => cfs
  | some thread => (cfs.updateRqOnTaskDead thread).forget gtid

def handleDeparted (gtid : BitVec 64) (wasCurrent : Bool) : Cfs :=
  let cfs := if wasCurrent then cfs.taskStopped else cfs
  match cfs.gtidToThread gtid with
  | none => cfs
  | some thread => (cfs.removeTaskFromRq thread).forget gtid

/-! ## Picking -/

/-- What `bpf_ghost_run_gtid` may return. -/
inductive RunError where
  | ENOENT
  | ESTALE
  | EBUSY
  | other

structure PntCtx where
  agentRunnable : Bool
  mightYield : Bool
  nextGtid : BitVec 64

/-- `cfs_pnt` leaves without picking. -/
def keepsOff (ctx : PntCtx) : Bool :=
  !cfs.initialized || ctx.agentRunnable || ctx.mightYield || ctx.nextGtid ≠ 0

/-- What `cfs_pnt` does with a thread that `bpf_ghost_run_gtid` refused. -/
def runFailed (gtid taskBarrier : BitVec 64) (later : BitVec 64) : RunError → Cfs
  | .ENOENT => cfs
  | .ESTALE => cfs
  | .EBUSY => cfs.enqueueTask later gtid (taskBarrier.setWidth 32) 0
  | .other => cfs.enqueueTask later gtid (taskBarrier.setWidth 32) 0

end Cfs

/-! ## The CPU -/

/-- What the kernel knows of a thread. -/
inductive Phase where
  | absent
  | blocked
  | waiting
  | running
  deriving DecidableEq

/-- The scheduler beside the kernel's view. -/
structure CfsCpu where
  cfs : Cfs
  phase : BitVec 64 → Phase
  /-- The index of the status word of each thread that is not absent. -/
  index : BitVec 64 → BitVec 32

inductive CfsEvent where
  | new (gtid : BitVec 64) (index seqnum : BitVec 32) (runnable full : Bool) (now later : BitVec 64)
  | wakeup (gtid : BitVec 64) (seqnum : BitVec 32) (now later : BitVec 64)
  | preempt (gtid : BitVec 64) (seqnum : BitVec 32) (now later : BitVec 64)
  | yield (gtid : BitVec 64) (seqnum : BitVec 32) (now later : BitVec 64)
  | blocked (gtid now : BitVec 64)
  | dead (gtid : BitVec 64)
  | departed (gtid : BitVec 64) (wasCurrent : Bool)
  | pnt (ctx : Cfs.PntCtx) (result : Except Cfs.RunError Unit) (cpuSeqnum now later : BitVec 64)

namespace CfsCpu

variable (cpu : CfsCpu)

def setPhase (cfs : Cfs) (gtid : BitVec 64) (phase : Phase) : CfsCpu :=
  { cpu with cfs := cfs, phase := Function.update cpu.phase gtid phase }

/-- `cfs_pnt`; a thread that runs is announced by `TASK_ON_CPU`. -/
def pnt (ctx : Cfs.PntCtx) (result : Except Cfs.RunError Unit) (cpuSeqnum now later : BitVec 64) :
    CfsCpu :=
  if cpu.cfs.keepsOff ctx then cpu
  else
    match cpu.cfs.pickNextTask with
    | none => cpu
    | some picked =>
        let next := cpu.cfs.threads picked.1
        match result with
        | .ok _ => cpu.setPhase (picked.2.handleOnCpu next.gtid cpuSeqnum now) next.gtid .running
        | .error err =>
            { cpu with cfs := picked.2.runFailed next.gtid next.taskBarrier later err }

/-- Which messages the kernel may send. A thread may be announced again; threads have
status words of their own; what runs on the CPU is `next_gtid` of a pick. -/
def Sends : CfsEvent → Prop
  | .new gtid index _ runnable _ _ _ =>
      (cpu.phase gtid = .absent ∧ ∀ other, cpu.phase other ≠ .absent → cpu.index other ≠ index) ∨
      (cpu.phase gtid ≠ .absent ∧ cpu.index gtid = index ∧
        (runnable = true ↔ cpu.phase gtid ≠ .blocked))
  | .wakeup gtid _ _ _ => cpu.phase gtid = .blocked
  | .preempt gtid _ _ _ => cpu.phase gtid = .running
  | .yield gtid _ _ _ => cpu.phase gtid = .running
  | .blocked gtid _ => cpu.phase gtid = .running
  | .dead gtid => cpu.phase gtid ≠ .absent
  | .departed gtid wasCurrent =>
      cpu.phase gtid ≠ .absent ∧ (wasCurrent = true ↔ cpu.phase gtid = .running)
  | .pnt ctx _ _ _ _ => (∃ gtid, cpu.phase gtid = .running) → ctx.nextGtid ≠ 0

def handle : CfsEvent → CfsCpu
  | .new gtid index seqnum runnable full now later =>
      let cfs := cpu.cfs.handleNew gtid index seqnum runnable full now later
      if cpu.phase gtid = .absent then
        { cpu.setPhase cfs gtid (if runnable then .waiting else .blocked) with
          index := Function.update cpu.index gtid index }
      else { cpu with cfs := cfs }
  | .wakeup gtid seqnum now later =>
      cpu.setPhase (cpu.cfs.handleWakeup gtid seqnum now later) gtid .waiting
  | .preempt gtid seqnum now later =>
      cpu.setPhase (cpu.cfs.handlePreempt gtid seqnum now later) gtid .waiting
  | .yield gtid seqnum now later =>
      cpu.setPhase (cpu.cfs.handleYield gtid seqnum now later) gtid .waiting
  | .blocked gtid now => cpu.setPhase (cpu.cfs.handleBlocked gtid now) gtid .blocked
  | .dead gtid => cpu.setPhase (cpu.cfs.handleDead gtid) gtid .absent
  | .departed gtid wasCurrent =>
      cpu.setPhase (cpu.cfs.handleDeparted gtid wasCurrent) gtid .absent
  | .pnt ctx result cpuSeqnum now later => cpu.pnt ctx result cpuSeqnum now later

end CfsCpu

/-- Zeroed maps, and no thread. -/
def cfsCpu : Machine CfsCpu CfsEvent where
  initial cpu :=
    cpu.cfs.lists.heads () = ⟨0#32, 0#32⟩ ∧ cpu.cfs.current = 0 ∧ cpu.cfs.pcpuCurrent = 0 ∧
    cpu.cfs.weight = 0 ∧ cpu.cfs.nrRunning = 0 ∧ (∀ gtid, cpu.cfs.swLookup gtid = none) ∧
    ∀ gtid, cpu.phase gtid = .absent
  step cpu event next := cpu.Sends event ∧ next = cpu.handle event

end Ghost.Bpf
