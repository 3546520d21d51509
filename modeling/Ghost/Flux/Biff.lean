import Ghost.Lib.Machine
import Mathlib.Logic.Function.Basic

/-!
# Biff's threads

The message handlers of `flux_api.bpf.c` with the callbacks of `biff_flux.bpf.c`
that they dispatch to. Of biff's run queue only the references are kept that
picking a thread takes: which thread is picked is left open, and no handler reads
the queue to decide how many CPUs biff wants.
-/

set_option autoImplicit false

namespace Ghost.Flux

/-- The schedulers of `flux_bpf.h`. -/
inductive SchedId where
  | none
  | roci
  | biff
  | idle
  deriving DecidableEq

/-- `struct __flux_thread`. -/
structure FluxThread (Gtid : Type) where
  gtid : Gtid
  seqnum : Nat
  refcnt : Int
  sched : SchedId
  nice : Int
  onRq : Bool
  onCpu : Bool
  pendingLatch : Bool

/-- `FLUX_MAX_GTIDS`, the entries that `sw_lookup` has room for. -/
def maxGtids : Nat := 65536

/-- What the handlers share. A thread's structure is the one that `sw_lookup` gives
for its gtid. -/
structure FluxState (Gtid Slot Cpu : Type) where
  swLookup : Gtid → Option Slot
  threads : Slot → FluxThread Gtid
  /-- `f.nr_cpus_wanted` of biff. -/
  nrCpusWanted : Int
  /-- The thread between `flux_prepare_to_run` and the end of `flux_run_thread`. -/
  latching : Cpu → Option Slot

/-- The messages about threads, with the payload that the handlers read. -/
inductive Message (Gtid Slot : Type) where
  | new (gtid : Gtid) (index : Slot) (nice : Int) (runnable : Bool)
  | onCpu (gtid : Gtid)
  | blocked (gtid : Gtid) (fromSwitchto : Bool)
  | wakeup (gtid : Gtid)
  | preempt (gtid : Gtid) (fromSwitchto wasLatched : Bool)
  | yield (gtid : Gtid) (fromSwitchto : Bool)
  | switchto (gtid : Gtid)
  | latchFailure (gtid : Gtid)
  | departed (gtid : Gtid) (fromSwitchto wasCurrent : Bool)
  | dead (gtid : Gtid)

namespace FluxState

variable {Gtid Slot Cpu : Type} [DecidableEq Gtid] [DecidableEq Slot] [DecidableEq Cpu]
  (flux : FluxState Gtid Slot Cpu)

/-! ## Threads and references -/

def update (slot : Slot) (change : FluxThread Gtid → FluxThread Gtid) :
    FluxState Gtid Slot Cpu :=
  { flux with threads := Function.update flux.threads slot (change (flux.threads slot)) }

def fluxThreadIncref (slot : Slot) : FluxState Gtid Slot Cpu :=
  flux.update slot fun thread => { thread with refcnt := thread.refcnt + 1 }

def fluxThreadDecref (slot : Slot) : FluxState Gtid Slot Cpu :=
  let flux := flux.update slot fun thread => { thread with refcnt := thread.refcnt - 1 }
  if (flux.threads slot).refcnt = 0 then
    { flux with swLookup := Function.update flux.swLookup (flux.threads slot).gtid none }
  else flux

/-- `flux_request_cpus`, up to the call into the parent. -/
def fluxRequestCpus (nrCpus : Int) : FluxState Gtid Slot Cpu :=
  { flux with nrCpusWanted := flux.nrCpusWanted + nrCpus }

/-! ## Biff's callbacks -/

def biffThreadNew (slot : Slot) : FluxState Gtid Slot Cpu :=
  if (flux.threads slot).onRq then flux.fluxRequestCpus 1 else flux

def biffThreadBlocked : FluxState Gtid Slot Cpu := flux.fluxRequestCpus (-1)

def biffThreadWakeup : FluxState Gtid Slot Cpu := flux.fluxRequestCpus 1

def biffThreadDeparted (slot : Slot) : FluxState Gtid Slot Cpu :=
  if (flux.threads slot).onRq then flux.fluxRequestCpus (-1) else flux

/-! ## Dispatch -/

/-- `__thread_op_thr`: only biff has thread callbacks. -/
def threadOpThr (slot : Slot) (seqnum : Nat)
    (callback : FluxState Gtid Slot Cpu → FluxState Gtid Slot Cpu) : FluxState Gtid Slot Cpu :=
  let flux := if (flux.threads slot).sched = .biff then callback flux else flux
  flux.update slot fun thread => { thread with seqnum := seqnum }

/-- `__thread_op` and what its handler does with the thread afterwards. A handler
of an unknown thread returns. -/
def threadOp (gtid : Gtid) (seqnum : Nat)
    (callback : Slot → FluxState Gtid Slot Cpu → FluxState Gtid Slot Cpu)
    (after : Slot → FluxState Gtid Slot Cpu → FluxState Gtid Slot Cpu) :
    FluxState Gtid Slot Cpu :=
  match flux.swLookup gtid with
  | none => flux
  | some slot => after slot (flux.threadOpThr slot seqnum (callback slot))

/-! ## Handlers -/

/-- Whether `bpf_map_update_elem` with `BPF_NOEXIST` enters the gtid. -/
def enters [Fintype Gtid] (gtid : Gtid) : Bool :=
  (flux.swLookup gtid).isNone &&
    (Finset.univ.filter fun gtid => (flux.swLookup gtid).isSome).card < maxGtids

/-- `flux_join_scheduler`. Biff's `runnable` callback moves no CPUs. -/
def fluxJoinScheduler (slot : Slot) (schedId : SchedId) (runnable : Bool) :
    FluxState Gtid Slot Cpu :=
  let flux := flux.update slot fun thread => { thread with sched := schedId }
  let seqnum := (flux.threads slot).seqnum
  let flux := flux.threadOpThr slot seqnum fun flux => flux.biffThreadNew slot
  if runnable then flux.threadOpThr slot seqnum id else flux

def handleNew [Fintype Gtid] (seqnum : Nat) (gtid : Gtid)
    (index : Slot) (nice : Int) (runnable : Bool) : FluxState Gtid Slot Cpu :=
  if flux.enters gtid then
    let flux := { flux with swLookup := Function.update flux.swLookup gtid (some index) }
    let flux := flux.update index fun thread =>
      { thread with
        gtid := gtid
        seqnum := seqnum
        refcnt := 1
        nice := nice
        onRq := runnable
        onCpu := false
        pendingLatch := false }
    flux.fluxJoinScheduler index .biff runnable
  else flux

def handleOnCpu (seqnum : Nat) (gtid : Gtid) : FluxState Gtid Slot Cpu :=
  flux.threadOp gtid seqnum (fun _ => id) fun slot flux =>
    flux.update slot fun thread => { thread with onCpu := true }

def handleBlocked (seqnum : Nat) (gtid : Gtid) : FluxState Gtid Slot Cpu :=
  flux.threadOp gtid seqnum (fun _ => biffThreadBlocked) fun slot flux =>
    flux.update slot fun thread => { thread with onRq := false, onCpu := false }

def handleWakeup (seqnum : Nat) (gtid : Gtid) : FluxState Gtid Slot Cpu :=
  flux.threadOp gtid seqnum (fun _ => biffThreadWakeup) fun slot flux =>
    flux.update slot fun thread => { thread with onRq := true }

/-- Biff's callbacks for a preemption and a yield only enqueue the thread. -/
def handleOffCpu (seqnum : Nat) (gtid : Gtid) (fromSwitchto : Bool) :
    FluxState Gtid Slot Cpu :=
  flux.threadOp gtid seqnum (fun _ => id) fun slot flux =>
    flux.update slot fun thread =>
      { thread with onRq := fromSwitchto || thread.onRq, onCpu := false }

def handlePreempt (seqnum : Nat) (gtid : Gtid)
    (fromSwitchto : Bool) : FluxState Gtid Slot Cpu :=
  flux.handleOffCpu seqnum gtid fromSwitchto

def handleYield (seqnum : Nat) (gtid : Gtid)
    (fromSwitchto : Bool) : FluxState Gtid Slot Cpu :=
  flux.handleOffCpu seqnum gtid fromSwitchto

def handleSwitchto (seqnum : Nat) (gtid : Gtid) :
    FluxState Gtid Slot Cpu :=
  flux.threadOp gtid seqnum (fun _ => id) fun slot flux =>
    flux.update slot fun thread => { thread with onRq := false, onCpu := false }

def handleLatchFailure (seqnum : Nat) (gtid : Gtid) :
    FluxState Gtid Slot Cpu :=
  match flux.swLookup gtid with
  | none => flux
  | some slot =>
      if (flux.threads slot).pendingLatch then
        let flux := flux.update slot fun thread => { thread with pendingLatch := false }
        flux.threadOpThr slot seqnum id
      else flux.update slot fun thread => { thread with seqnum := seqnum }

def handleDead (seqnum : Nat) (gtid : Gtid) : FluxState Gtid Slot Cpu :=
  flux.threadOp gtid seqnum (fun _ => id) fun slot flux =>
    (flux.update slot fun thread => { thread with sched := .none }).fluxThreadDecref slot

def handleDeparted (seqnum : Nat) (gtid : Gtid) :
    FluxState Gtid Slot Cpu :=
  flux.threadOp gtid seqnum (fun slot flux => flux.biffThreadDeparted slot) fun slot flux =>
    (flux.update slot fun thread => { thread with sched := .none }).fluxThreadDecref slot

/-- `flux_msg_send`. -/
def fluxMsgSend [Fintype Gtid] (seqnum : Nat) :
    Message Gtid Slot → FluxState Gtid Slot Cpu
  | .new gtid index nice runnable => flux.handleNew seqnum gtid index nice runnable
  | .onCpu gtid => flux.handleOnCpu seqnum gtid
  | .blocked gtid _ => flux.handleBlocked seqnum gtid
  | .wakeup gtid => flux.handleWakeup seqnum gtid
  | .preempt gtid fromSwitchto _ => flux.handlePreempt seqnum gtid fromSwitchto
  | .yield gtid fromSwitchto => flux.handleYield seqnum gtid fromSwitchto
  | .switchto gtid => flux.handleSwitchto seqnum gtid
  | .latchFailure gtid => flux.handleLatchFailure seqnum gtid
  | .departed gtid _ _ => flux.handleDeparted seqnum gtid
  | .dead gtid => flux.handleDead seqnum gtid

/-! ## Picking a thread -/

/-- `flux_prepare_to_run`. -/
def fluxPrepareToRun (slot : Slot) (cpu : Cpu) : FluxState Gtid Slot Cpu :=
  let flux := flux.update slot fun thread => { thread with pendingLatch := true }
  let flux := flux.fluxThreadIncref slot
  { flux with latching := Function.update flux.latching cpu (some slot) }

/-- `flux_run_thread`, after the call of `bpf_ghost_run_gtid`. -/
def fluxRunThread (slot : Slot) (cpu : Cpu) (latched : Bool) :
    FluxState Gtid Slot Cpu :=
  let flux :=
    if latched then flux.update slot fun thread => { thread with pendingLatch := false } else flux
  let flux := flux.fluxThreadDecref slot
  { flux with latching := Function.update flux.latching cpu none }

end FluxState

/-! ## The kernel -/

/-- What the kernel knows of a thread. -/
inductive Status where
  /-- Not in the enclave. -/
  | absent
  | blocked
  | runnable
  | running
  /-- On a CPU by a SwitchTo: the current thread of an active chain. -/
  | chained
  deriving DecidableEq

/-- A runnable or running thread counts one, and so does an active chain, which has
one current thread. -/
def Status.loads : Status → Bool
  | .absent | .blocked => false
  | .runnable | .running | .chained => true

inductive Event (Gtid Slot Cpu : Type) where
  /-- A SWITCHTO also names the thread that runs now, which its message does not. -/
  | switchto (seqnum : Nat) (gtid target : Gtid)
  | message (seqnum : Nat) (msg : Message Gtid Slot)
  /-- Within a chain the next thread runs without a message. -/
  | switch (gtid target : Gtid)
  | prepare (cpu : Cpu) (slot : Slot)
  | run (cpu : Cpu) (slot : Slot) (latched : Bool)

section Kernel

variable {Gtid Slot Cpu : Type} [DecidableEq Gtid]

/-- The status after a message about the thread, if the kernel may send it. -/
def Status.after (status : Status) : Message Gtid Slot → Option Status
  | .new _ _ _ isRunnable =>
      match status with
      | .absent => some (if isRunnable then .runnable else .blocked)
      | status => some status
  | .onCpu _ => if status = .runnable then some .running else none
  | .blocked _ fromSwitchto =>
      if status = if fromSwitchto then .chained else .running then some .blocked else none
  | .wakeup _ => if status = .blocked then some .runnable else none
  | .preempt _ fromSwitchto wasLatched =>
      if wasLatched then
        if status = .runnable ∧ fromSwitchto = false then some .runnable else none
      else if status = if fromSwitchto then .chained else .running then some .runnable else none
  | .yield _ fromSwitchto =>
      if status = if fromSwitchto then .chained else .running then some .runnable else none
  | .switchto _ => none
  | .latchFailure _ => if status = .absent then none else some status
  | .departed _ fromSwitchto wasCurrent =>
      if status ≠ .absent ∧ fromSwitchto = decide (status = .chained) ∧
          wasCurrent = decide (status = .running ∨ status = .chained) then some .absent
      else none
  | .dead _ => if status = .blocked then some .absent else none

def Message.gtid : Message Gtid Slot → Gtid
  | .new gtid _ _ _ => gtid
  | .onCpu gtid => gtid
  | .blocked gtid _ => gtid
  | .wakeup gtid => gtid
  | .preempt gtid _ _ => gtid
  | .yield gtid _ => gtid
  | .switchto gtid => gtid
  | .latchFailure gtid => gtid
  | .departed gtid _ _ => gtid
  | .dead gtid => gtid

/-- A thread is switched to while it is blocked; the one before it is blocked then. -/
def switched (statuses : Gtid → Status) (gtid target : Gtid) : Gtid → Status :=
  Function.update (Function.update statuses gtid .blocked) target .chained

end Kernel

/-- The threads as the kernel knows them, and what the handlers made of its messages. -/
structure Enclave (Gtid Slot Cpu : Type) where
  statuses : Gtid → Status
  flux : FluxState Gtid Slot Cpu

namespace Enclave

variable {Gtid Slot Cpu : Type} [Fintype Gtid] [DecidableEq Gtid] [DecidableEq Slot]
  [DecidableEq Cpu]

/-- One event, if it can happen. Biff picks only threads that are its own. -/
def perform (enclave : Enclave Gtid Slot Cpu) :
    Event Gtid Slot Cpu → Option (Enclave Gtid Slot Cpu)
  | .message seqnum msg =>
      (Status.after (enclave.statuses msg.gtid) msg).map fun status =>
        { statuses := Function.update enclave.statuses msg.gtid status
          flux := enclave.flux.fluxMsgSend seqnum msg }
  | .switchto seqnum gtid target =>
      if enclave.statuses gtid = .running ∧ enclave.statuses target = .blocked then
        some
          { statuses := switched enclave.statuses gtid target
            flux := enclave.flux.fluxMsgSend seqnum (.switchto gtid) }
      else none
  | .switch gtid target =>
      if enclave.statuses gtid = .chained ∧ enclave.statuses target = .blocked then
        some { enclave with statuses := switched enclave.statuses gtid target }
      else none
  | .prepare cpu slot =>
      if enclave.flux.latching cpu = none ∧ (enclave.flux.threads slot).sched = .biff ∧
          enclave.flux.swLookup (enclave.flux.threads slot).gtid = some slot then
        some { enclave with flux := enclave.flux.fluxPrepareToRun slot cpu }
      else none
  | .run cpu slot latched =>
      if enclave.flux.latching cpu = some slot then
        some { enclave with flux := enclave.flux.fluxRunThread slot cpu latched }
      else none

/-- No thread is in the enclave, and no structure is in use. -/
def Initial (enclave : Enclave Gtid Slot Cpu) : Prop :=
  (∀ gtid, enclave.statuses gtid = .absent) ∧ (∀ gtid, enclave.flux.swLookup gtid = none) ∧
    (∀ slot, (enclave.flux.threads slot).refcnt = 0) ∧
    (∀ cpu, enclave.flux.latching cpu = none) ∧ enclave.flux.nrCpusWanted = 0

end Enclave

/-- Every kernel-legal history, with the picks of the CPUs in between. -/
def enclaves (Gtid Slot Cpu : Type) [Fintype Gtid] [DecidableEq Gtid] [DecidableEq Slot]
    [DecidableEq Cpu] : Lib.Machine (Enclave Gtid Slot Cpu) (Event Gtid Slot Cpu) where
  initial := Enclave.Initial
  step enclave event next := enclave.perform event = some next

end Ghost.Flux
