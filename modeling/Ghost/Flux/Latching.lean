import Ghost.Bpf.ArrListProperties
import Ghost.Flux.Biff

/-!
# Latching threads

The pending latch of flux, step by step. A handler of `flux_api.bpf.c` runs under the
lock of its thread, in stages between which the PNTs of other CPUs take threads off
biff's queue: it looks the thread up, calls the scheduler, stores the sequence number
and then its flags. `bpf_ghost_run_gtid` compares the sequence number that a PNT saved
with the thread's, and sends `TASK_LATCH_FAILURE` when it fails. A thread has the status
word of its gtid.
-/

set_option autoImplicit false

namespace Ghost.Flux

open Bpf Lib

/-- Where the kernel has a thread. -/
inductive Court where
  | gone
  | blocked
  | runnable
  | latched
  | onCpu
  deriving DecidableEq

/-- The messages about a thread. Of a failed latch it matters on which CPU it was. -/
inductive ThreadMsg (Cpu : Type) where
  | new (runnable : Bool)
  | onCpu
  | blocked
  | wakeup
  | preempt (fromSwitchto : Bool)
  | yield (fromSwitchto : Bool)
  | switchto
  | affinityChanged
  | prioChanged
  | latchFailure (cpu : Cpu)
  | departed
  | dead
  deriving DecidableEq

/-- What a handler does next. -/
inductive Stage where
  | lookup
  | op
  | store
  | finish
  | leave
  deriving DecidableEq

/-- Who has the task lock. A PNT has it once its thread has been latched. -/
inductive TaskLock (Cpu : Type) where
  | free
  | handler (msg : ThreadMsg Cpu) (stage : Stage)
  | pnt (cpu : Cpu)
  deriving DecidableEq

/-- How far a PNT is with a thread that it took off the queue. At the end it may have
dropped the last reference, and has to delete the entry in `sw_lookup`. -/
inductive Place where
  | holding (latchedSeqnum : Nat)
  | failing
  | failed
  | latched
  | freeing
  deriving DecidableEq

structure LatchThread (Cpu : Type) where
  /-- The fields of `struct __flux_thread`. -/
  seqnum : Nat
  refcnt : Int
  sched : SchedId
  onRq : Bool
  onCpu : Bool
  pendingLatch : Bool
  /-- `biff.enqueued`. -/
  enqueued : Bool
  /-- The thread has an entry in `sw_lookup`. -/
  known : Bool
  /-- The kernel's side. -/
  court : Court
  barrier : Nat
  lock : TaskLock Cpu
  /-- How often its entering ghost was announced. -/
  news : Nat

structure Latching (size : ArrSize) (Cpu : Type) where
  /-- `biff.rq`, linked by `biff.link`. -/
  lists : ArrLists size Unit
  threads : size.Elem → LatchThread Cpu
  pnt : Cpu → Option (size.Elem × Place)

/-! ## Messages -/

namespace ThreadMsg

variable {Cpu : Type}

/-- When the kernel sends a message, and where the thread is then. Discovery announces a
thread again. A thread that was switched to is off the run queue for flux until it is
heard of. -/
def courtAfter : ThreadMsg Cpu → Court → Option Court
  | .new runnable, court =>
      some (if court = .gone then if runnable then .runnable else .blocked else court)
  | .onCpu, court => if court = .latched then some .onCpu else none
  | .blocked, court => if court = .onCpu ∨ court = .blocked then some .blocked else none
  | .wakeup, court => if court = .blocked then some .runnable else none
  | .preempt fromSwitchto, court =>
      if court = .latched ∨ court = .onCpu ∨ court = .blocked ∧ fromSwitchto = true then
        some .runnable
      else none
  | .yield fromSwitchto, court =>
      if court = .onCpu ∨ court = .blocked ∧ fromSwitchto = true then some .runnable else none
  | .switchto, court => if court = .onCpu then some .blocked else none
  | .affinityChanged, court => if court = .gone then none else some court
  | .prioChanged, court => if court = .gone then none else some court
  | .latchFailure _, _ => none
  | .departed, court => if court = .gone then none else some .gone
  | .dead, court => if court = .blocked then some .gone else none

def isNew : ThreadMsg Cpu → Bool
  | .new _ => true
  | _ => false

/-- Biff makes the thread runnable: `__biff_task_runnable`. -/
def enqueues : ThreadMsg Cpu → Bool
  | .new runnable => runnable
  | .wakeup => true
  | .preempt _ => true
  | .yield _ => true
  | .latchFailure _ => true
  | _ => false

end ThreadMsg

/-! ## Handlers -/

namespace LatchThread

variable {Cpu : Type} (thread : LatchThread Cpu)

/-- The kernel takes the lock and counts the message. A thread that enters gets a new
status word. -/
def sent (msg : ThreadMsg Cpu) (court : Court) (seqnum : Nat) : LatchThread Cpu :=
  { thread with
    court := court
    barrier := if msg.isNew && thread.court = .gone then seqnum else thread.barrier + 1
    lock := .handler msg .lookup
    news := if msg.isNew then thread.news + 1 else thread.news }

def goOn (msg : ThreadMsg Cpu) (stage : Stage) : LatchThread Cpu :=
  { thread with lock := .handler msg stage }

def fluxThreadDecref : LatchThread Cpu :=
  { thread with
    refcnt := thread.refcnt - 1
    known := if thread.refcnt - 1 = 0 then false else thread.known }

/-- What a handler does before it calls the scheduler. `handle_new` enters the thread,
unless it is known; `handle_latch_failure` looks who has the ball; the others return if
there is no thread. -/
def lookup (msg : ThreadMsg Cpu) : LatchThread Cpu :=
  match msg with
  | .new runnable =>
      if thread.known then thread.goOn msg .leave
      else
        { thread with
          known := true
          seqnum := thread.barrier
          refcnt := 1
          sched := .biff
          onRq := runnable
          onCpu := false
          pendingLatch := false
          enqueued := false
          lock := .handler msg (if runnable then .op else .store) }
  | .latchFailure _ =>
      if !thread.known then thread.goOn msg .leave
      else if !thread.pendingLatch then
        { thread with seqnum := thread.barrier, lock := .handler msg .leave }
      else
        { thread with pendingLatch := false, lock := .handler msg .op }
  | _ => if thread.known then thread.goOn msg .op else thread.goOn msg .leave

/-- `smp_store_release` of the sequence number. -/
def store (msg : ThreadMsg Cpu) : LatchThread Cpu :=
  { thread with seqnum := thread.barrier, lock := .handler msg .finish }

/-- What a handler does after the dispatch. -/
def finish (msg : ThreadMsg Cpu) : LatchThread Cpu :=
  let thread :=
    match msg with
    | .onCpu => { thread with onCpu := true }
    | .blocked => { thread with onRq := false, onCpu := false }
    | .switchto => { thread with onRq := false, onCpu := false }
    | .wakeup => { thread with onRq := true }
    | .preempt fromSwitchto =>
        { thread with onRq := if fromSwitchto then true else thread.onRq, onCpu := false }
    | .yield fromSwitchto =>
        { thread with onRq := if fromSwitchto then true else thread.onRq, onCpu := false }
    | .dead => { thread with sched := .none }.fluxThreadDecref
    | .departed => { thread with sched := .none }.fluxThreadDecref
    | _ => thread
  thread.goOn msg .leave

/-- `flux_prepare_to_run`, and that the thread is off the queue. -/
def fluxPrepareToRun : LatchThread Cpu :=
  { thread with enqueued := false, pendingLatch := true, refcnt := thread.refcnt + 1 }

end LatchThread

/-! ## Steps -/

inductive LatchStep (size : ArrSize) (Cpu : Type) where
  | message (elem : size.Elem) (msg : ThreadMsg Cpu) (seqnum : Nat)
  | lookup (elem : size.Elem)
  | op (elem : size.Elem)
  | store (elem : size.Elem)
  | finish (elem : size.Elem)
  | leave (elem : size.Elem)
  /-- `__biff_pick_first_to_run`. -/
  | pick (cpu : Cpu)
  /-- `bpf_ghost_run_gtid` returns 0. -/
  | runSucceeds (cpu : Cpu)
  /-- The rest of `flux_run_thread` then. -/
  | hasBall (cpu : Cpu)
  /-- `bpf_ghost_run_gtid` sends the message that it fails. -/
  | runFails (cpu : Cpu)
  /-- `bpf_ghost_run_gtid` does not find the thread in ghost. -/
  | runVanishes (cpu : Cpu)
  /-- The rest of `flux_run_thread` after an error: `flux_thread_decref`, which frees the
  thread outside of its lock. -/
  | dropRef (cpu : Cpu)
  | free (cpu : Cpu)

namespace Latching

variable {size : ArrSize} {Cpu : Type} [DecidableEq Cpu] (state : Latching size Cpu)

def setThread (elem : size.Elem) (thread : LatchThread Cpu) : Latching size Cpu :=
  { state with threads := Function.update state.threads elem thread }

def setPnt (cpu : Cpu) (place : Option (size.Elem × Place)) : Latching size Cpu :=
  { state with pnt := Function.update state.pnt cpu place }

/-- `__thread_op_thr` up to the sequence number: only biff has thread ops. -/
def threadOp (elem : size.Elem) (msg : ThreadMsg Cpu) : Latching size Cpu :=
  let thread := state.threads elem
  if thread.sched = .biff ∧ msg.enqueues = true then
    { state with lists := state.lists.insertTail () elem }.setThread elem
      { thread with enqueued := true, lock := .handler msg .store }
  else if thread.sched = .biff ∧ msg = .departed ∧ thread.enqueued = true then
    { state with lists := state.lists.remove () elem }.setThread elem
      { thread with enqueued := false, lock := .handler msg .store }
  else state.setThread elem (thread.goOn msg .store)

/-- A handler of a failed latch returns into the PNT. -/
def release (elem : size.Elem) (msg : ThreadMsg Cpu) : Latching size Cpu :=
  let state := state.setThread elem { state.threads elem with lock := .free }
  match msg with
  | .latchFailure cpu => state.setPnt cpu (some (elem, .failed))
  | _ => state

def perform : LatchStep size Cpu → Option (Latching size Cpu)
  | .message elem msg seqnum =>
      let thread := state.threads elem
      if thread.lock = .free then
        (msg.courtAfter thread.court).map fun court =>
          state.setThread elem (thread.sent msg court seqnum)
      else none
  | .lookup elem =>
      let thread := state.threads elem
      match thread.lock with
      | .handler msg .lookup => some (state.setThread elem (thread.lookup msg))
      | _ => none
  | .op elem =>
      match (state.threads elem).lock with
      | .handler msg .op => some (state.threadOp elem msg)
      | _ => none
  | .store elem =>
      let thread := state.threads elem
      match thread.lock with
      | .handler msg .store => some (state.setThread elem (thread.store msg))
      | _ => none
  | .finish elem =>
      let thread := state.threads elem
      match thread.lock with
      | .handler msg .finish => some (state.setThread elem (thread.finish msg))
      | _ => none
  | .leave elem =>
      match (state.threads elem).lock with
      | .handler msg .leave => some (state.release elem msg)
      | _ => none
  | .pick cpu =>
      let popped := state.lists.popFirst ()
      match state.pnt cpu, popped.1 with
      | none, some elem =>
          let thread := state.threads elem
          some (({ state with lists := popped.2 }.setThread elem thread.fluxPrepareToRun).setPnt cpu
            (some (elem, .holding thread.seqnum)))
      | _, _ => none
  | .runSucceeds cpu =>
      match state.pnt cpu with
      | some (elem, .holding latchedSeqnum) =>
          let thread := state.threads elem
          if thread.lock = .free ∧ thread.barrier = latchedSeqnum then
            some ((state.setThread elem { thread with court := .latched, lock := .pnt cpu }).setPnt
              cpu (some (elem, .latched)))
          else none
      | _ => none
  | .hasBall cpu =>
      match state.pnt cpu with
      | some (elem, .latched) =>
          let thread := { state.threads elem with pendingLatch := false }.fluxThreadDecref
          some ((state.setThread elem { thread with lock := .free }).setPnt cpu none)
      | _ => none
  | .runFails cpu =>
      match state.pnt cpu with
      | some (elem, .holding _) =>
          let thread := state.threads elem
          if thread.lock = .free then
            some ((state.setThread elem
              (thread.sent (.latchFailure cpu) thread.court 0)).setPnt cpu (some (elem, .failing)))
          else none
      | _ => none
  | .runVanishes cpu =>
      match state.pnt cpu with
      | some (elem, .holding _) =>
          if (state.threads elem).court = .gone then
            some (state.setPnt cpu (some (elem, .failed)))
          else none
      | _ => none
  | .dropRef cpu =>
      match state.pnt cpu with
      | some (elem, .failed) =>
          let thread := state.threads elem
          some ((state.setThread elem { thread with refcnt := thread.refcnt - 1 }).setPnt cpu
            (if thread.refcnt - 1 = 0 then some (elem, .freeing) else none))
      | _ => none
  | .free cpu =>
      match state.pnt cpu with
      | some (elem, .freeing) =>
          some ((state.setThread elem { state.threads elem with known := false }).setPnt cpu none)
      | _ => none

end Latching

/-- Zeroed maps, no threads, and idle CPUs. -/
def latching (size : ArrSize) (Cpu : Type) [DecidableEq Cpu] :
    Machine (Latching size Cpu) (LatchStep size Cpu) where
  initial state :=
    state.lists.heads () = ⟨0#32, 0#32⟩ ∧ (∀ cpu, state.pnt cpu = none) ∧
    ∀ elem, state.threads elem =
      { seqnum := 0, refcnt := 0, sched := .none, onRq := false, onCpu := false,
        pendingLatch := false, enqueued := false, known := false, court := .gone, barrier := 0,
        lock := .free, news := 0 }
  step state step next := state.perform step = some next

end Ghost.Flux
