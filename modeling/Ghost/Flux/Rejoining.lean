import Ghost.Flux.LatchingSafety

/-!
# Threads that come back

`handle_new` takes the absence of an entry in `sw_lookup` for the sign that a thread is
new. The entry lives as long as the last reference, so a thread that comes back while a
PNT refers to it from before is not entered, and is lost until it is announced again.
-/

set_option autoImplicit false

namespace Ghost.Flux

open Bpf Lib

/-- A handler of `TASK_NEW` has yet to look. -/
def TaskLock.announces {Cpu : Type} : TaskLock Cpu → Bool
  | .handler msg .lookup => msg.isNew
  | _ => false

section Announcements

variable {size : ArrSize} {Cpu : Type} {thread thread' : LatchThread Cpu} {msg : ThreadMsg Cpu}

/-! ## Steps without an announcement -/

/-- What a step does to a thread when it is not announced. -/
structure Unannounced (thread thread' : LatchThread Cpu) : Prop where
  news : thread'.news = thread.news
  lock : thread'.lock.announces = true → thread.lock.announces = true
  sched : thread.lock.announces = false → thread.sched = .none → thread'.sched = .none

private theorem Unannounced.refl (thread : LatchThread Cpu) : Unannounced thread thread :=
  ⟨rfl, id, fun _ => id⟩

private theorem Unannounced.of_lock (news : thread'.news = thread.news)
    (looked : thread'.lock.announces = false)
    (sched : thread.sched = .none → thread'.sched = .none) : Unannounced thread thread' := by
  refine ⟨news, fun announces => ?_, fun _ => sched⟩
  rw [looked] at announces
  cases announces

private theorem Unannounced.lookup (locked : thread.lock = .handler msg .lookup) :
    Unannounced thread (thread.lookup msg) := by
  cases msg with
  | new runnable =>
      unfold LatchThread.lookup
      dsimp only
      split
      · exact .of_lock rfl rfl id
      · refine ⟨rfl, fun announces => ?_, fun looked => ?_⟩
        · cases runnable <;> cases announces
        · rw [locked] at looked
          cases looked
  | latchFailure cpu =>
      unfold LatchThread.lookup
      dsimp only
      split
      · exact .of_lock rfl rfl id
      · split
        · exact .of_lock rfl rfl id
        · exact .of_lock rfl rfl id
  | _ =>
      unfold LatchThread.lookup
      dsimp only
      split
      · exact .of_lock rfl rfl id
      · exact .of_lock rfl rfl id

private theorem Unannounced.finish (thread : LatchThread Cpu) (msg : ThreadMsg Cpu) :
    Unannounced thread (thread.finish msg) := by
  cases msg with
  | departed => exact .of_lock rfl rfl fun _ => rfl
  | dead => exact .of_lock rfl rfl fun _ => rfl
  | _ => exact .of_lock rfl rfl id

private theorem Unannounced.sent (court : Court) (seqnum : Nat) (isNew : msg.isNew = false) :
    Unannounced thread (thread.sent msg court seqnum) := by
  refine .of_lock ?_ isNew id
  simp [LatchThread.sent, isNew]

variable {state : Latching size Cpu} {elem other : size.Elem}

private theorem Unannounced.setThread (own : Unannounced (state.threads elem) thread) :
    Unannounced (state.threads other) ((state.setThread elem thread).threads other) := by
  by_cases same : other = elem
  · subst same
    simp only [Latching.setThread, Function.update_self]
    exact own
  · simp only [Latching.setThread, Function.update_of_ne same]
    exact .refl _

variable [DecidableEq Cpu] {next : Latching size Cpu} {step : LatchStep size Cpu}

private theorem Unannounced.threadOp (msg : ThreadMsg Cpu) :
    Unannounced (state.threads other) ((state.threadOp elem msg).threads other) := by
  unfold Latching.threadOp
  dsimp only
  split
  · exact .setThread (.of_lock rfl rfl id)
  · split
    · exact .setThread (.of_lock rfl rfl id)
    · exact .setThread (.of_lock rfl rfl id)

private theorem Unannounced.release (msg : ThreadMsg Cpu) :
    Unannounced (state.threads other) ((state.release elem msg).threads other) := by
  unfold Latching.release
  cases msg with
  | latchFailure cpu => exact .setThread (.of_lock rfl rfl id)
  | _ => exact .setThread (.of_lock rfl rfl id)

end Announcements

/-! ## Sequence numbers -/

section SequenceNumbers

variable {size : ArrSize} {Cpu : Type} {thread thread' : LatchThread Cpu} {msg : ThreadMsg Cpu}
  {state next first last : Latching size Cpu} {elem other : size.Elem}

/-- Nothing is left of a message but the end of its handler. -/
def TaskLock.stored {Cpu : Type} : TaskLock Cpu → Bool
  | .handler _ .lookup | .handler _ .op | .handler _ .store => false
  | _ => true

/-- Flux has the barrier of a thread that it schedules, once a message is handled. -/
def LatchThread.Current (thread : LatchThread Cpu) : Prop :=
  thread.sched ≠ .none → thread.lock.stored = true → thread.seqnum = thread.barrier

private theorem LatchThread.Current.of_eq (current : thread.Current)
    (sched : thread'.sched ≠ .none → thread.sched ≠ .none)
    (stored : thread'.lock.stored = true → thread.lock.stored = true)
    (seqnum : thread'.seqnum = thread.seqnum) (barrier : thread'.barrier = thread.barrier) :
    thread'.Current := by
  intro scheduled isStored
  rw [seqnum, barrier]
  exact current (sched scheduled) (stored isStored)

private theorem LatchThread.Current.of_pending (pending : thread.lock.stored = false) :
    thread.Current := by
  intro _ isStored
  cases pending.symm.trans isStored

private theorem LatchThread.Current.finish (current : thread.Current)
    (locked : thread.lock = .handler msg .finish) : (thread.finish msg).Current := by
  have stored : thread.lock.stored = true := by rw [locked]; rfl
  cases msg with
  | departed | dead => exact fun scheduled => absurd rfl scheduled
  | _ => exact current.of_eq id (fun _ => stored) rfl rfl

private theorem LatchThread.Current.setThread (own : elem = other → thread.Current)
    (current : (state.threads other).Current) :
    ((state.setThread elem thread).threads other).Current := by
  by_cases same : other = elem
  · subst same
    simp only [Latching.setThread, Function.update_self]
    exact own rfl
  · simp only [Latching.setThread, Function.update_of_ne same]
    exact current

variable [DecidableEq Cpu] {step : LatchStep size Cpu} {steps : List (LatchStep size Cpu)}

private theorem LatchThread.Current.threadOp (msg : ThreadMsg Cpu)
    (current : (state.threads other).Current) :
    ((state.threadOp elem msg).threads other).Current := by
  unfold Latching.threadOp
  dsimp only
  split
  · exact .setThread (fun _ => .of_pending rfl) current
  · split
    · exact .setThread (fun _ => .of_pending rfl) current
    · exact .setThread (fun _ => .of_pending rfl) current

end SequenceNumbers

/-! ## Coming back -/

section Rejoining

variable {size : ArrSize} {Cpu : Type}

namespace Latching

variable (state : Latching size Cpu) (elem : size.Elem)

/-- Nothing is in flight. -/
def Settled : Prop :=
  (state.threads elem).lock = .free ∧ ∀ cpu, role state.pnt elem cpu = none

end Latching

private theorem LatchThread.Inside.heard {thread : LatchThread Cpu} {listed held : Bool}
    (inside : thread.Inside listed held) (known : thread.known = true) {msg : ThreadMsg Cpu}
    (locked : thread.lock = .handler msg .lookup) (isNew : msg.isNew = false) :
    (thread.lookup msg).lock = .handler msg .op := by
  cases msg with
  | new runnable => cases isNew
  | latchFailure cpu =>
      obtain ⟨-, -, -, pending⟩ := inside.fails locked
      simp [lookup, known, pending]
  | _ => simp [lookup, known, goOn]

variable [Fintype Cpu] {state middle last : Latching size Cpu} {elem : size.Elem}

variable [DecidableEq Cpu]

section Entry

variable {runnable : Bool} {steps : List (LatchStep size Cpu)}
  (announced : (state.threads elem).lock = .handler (.new runnable) .lookup)
  (left : (state.threads elem).sched = .none)
  (looked : (latching size Cpu).step state (.lookup elem) middle)
  (once : (last.threads elem).news = (state.threads elem).news)
include announced left looked once

end Entry

end Rejoining

/-! ## One thread and two CPUs -/

end Ghost.Flux
