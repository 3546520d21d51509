import Ghost.Flux.Latching

/-!
# Threads inside and outside

Where a thread stands with its scheduler. Of a thread that has one, either biff's queue
has it, or one PNT, or a handler, or the kernel; the lock of the thread says which of
them may be. A thread without a scheduler is on no queue.
-/

set_option autoImplicit false

namespace Ghost.Flux

open Bpf Lib

/-! ## Whose turn it is -/

def ExactlyOne (first second third : Prop) : Prop :=
  first ∧ ¬second ∧ ¬third ∨ ¬first ∧ second ∧ ¬third ∨ ¬first ∧ ¬second ∧ third

/-- Whose turn the lock says it is. -/
inductive Hand where
  /-- A PNT latched the thread and has to say so. -/
  | latching
  /-- A latch failed, and its message is not looked at. -/
  | failing
  /-- A handler is to enqueue the thread. -/
  | handler
  /-- Nobody has to do anything. -/
  | rest

/-- The thread is not in ghost afterwards. -/
def ThreadMsg.leaves {Cpu : Type} : ThreadMsg Cpu → Bool
  | .departed => true
  | .dead => true
  | _ => false

namespace TaskLock

variable {Cpu : Type}

def hand : TaskLock Cpu → Hand
  | .free => .rest
  | .pnt _ => .latching
  | .handler msg .lookup =>
      match msg with
      | .latchFailure _ => .failing
      | .new _ => .rest
      | msg => if msg.enqueues then .handler else .rest
  | .handler msg .op => if msg.enqueues then .handler else .rest
  | .handler _ _ => .rest

/-- The handler takes the thread out of its scheduler. -/
def departs : TaskLock Cpu → Bool
  | .handler msg stage => msg.leaves && stage ≠ .leave
  | _ => false

/-- Biff may still have a thread that departs. -/
def mayUnlink : TaskLock Cpu → Bool
  | .handler .departed .lookup => true
  | .handler .departed .op => true
  | _ => false

/-- What may have the lock of a thread that left. -/
def quiet : TaskLock Cpu → Bool
  | .free => true
  | .pnt _ => false
  | .handler _ .leave => true
  | .handler msg _ =>
      match msg with
      | .latchFailure _ => true
      | _ => false

/-- What `on_rq` will be when the handler is done. -/
def willBeOnRq (onRq : Bool) : TaskLock Cpu → Bool
  | .handler _ .leave => onRq
  | .handler msg _ =>
      match msg with
      | .wakeup => true
      | .blocked => false
      | .switchto => false
      | .preempt fromSwitchto => fromSwitchto || onRq
      | .yield fromSwitchto => fromSwitchto || onRq
      | _ => onRq
  | _ => onRq

/-- The CPU whose failed latch is handled. -/
def failingOn : TaskLock Cpu → Option Cpu
  | .handler (.latchFailure cpu) _ => some cpu
  | _ => none

def latchedOn : TaskLock Cpu → Option Cpu
  | .pnt cpu => some cpu
  | _ => none

end TaskLock

namespace LatchThread

variable {Cpu : Type} (thread : LatchThread Cpu)

/-- Where a thread is that has not left: exactly one of the queue and a PNT has it while
it is runnable and no handler is about to enqueue it. -/
def Ball (listed held : Bool) : Prop :=
  match thread.lock.hand with
  | .latching =>
      thread.court = .latched ∧ listed = false ∧ held = false ∧ thread.pendingLatch = true
  | .failing =>
      thread.court = .runnable ∧ listed = false ∧ held = false ∧ thread.pendingLatch = true
  | .handler =>
      thread.court = .runnable ∧ listed = false ∧ held = false ∧ thread.pendingLatch = false
  | .rest =>
      thread.pendingLatch = held ∧
      if thread.court = .runnable then listed = !held else listed = false ∧ held = false

/-- A thread that has a scheduler. -/
structure Inside (listed held : Bool) : Prop where
  sched : thread.sched = .biff
  gone : thread.court = .gone ↔ thread.lock.departs = true
  ball : thread.court ≠ .gone → thread.Ball listed held
  onRq : thread.court ≠ .gone → (thread.lock.willBeOnRq thread.onRq = true ↔ thread.court ≠ .blocked)
  apart : (listed && held) = false
  unlinks : thread.court = .gone → listed = true →
    thread.lock.mayUnlink = true ∧ thread.seqnum < thread.barrier
  seqnum : thread.seqnum ≤ thread.barrier

/-- A thread that left, or whose entering is not looked at. -/
structure Outside (listed : Bool) : Prop where
  sched : thread.sched = .none
  listed : listed = false
  lock : thread.court = .gone ∧ thread.lock.quiet = true ∨
    ∃ runnable, thread.lock = .handler (.new runnable) .lookup ∧
      thread.court = if runnable then .runnable else .blocked

end LatchThread

/-! ## Handlers -/

private theorem ThreadMsg.courtAfter_gone {Cpu : Type} {msg : ThreadMsg Cpu} {court court' : Court}
    (moves : msg.courtAfter court = some court') (present : court ≠ .gone) :
    court' = .gone ↔ msg.leaves = true := by
  cases msg <;> simp only [ThreadMsg.leaves] <;> grind [ThreadMsg.courtAfter]

private theorem ThreadMsg.departs_of_enqueues {Cpu : Type} {msg : ThreadMsg Cpu}
    (enqueues : msg.enqueues = true) (stage : Stage) :
    (TaskLock.handler msg stage).departs = false := by
  cases msg <;> first | rfl | cases enqueues

namespace LatchThread

variable {Cpu : Type} {thread : LatchThread Cpu} {msg : ThreadMsg Cpu} {listed held : Bool}
  {court : Court} {seqnum : Nat} {cpu : Cpu}

theorem Outside.gone_of_free (outside : thread.Outside listed) (free : thread.lock = .free) :
    thread.court = .gone := by
  obtain ⟨gone, -⟩ | ⟨runnable, locked, -⟩ := outside.lock
  · exact gone
  · rw [free] at locked
    cases locked

theorem Inside.present (inside : thread.Inside listed held) {lock : TaskLock Cpu}
    (locked : thread.lock = lock) (stays : lock.departs = false) : thread.court ≠ .gone := by
  intro gone
  have departs := inside.gone.mp gone
  rw [locked, stays] at departs
  cases departs

private theorem Inside.of_present (isSched : thread.sched = .biff) (present : thread.court ≠ .gone)
    (stays : thread.lock.departs = false) (ball : thread.Ball listed held)
    (onRq : thread.lock.willBeOnRq thread.onRq = true ↔ thread.court ≠ .blocked)
    (apart : (listed && held) = false) (bounded : thread.seqnum ≤ thread.barrier) :
    thread.Inside listed held := by
  constructor
  case sched => exact isSched
  case gone =>
    rw [stays]
    exact ⟨fun gone => absurd gone present, fun departs => Bool.noConfusion departs⟩
  case ball => exact fun _ => ball
  case onRq => exact fun _ => onRq
  case apart => exact apart
  case unlinks => exact fun gone => absurd gone present
  case seqnum => exact bounded

theorem Inside.rests (inside : thread.Inside listed held) (free : thread.lock = .free) :
    thread.pendingLatch = held ∧
      if thread.court = .runnable then listed = !held else listed = false ∧ held = false := by
  have ball := inside.ball (inside.present free rfl)
  unfold Ball at ball
  rw [free] at ball
  exact ball

private theorem Inside.limbo (inside : thread.Inside listed true) (free : thread.lock = .free) :
    thread.pendingLatch = true ∧ listed = false ∧ thread.court = .runnable := by
  have rests := inside.rests free
  by_cases runnable : thread.court = .runnable
  · rw [if_pos runnable] at rests
    exact ⟨rests.1, rests.2, runnable⟩
  · rw [if_neg runnable] at rests
    cases rests.2.2

theorem Inside.fails (inside : thread.Inside listed held)
    (locked : thread.lock = .handler (.latchFailure cpu) .lookup) :
    thread.court = .runnable ∧ listed = false ∧ held = false ∧ thread.pendingLatch = true := by
  have ball := inside.ball (inside.present locked rfl)
  unfold Ball at ball
  rw [locked] at ball
  exact ball

/-- A handler that enqueues a thread finds it nowhere. -/
theorem Inside.nowhere (inside : thread.Inside listed held) (locked : thread.lock = .handler msg .op)
    (enqueues : msg.enqueues = true) :
    thread.court = .runnable ∧ listed = false ∧ held = false ∧ thread.pendingLatch = false := by
  have ball := inside.ball (inside.present locked (ThreadMsg.departs_of_enqueues enqueues .op))
  unfold Ball at ball
  simp only [locked, TaskLock.hand, enqueues, if_true] at ball
  exact ball

theorem Outside.sent (outside : thread.Outside listed) (free : thread.lock = .free)
    (moves : msg.courtAfter thread.court = some court) :
    (thread.sent msg court seqnum).Outside listed := by
  have gone := outside.gone_of_free free
  rw [gone] at moves
  refine ⟨outside.sched, outside.listed, .inr ?_⟩
  cases msg with
  | new runnable =>
      have entered : court = if runnable then .runnable else .blocked := by
        simpa [ThreadMsg.courtAfter] using moves.symm
      exact ⟨runnable, rfl, entered⟩
  | _ => simp [ThreadMsg.courtAfter] at moves

private theorem Inside.ball_sent (inside : thread.Inside listed held) (free : thread.lock = .free)
    (moves : msg.courtAfter thread.court = some court) (stays : court ≠ .gone) :
    (thread.sent msg court seqnum).Ball listed held := by
  have present := inside.present free rfl
  have rests := inside.rests free
  unfold Ball
  cases msg <;> simp only [LatchThread.sent, TaskLock.hand, ThreadMsg.enqueues] <;>
    grind [ThreadMsg.courtAfter]

private theorem Inside.onRq_sent (inside : thread.Inside listed held) (free : thread.lock = .free)
    (moves : msg.courtAfter thread.court = some court) (stays : court ≠ .gone) :
    (TaskLock.handler msg .lookup).willBeOnRq thread.onRq = true ↔ court ≠ .blocked := by
  have present := inside.present free rfl
  have onRq := inside.onRq present
  rw [free] at onRq
  cases msg <;> simp only [TaskLock.willBeOnRq] at onRq ⊢ <;> grind [ThreadMsg.courtAfter]

theorem Inside.sent (inside : thread.Inside listed held) (free : thread.lock = .free)
    (moves : msg.courtAfter thread.court = some court) :
    (thread.sent msg court seqnum).Inside listed held := by
  have present := inside.present free rfl
  have barrier : (thread.sent msg court seqnum).barrier = thread.barrier + 1 := by
    simp [LatchThread.sent, present]
  have bounded := inside.seqnum
  constructor
  case sched => exact inside.sched
  case gone =>
    refine (ThreadMsg.courtAfter_gone moves present).trans ?_
    simp [LatchThread.sent, TaskLock.departs]
  case ball => exact inside.ball_sent free moves
  case onRq => exact inside.onRq_sent free moves
  case apart => exact inside.apart
  case unlinks =>
    intro gone linked
    refine ⟨?_, by rw [barrier]; exact Nat.lt_succ_of_le bounded⟩
    have leaves := (ThreadMsg.courtAfter_gone moves present).mp gone
    cases msg with
    | departed => rfl
    | dead =>
        have rests := inside.rests free
        grind [ThreadMsg.courtAfter]
    | _ => cases leaves
  case seqnum =>
    rw [barrier]
    exact Nat.le_succ_of_le bounded

theorem Outside.latchFails (outside : thread.Outside listed) (free : thread.lock = .free) :
    (thread.sent (.latchFailure cpu) thread.court 0).Outside listed :=
  ⟨outside.sched, outside.listed, .inl ⟨outside.gone_of_free free, rfl⟩⟩

theorem Inside.latchFails (inside : thread.Inside listed true) (free : thread.lock = .free) :
    (thread.sent (.latchFailure cpu) thread.court 0).Inside listed false := by
  have present := inside.present free rfl
  have onRq := inside.onRq present
  rw [free] at onRq
  obtain ⟨pending, unlisted, runnable⟩ := inside.limbo free
  refine Inside.of_present inside.sched present rfl ?ball ?onRq ?apart ?bounded
  case ball => exact ⟨runnable, unlisted, rfl, pending⟩
  case onRq => exact onRq
  case apart => exact Bool.and_false listed
  case bounded => exact Nat.le_succ_of_le inside.seqnum

theorem Outside.enters (outside : thread.Outside listed) {runnable : Bool}
    (locked : thread.lock = .handler (.new runnable) .lookup) (unknown : thread.known = false) :
    (thread.lookup (.new runnable)).Inside listed false := by
  have isNew : thread.court = if runnable then .runnable else .blocked := by
    obtain ⟨-, quiet⟩ | ⟨runnable', locked', entered⟩ := outside.lock
    · rw [locked] at quiet
      cases quiet
    · rw [locked] at locked'
      cases locked'
      exact entered
  have unlisted := outside.listed
  cases runnable <;> constructor <;>
    simp [lookup, unknown, isNew, unlisted, Ball, TaskLock.hand, ThreadMsg.enqueues,
      TaskLock.willBeOnRq, TaskLock.departs, ThreadMsg.leaves]

theorem Outside.looks (outside : thread.Outside listed)
    (locked : thread.lock = .handler msg .lookup)
    (known : ∀ runnable, msg ≠ .new runnable) : (thread.lookup msg).Outside listed := by
  obtain ⟨gone, quiet⟩ | ⟨runnable, locked', -⟩ := outside.lock
  · rw [locked] at quiet
    cases msg with
    | latchFailure cpu =>
        have isSched := outside.sched
        have unlisted := outside.listed
        unfold lookup
        dsimp only
        split
        · exact ⟨isSched, unlisted, .inl ⟨gone, rfl⟩⟩
        · split
          · exact ⟨isSched, unlisted, .inl ⟨gone, rfl⟩⟩
          · exact ⟨isSched, unlisted, .inl ⟨gone, rfl⟩⟩
    | _ => cases quiet
  · rw [locked] at locked'
    cases locked'
    exact absurd rfl (known runnable)

/-- The lock matters by whose turn it is. -/
theorem Inside.relock (inside : thread.Inside listed held) {lock old : TaskLock Cpu}
    (locked : thread.lock = old) (hand : lock.hand = old.hand)
    (departs : lock.departs = old.departs)
    (unlinks : listed = true → old.mayUnlink = true → lock.mayUnlink = true)
    (onRq : lock.willBeOnRq thread.onRq = old.willBeOnRq thread.onRq) :
    { thread with lock := lock }.Inside listed held := by
  subst locked
  constructor
  case sched => exact inside.sched
  case gone =>
    dsimp only
    rw [departs]
    exact inside.gone
  case ball =>
    intro present
    have ball := inside.ball present
    unfold Ball at ball ⊢
    dsimp only
    rw [hand]
    exact ball
  case onRq =>
    intro present
    dsimp only
    rw [onRq]
    exact inside.onRq present
  case apart => exact inside.apart
  case unlinks =>
    intro gone linked
    obtain ⟨may, behind⟩ := inside.unlinks gone linked
    exact ⟨unlinks linked may, behind⟩
  case seqnum => exact inside.seqnum

private theorem Inside.takesBall (inside : thread.Inside listed held)
    (locked : thread.lock = .handler (.latchFailure cpu) .lookup) :
    { thread with pendingLatch := false, lock := .handler (.latchFailure cpu) .op }.Inside
      listed held := by
  have present := inside.present locked rfl
  have onRq := inside.onRq present
  rw [locked] at onRq
  obtain ⟨runnable, unlisted, unheld, -⟩ := inside.fails locked
  refine Inside.of_present inside.sched present rfl ?ball ?onRq ?apart ?bounded
  case ball => exact ⟨runnable, unlisted, unheld, rfl⟩
  case onRq => exact onRq
  case apart => exact inside.apart
  case bounded => exact inside.seqnum

theorem Inside.looks (inside : thread.Inside listed held)
    (locked : thread.lock = .handler msg .lookup) (known : thread.known = true) :
    (thread.lookup msg).Inside listed held := by
  cases msg with
  | new runnable =>
      simp only [lookup, known, if_true]
      exact inside.relock locked rfl rfl (fun _ => id) rfl
  | latchFailure cpu =>
      obtain ⟨-, -, -, pending⟩ := inside.fails locked
      have takes : thread.lookup (.latchFailure cpu) =
          { thread with pendingLatch := false, lock := .handler (.latchFailure cpu) .op } := by
        simp [lookup, known, pending]
      rw [takes]
      exact inside.takesBall locked
  | _ =>
      simp only [lookup, known, if_true]
      exact inside.relock locked rfl rfl (fun _ => id) rfl

theorem Inside.inserts (inside : thread.Inside listed held) (locked : thread.lock = .handler msg .op)
    (enqueues : msg.enqueues = true) :
    { thread with enqueued := true, lock := .handler msg .store }.Inside true held := by
  have present := inside.present locked (ThreadMsg.departs_of_enqueues enqueues .op)
  have onRq := inside.onRq present
  rw [locked] at onRq
  obtain ⟨runnable, -, unheld, pending⟩ := inside.nowhere locked enqueues
  refine Inside.of_present inside.sched present ?stays ?ball ?onRq ?apart ?bounded
  case stays => exact ThreadMsg.departs_of_enqueues enqueues .store
  case ball =>
    subst unheld
    exact ⟨pending, by simp [runnable]⟩
  case onRq => exact onRq
  case apart => rw [unheld]; rfl
  case bounded => exact inside.seqnum

theorem Inside.passes (inside : thread.Inside listed held) (locked : thread.lock = .handler msg .op)
    (idle : msg.enqueues = false) (unlinked : ¬(msg = .departed ∧ listed = true)) :
    (thread.goOn msg .store).Inside listed held := by
  apply inside.relock locked
  case hand => simp [TaskLock.hand, idle]
  case departs => rfl
  case unlinks =>
    intro linked may
    cases msg with
    | departed => exact absurd ⟨rfl, linked⟩ unlinked
    | _ => cases may
  case onRq => rfl

theorem Inside.unlinked (inside : thread.Inside listed held)
    (locked : thread.lock = .handler .departed .op) :
    { thread with enqueued := false, lock := .handler (.departed : ThreadMsg Cpu) .store }.Inside false held := by
  constructor
  case sched => exact inside.sched
  case gone =>
    have gone := inside.gone
    rw [locked] at gone
    exact gone
  case ball => 
    intro present
    have departs : thread.court = .gone := inside.gone.mpr (by rw [locked]; rfl)
    exact absurd departs present
  case onRq =>
    intro present
    have departs : thread.court = .gone := inside.gone.mpr (by rw [locked]; rfl)
    exact absurd departs present
  case apart => rfl
  case unlinks => exact fun _ linked => Bool.noConfusion linked
  case seqnum => exact inside.seqnum

theorem Inside.stores (inside : thread.Inside listed held) (locked : thread.lock = .handler msg .store) :
    (thread.store msg).Inside listed held := by
  have relocked : (thread.goOn msg .finish).Inside listed held := by
    apply inside.relock locked
    case hand => rfl
    case departs => rfl
    case unlinks =>
      intro _ may
      cases msg <;> cases may
    case onRq => rfl
  constructor
  case sched => exact inside.sched
  case gone => exact relocked.gone
  case ball => exact relocked.ball
  case onRq => exact relocked.onRq
  case apart => exact relocked.apart
  case unlinks =>
    intro gone linked
    obtain ⟨may, -⟩ := relocked.unlinks gone linked
    cases msg <;> cases may
  case seqnum => exact le_refl thread.barrier

theorem Inside.departs (inside : thread.Inside listed held)
    (locked : thread.lock = .handler msg .finish) (leaves : msg.leaves = true) :
    (thread.finish msg).Outside listed := by
  have gone : thread.court = .gone := inside.gone.mpr (by simp [locked, TaskLock.departs, leaves])
  have unlisted : listed = false := by
    cases listed with
    | false => rfl
    | true =>
        obtain ⟨may, -⟩ := inside.unlinks gone rfl
        rw [locked] at may
        cases msg <;> cases may
  cases msg with
  | departed => exact ⟨rfl, unlisted, .inl ⟨gone, rfl⟩⟩
  | dead => exact ⟨rfl, unlisted, .inl ⟨gone, rfl⟩⟩
  | _ => cases leaves

private theorem onRq_finish (thread : LatchThread Cpu) (msg : ThreadMsg Cpu) :
    (thread.finish msg).onRq = (TaskLock.handler msg .finish).willBeOnRq thread.onRq := by
  cases msg with
  | preempt fromSwitchto => cases fromSwitchto <;> rfl
  | yield fromSwitchto => cases fromSwitchto <;> rfl
  | _ => rfl

theorem Inside.finishes (inside : thread.Inside listed held)
    (locked : thread.lock = .handler msg .finish) (stays : msg.leaves = false) :
    (thread.finish msg).Inside listed held := by
  have present := inside.present locked (by simp [TaskLock.departs, stays])
  have ball := inside.ball present
  have onRq := inside.onRq present
  unfold Ball at ball
  rw [locked] at ball onRq
  rw [← onRq_finish] at onRq
  cases msg with
  | departed => cases stays
  | dead => cases stays
  | _ => exact .of_present inside.sched present rfl ball onRq inside.apart inside.seqnum

theorem Inside.released (inside : thread.Inside listed held)
    (locked : thread.lock = .handler msg .leave) :
    { thread with lock := (.free : TaskLock Cpu) }.Inside listed held := by
  apply inside.relock locked
  case hand => rfl
  case departs => simp [TaskLock.departs]
  case unlinks =>
    intro _ may
    cases msg <;> cases may
  case onRq => rfl

/-- Of a thread that left only a failed latch is handled. -/
theorem Outside.isFailure (outside : thread.Outside listed) {stage : Stage}
    (locked : thread.lock = .handler msg stage) (looked : stage ≠ .lookup) (busy : stage ≠ .leave) :
    thread.court = .gone ∧ ∃ cpu, msg = .latchFailure cpu := by
  obtain ⟨gone, quiet⟩ | ⟨runnable, locked', -⟩ := outside.lock
  · rw [locked] at quiet
    refine ⟨gone, ?_⟩
    cases msg with
    | latchFailure cpu => exact ⟨cpu, rfl⟩
    | _ => cases stage <;> first | exact absurd rfl busy | cases quiet
  · rw [locked] at locked'
    cases locked'
    exact absurd rfl looked

theorem Outside.passes (outside : thread.Outside listed) (locked : thread.lock = .handler msg .op) :
    (thread.goOn msg .store).Outside listed := by
  obtain ⟨gone, cpu, rfl⟩ := outside.isFailure locked Stage.noConfusion Stage.noConfusion
  exact ⟨outside.sched, outside.listed, .inl ⟨gone, rfl⟩⟩

theorem Outside.stores (outside : thread.Outside listed)
    (locked : thread.lock = .handler msg .store) : (thread.store msg).Outside listed := by
  obtain ⟨gone, cpu, rfl⟩ := outside.isFailure locked Stage.noConfusion Stage.noConfusion
  exact ⟨outside.sched, outside.listed, .inl ⟨gone, rfl⟩⟩

theorem Outside.finishes (outside : thread.Outside listed)
    (locked : thread.lock = .handler msg .finish) :
    (thread.finish msg).Outside listed ∧ ∃ cpu, msg = .latchFailure cpu := by
  obtain ⟨gone, cpu, rfl⟩ := outside.isFailure locked Stage.noConfusion Stage.noConfusion
  exact ⟨⟨outside.sched, outside.listed, .inl ⟨gone, rfl⟩⟩, cpu, rfl⟩

theorem Outside.released (outside : thread.Outside listed)
    (locked : thread.lock = .handler msg .leave) :
    { thread with lock := (.free : TaskLock Cpu) }.Outside listed := by
  obtain ⟨gone, -⟩ | ⟨runnable, locked', -⟩ := outside.lock
  · exact ⟨outside.sched, outside.listed, .inl ⟨gone, rfl⟩⟩
  · rw [locked] at locked'
    cases locked'

/-! ## PNTs -/

private theorem Inside.listed_rests (inside : thread.Inside true held)
    (present : thread.court ≠ .gone) :
    thread.lock.hand = .rest ∧ thread.court = .runnable := by
  have ball := inside.ball present
  unfold Ball at ball
  cases turn : thread.lock.hand with
  | rest =>
      refine ⟨rfl, ?_⟩
      by_contra waits
      simp [turn, waits] at ball
  | _ => simp [turn] at ball

/-- A pick does not have the task lock, so that a handler may be anywhere, also one of
`departed` that has not unlinked the thread yet. -/
theorem Inside.picked (inside : thread.Inside true held) :
    thread.fluxPrepareToRun.Inside false true := by
  constructor
  case sched => exact inside.sched
  case gone => exact inside.gone
  case ball =>
    intro present
    obtain ⟨turn, runnable⟩ := inside.listed_rests present
    simp [Ball, fluxPrepareToRun, turn, runnable]
  case onRq => exact inside.onRq
  case apart => rfl
  case unlinks => exact fun _ linked => Bool.noConfusion linked
  case seqnum => exact inside.seqnum

theorem Inside.latches (inside : thread.Inside listed true) (free : thread.lock = .free) :
    { thread with court := .latched, lock := .pnt cpu }.Inside listed false := by
  have onRq := inside.onRq (inside.present free rfl)
  rw [free] at onRq
  obtain ⟨pending, unlisted, runnable⟩ := inside.limbo free
  refine Inside.of_present inside.sched Court.noConfusion rfl ?ball ?onRq ?apart inside.seqnum
  case ball => exact ⟨rfl, unlisted, rfl, pending⟩
  case onRq =>
    rw [runnable] at onRq
    exact ⟨fun _ => Court.noConfusion, fun _ => onRq.mpr Court.noConfusion⟩
  case apart => exact Bool.and_false listed

theorem Inside.hasBall (inside : thread.Inside listed held) (locked : thread.lock = .pnt cpu) :
    { thread with pendingLatch := false, lock := (.free : TaskLock Cpu) }.Inside listed held := by
  have present := inside.present locked rfl
  have ball := inside.ball present
  have onRq := inside.onRq present
  unfold Ball at ball
  rw [locked] at ball onRq
  obtain ⟨latched, unlisted, unheld, -⟩ := ball
  refine Inside.of_present inside.sched present rfl ?ball onRq inside.apart inside.seqnum
  subst unlisted unheld
  exact ⟨rfl, by simp [latched]⟩

theorem Inside.vanishes (inside : thread.Inside listed held) (gone : thread.court = .gone) :
    thread.Inside listed false := by
  obtain ⟨isSched, leaves, -, -, -, unlinks, bounded⟩ := inside
  exact ⟨isSched, leaves, fun present => absurd gone present, fun present => absurd gone present,
    Bool.and_false listed, unlinks, bounded⟩

/-! ## One place -/

theorem inside_of_present
    (standing : thread.Outside listed ∨ thread.Inside listed held)
    (present : thread.court ≠ .gone)
    (looked : ∀ runnable, thread.lock ≠ .handler (.new runnable) .lookup) :
    thread.Inside listed held := by
  cases standing with
  | inl outside =>
      obtain ⟨gone, -⟩ | ⟨runnable, locked, -⟩ := outside.lock
      · exact absurd gone present
      · exact absurd locked (looked runnable)
  | inr inside => exact inside

/-- Between handlers a thread on the run queue is in one place. -/
theorem Inside.exactlyOne
    (inside : thread.Inside listed held) (unlocked : ∀ msg stage, thread.lock ≠ .handler msg stage)
    (onRq : thread.onRq = true) : ExactlyOne (listed = true) (held = true)
      (thread.court = .latched ∨ thread.court = .onCpu) := by
  cases locked : thread.lock with
  | handler msg stage => exact absurd locked (unlocked msg stage)
  | pnt cpu =>
      have ball := inside.ball (inside.present locked rfl)
      unfold Ball at ball
      rw [locked] at ball
      obtain ⟨latched, unlisted, unheld, -⟩ := ball
      simp [ExactlyOne, latched, unlisted, unheld]
  | free =>
      have present := inside.present locked rfl
      have rests := (inside.rests locked).2
      have awake := inside.onRq present
      rw [locked] at awake
      have awake := awake.mp onRq
      cases isCourt : thread.court with
      | gone => exact absurd isCourt present
      | blocked => exact absurd isCourt awake
      | runnable =>
          rw [if_pos isCourt] at rests
          cases held <;> simp [ExactlyOne, rests]
      | latched => simp_all [ExactlyOne]
      | onCpu => simp_all [ExactlyOne]

end LatchThread

end Ghost.Flux
