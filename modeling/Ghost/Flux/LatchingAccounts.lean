import Ghost.Flux.LatchingStanding
import Ghost.Lib.Tally

/-!
# Accounts of a thread

What a thread, biff's queue and the PNTs that refer to the thread agree on, and that
every step of a handler and of a PNT keeps it, as long as a thread enters only when
nobody refers to it any more.
-/

set_option autoImplicit false

namespace Ghost.Flux

open Bpf Lib

namespace Place

def isHolding : Place → Bool
  | .holding _ => true
  | _ => false

/-- The PNT has a reference to the thread. -/
def refers : Place → Bool
  | .freeing => false
  | _ => true

end Place

/-- A PNT has yet to run the thread that it took. -/
def holds {Cpu : Type} [Fintype Cpu] (place : Cpu → Option Place) : Bool :=
  decide (∃ cpu, (place cpu).any Place.isHolding = true)

/-! ## Agreement -/

section Agreement

variable {Cpu : Type} [Fintype Cpu]

/-- What the reference count counts: the scheduler and the PNTs. The last PNT deletes the
entry alone. -/
structure References (thread : LatchThread Cpu) (place : Cpu → Option Place) : Prop where
  refcnt : thread.refcnt =
    unit (thread.sched ≠ .none) + tally fun cpu => (place cpu).any Place.refers = true
  known : thread.known = true ↔ thread.sched ≠ .none ∨ ∃ cpu, place cpu ≠ none
  alone : ∀ cpu, place cpu = some .freeing →
    thread.sched = .none ∧ ∀ other, other ≠ cpu → place other = none

/-- What the lock says of the PNTs. -/
structure Places (lock : TaskLock Cpu) (place : Cpu → Option Place) : Prop where
  failing : ∀ cpu, place cpu = some .failing ↔ lock.failingOn = some cpu
  latched : ∀ cpu, place cpu = some .latched ↔ lock.latchedOn = some cpu
  unique : ∀ cpu other, (place cpu).any Place.isHolding = true →
    (place other).any Place.isHolding = true → cpu = other

/-- What holds of a thread, of the queue and of the PNTs. -/
structure Accounted (thread : LatchThread Cpu) (listed : Bool) (place : Cpu → Option Place) :
    Prop where
  flag : thread.enqueued = listed
  references : References thread place
  places : Places thread.lock place
  /-- A latch of a thread that has left is stale. -/
  saved : ∀ cpu latchedSeqnum, place cpu = some (.holding latchedSeqnum) →
    (thread.sched ≠ .none → latchedSeqnum ≤ thread.barrier) ∧
      (thread.court = .gone → latchedSeqnum < thread.barrier)
  standing : thread.Outside listed ∨ thread.Inside listed (holds place)

end Agreement

/-! ## References -/

section Places

variable {Cpu : Type} [Fintype Cpu] [DecidableEq Cpu] {thread thread' : LatchThread Cpu}
  {lock lock' : TaskLock Cpu} {place : Cpu → Option Place} {cpu : Cpu} {new : Option Place}

omit [DecidableEq Cpu] in
private theorem holds_of {latchedSeqnum : Nat} (isAt : place cpu = some (.holding latchedSeqnum)) :
    holds place = true := by
  simp only [holds, decide_eq_true_eq]
  exact ⟨cpu, by rw [isAt]; rfl⟩

private theorem holds_update (before : (place cpu).any Place.isHolding = false)
    (after : new.any Place.isHolding = false) :
    holds (Function.update place cpu new) = holds place := by
  have same : ∀ other, (Function.update place cpu new other).any Place.isHolding =
      (place other).any Place.isHolding := by
    intro other
    by_cases isCpu : other = cpu
    · subst isCpu
      rw [Function.update_self, before, after]
    · rw [Function.update_of_ne isCpu]
  simp only [holds, same]

private theorem Places.holds_update (places : Places lock place) {latchedSeqnum : Nat}
    (isAt : place cpu = some (.holding latchedSeqnum))
    (after : new.any Place.isHolding = false) : holds (Function.update place cpu new) = false := by
  simp only [holds, decide_eq_false_iff_not, not_exists]
  intro other
  by_cases isCpu : other = cpu
  · subst isCpu
    simp [after]
  · rw [Function.update_of_ne isCpu]
    intro isHolding
    exact isCpu (places.unique other cpu isHolding (by rw [isAt]; rfl))

private theorem Places.update (places : Places lock place)
    (failing : new = some .failing ↔ lock'.failingOn = some cpu)
    (latched : new = some .latched ↔ lock'.latchedOn = some cpu)
    (others : ∀ other, other ≠ cpu → (lock'.failingOn = some other ↔ lock.failingOn = some other) ∧
      (lock'.latchedOn = some other ↔ lock.latchedOn = some other))
    (alone : new.any Place.isHolding = true → holds place = false) :
    Places lock' (Function.update place cpu new) := by
  constructor
  case failing =>
    intro other
    by_cases isCpu : other = cpu
    · subst isCpu
      rw [Function.update_self]
      exact failing
    · rw [Function.update_of_ne isCpu, places.failing]
      exact (others other isCpu).1.symm
  case latched =>
    intro other
    by_cases isCpu : other = cpu
    · subst isCpu
      rw [Function.update_self]
      exact latched
    · rw [Function.update_of_ne isCpu, places.latched]
      exact (others other isCpu).2.symm
  case unique =>
    have unheld : new.any Place.isHolding = true → ∀ other,
        ¬(place other).any Place.isHolding = true := by
      intro isHolding other holdsOther
      exact of_decide_eq_false (alone isHolding) ⟨other, holdsOther⟩
    intro one other holdsOne holdsOther
    by_cases isOne : one = cpu
    · subst isOne
      rw [Function.update_self] at holdsOne
      by_contra different
      rw [Function.update_of_ne (Ne.symm different)] at holdsOther
      exact unheld holdsOne other holdsOther
    · rw [Function.update_of_ne isOne] at holdsOne
      by_cases isOther : other = cpu
      · subst isOther
        rw [Function.update_self] at holdsOther
        exact absurd holdsOne (unheld holdsOther one)
      · rw [Function.update_of_ne isOther] at holdsOther
        exact places.unique one other holdsOne holdsOther

private theorem tally_refers_update :
    (tally fun other => (Function.update place cpu new other).any Place.refers = true : Int) =
      (tally fun other => (place other).any Place.refers = true) -
        unit ((place cpu).any Place.refers = true) + unit (new.any Place.refers = true) := by
  have others : ∀ other, other ≠ cpu →
      ((Function.update place cpu new other).any Place.refers = true ↔
        (place other).any Place.refers = true) := by
    intro other different
    rw [Function.update_of_ne different]
  have changed := tally_change others
  rw [Function.update_self] at changed
  exact changed

private theorem References.update (references : References thread place)
    (sameSched : thread'.sched = thread.sched)
    (moved : thread'.refcnt = thread.refcnt - unit ((place cpu).any Place.refers = true) +
      unit (new.any Place.refers = true))
    (known : thread'.known = true ↔
      thread.sched ≠ .none ∨ new ≠ none ∨ ∃ other, other ≠ cpu ∧ place other ≠ none)
    (lonely : ∀ other, other ≠ cpu → place other ≠ some .freeing)
    (alone : new = some .freeing → thread.sched = .none ∧ ∀ other, other ≠ cpu → place other = none) :
    References thread' (Function.update place cpu new) := by
  constructor
  case refcnt =>
    rw [moved, sameSched, tally_refers_update, references.refcnt]
    ring
  case known =>
    have somewhere : (∃ other, Function.update place cpu new other ≠ none) ↔
        new ≠ none ∨ ∃ other, other ≠ cpu ∧ place other ≠ none := by
      constructor
      · rintro ⟨other, isAt⟩
        by_cases isCpu : other = cpu
        · subst isCpu
          rw [Function.update_self] at isAt
          exact .inl isAt
        · rw [Function.update_of_ne isCpu] at isAt
          exact .inr ⟨other, isCpu, isAt⟩
      · rintro (isNew | ⟨other, different, isAt⟩)
        · exact ⟨cpu, by rwa [Function.update_self]⟩
        · exact ⟨other, by rwa [Function.update_of_ne different]⟩
    rw [known, sameSched, somewhere]
  case alone =>
    intro freer frees
    by_cases isCpu : freer = cpu
    · subst isCpu
      rw [Function.update_self] at frees
      obtain ⟨unscheduled, nobody⟩ := alone frees
      refine ⟨by rw [sameSched, unscheduled], ?_⟩
      intro other different
      rw [Function.update_of_ne different]
      exact nobody other different
    · rw [Function.update_of_ne isCpu] at frees
      exact absurd frees (lonely freer isCpu)

omit [DecidableEq Cpu] in
private theorem References.lonely (references : References thread place) {at' : Place}
    (isAt : place cpu = some at') (other : Cpu) (different : other ≠ cpu) :
    place other ≠ some .freeing := by
  intro frees
  have nobody := (references.alone other frees).2 cpu different.symm
  rw [isAt] at nobody
  cases nobody

omit [DecidableEq Cpu] in
private theorem References.known_of_isAt (references : References thread place) {at' : Place}
    (isAt : place cpu = some at') : thread.known = true :=
  references.known.mpr (.inr ⟨cpu, by rw [isAt]; exact Option.some_ne_none at'⟩)

private theorem References.move (references : References thread place) {at' next : Place}
    (isAt : place cpu = some at') (refers : at'.refers = true) (refers' : next.refers = true)
    (sameSched : thread'.sched = thread.sched) (sameRefcnt : thread'.refcnt = thread.refcnt)
    (sameKnown : thread'.known = thread.known) :
    References thread' (Function.update place cpu (some next)) := by
  apply references.update sameSched
  case moved => simp [sameRefcnt, isAt, refers, refers']
  case known => simp [sameKnown, references.known_of_isAt isAt]
  case lonely => exact references.lonely isAt
  case alone =>
    intro frees
    cases frees
    cases refers'

private theorem References.recount (references : References thread place)
    (isSched : thread.sched ≠ .none)
    (sameSched : thread'.sched = thread.sched) (sameKnown : thread'.known = thread.known)
    (moved : thread'.refcnt = thread.refcnt - unit ((place cpu).any Place.refers = true) +
      unit (new.any Place.refers = true)) (stays : new ≠ some .freeing) :
    References thread' (Function.update place cpu new) := by
  apply references.update sameSched moved
  case known => simp [sameKnown, references.known, isSched]
  case lonely => exact fun other _ frees => isSched (references.alone other frees).1
  case alone => exact fun frees => absurd frees stays

/-- Who has the last reference. Both terms of the count are nonnegative, so that it is
zero only if both are. -/
theorem References.isLast_iff (references : References thread place) {at' : Place}
    (isAt : place cpu = some at') (refers : at'.refers = true) :
    thread.refcnt - 1 = 0 ↔ thread.sched = .none ∧ ∀ other, other ≠ cpu → place other = none := by
  have count : thread.refcnt - 1 = unit (thread.sched ≠ .none) +
      tally fun other => (Function.update place cpu none other).any Place.refers = true := by
    rw [tally_refers_update, references.refcnt, isAt]
    simp [refers]
    ring
  have others : (∀ other, ¬(Function.update place cpu none other).any Place.refers = true) ↔
      ∀ other, other ≠ cpu → place other = none := by
    constructor
    · intro nobody other different
      have unreferred := nobody other
      rw [Function.update_of_ne different] at unreferred
      cases isAt' : place other with
      | none => rfl
      | some there =>
          rw [isAt'] at unreferred
          cases there with
          | freeing => exact absurd isAt' (references.lonely isAt other different)
          | _ => exact absurd rfl unreferred
    · intro nobody other
      by_cases isCpu : other = cpu
      · subst isCpu
        simp
      · rw [Function.update_of_ne isCpu, nobody other isCpu]
        exact Bool.noConfusion
  have nobody := tally_eq_zero.trans others
  have unscheduled : unit (thread.sched ≠ .none) = 0 ↔ thread.sched = .none :=
    unit_eq_zero.trans not_not
  have bounded := unit_nonneg (thread.sched ≠ .none)
  rw [count, ← nobody, ← and_congr_left' unscheduled]
  omega

omit [DecidableEq Cpu] in
theorem References.unreferred (references : References thread place) (zero : thread.refcnt = 0) :
    thread.sched = .none ∧ ∀ cpu at', place cpu = some at' → at' = .freeing := by
  have count := references.refcnt
  have bounded := unit_nonneg (thread.sched ≠ .none)
  have unscheduled : unit (thread.sched ≠ .none) = 0 := by omega
  have nobody : tally (fun cpu => (place cpu).any Place.refers = true) = 0 := by omega
  refine ⟨not_not.mp (unit_eq_zero.mp unscheduled), ?_⟩
  intro cpu at' isAt
  have unreferred := tally_eq_zero.mp nobody cpu
  rw [isAt] at unreferred
  cases at' with
  | freeing => rfl
  | _ => exact absurd rfl unreferred

/-- A PNT drops its reference; if it was the last one, its entry is to be deleted. -/
theorem References.dropRef (references : References thread place) (isAt : place cpu = some .failed)
    (sameSched : thread'.sched = thread.sched) (sameKnown : thread'.known = thread.known)
    (dropped : thread'.refcnt = thread.refcnt - 1) :
    References thread'
      (Function.update place cpu (if thread.refcnt - 1 = 0 then some .freeing else none)) := by
  have isLast := references.isLast_iff isAt rfl
  have known := references.known_of_isAt isAt
  apply references.update sameSched
  case moved =>
    rw [dropped, isAt]
    split <;> simp [Place.refers]
  case known =>
    rw [sameKnown, known]
    by_cases last : thread.refcnt - 1 = 0
    · simp [last]
    · have remains := mt isLast.mpr last
      rw [if_neg last]
      push Not at remains
      by_cases isSched : thread.sched = .none
      · simp [remains isSched]
      · simp [isSched]
  case lonely => exact references.lonely isAt
  case alone =>
    intro frees
    by_cases last : thread.refcnt - 1 = 0
    · exact isLast.mp last
    · rw [if_neg last] at frees
      cases frees

private theorem References.free (references : References thread place)
    (isAt : place cpu = some .freeing)
    (sameSched : thread'.sched = thread.sched) (sameRefcnt : thread'.refcnt = thread.refcnt)
    (deleted : thread'.known = false) : References thread' (Function.update place cpu none) := by
  obtain ⟨unscheduled, nobody⟩ := references.alone cpu isAt
  apply references.update sameSched
  case moved => simp [sameRefcnt, isAt, Place.refers]
  case known =>
    simp only [deleted, unscheduled]
    simpa using nobody
  case lonely => exact references.lonely isAt
  case alone =>
    intro frees
    cases frees

omit [DecidableEq Cpu] in
private theorem References.depart (references : References thread place)
    (isSched : thread.sched ≠ .none)
    (unscheduled : thread'.sched = .none)
    (dropped : thread'.refcnt = thread.refcnt - 1)
    (deleted : thread'.known = if thread.refcnt - 1 = 0 then false else thread.known) :
    References thread' place := by
  have unfreed : ∀ cpu, place cpu ≠ some .freeing :=
    fun cpu frees => isSched (references.alone cpu frees).1
  have count : thread.refcnt - 1 =
      tally fun cpu => (place cpu).any Place.refers = true := by
    rw [references.refcnt, unit_true isSched]
    ring
  have refers : ∀ cpu, (place cpu).any Place.refers = true ↔ place cpu ≠ none := by
    intro cpu
    cases isAt : place cpu with
    | none => simp
    | some at' =>
        cases at' with
        | freeing => exact absurd isAt (unfreed cpu)
        | _ => simp [Place.refers]
  have isLast : thread.refcnt - 1 = 0 ↔ ∀ cpu, place cpu = none := by
    rw [count, Int.natCast_eq_zero, tally_eq_zero]
    simp only [refers, not_not]
  constructor
  case refcnt => simp [dropped, unscheduled, count]
  case known =>
    rw [deleted]
    by_cases last : thread.refcnt - 1 = 0
    · simp [last, unscheduled, isLast.mp last]
    · have remains := mt isLast.mpr last
      push Not at remains
      rw [if_neg last]
      simp [unscheduled, references.known, isSched, remains]
  case alone => exact fun cpu frees => absurd frees (unfreed cpu)

omit [DecidableEq Cpu] in
private theorem References.enter (nobody : ∀ cpu, place cpu = none) (isSched : thread.sched ≠ .none)
    (known : thread.known = true) (counted : thread.refcnt = 1) : References thread place := by
  constructor
  case refcnt =>
    have none' : tally (fun cpu => (place cpu).any Place.refers = true) = 0 := by
      simp [tally_eq_zero, nobody]
    rw [counted, unit_true isSched, none']
    rfl
  case known => simp [known, isSched]
  case alone =>
    intro cpu frees
    rw [nobody cpu] at frees
    cases frees

end Places

/-! ## Steps of one thread -/

section Steps

variable {Cpu : Type} {thread thread' : LatchThread Cpu} {msg : ThreadMsg Cpu}
  {listed listed' : Bool} {place : Cpu → Option Place} {cpu : Cpu}

private theorem TaskLock.failingOn_handler (stage stage' : Stage) :
    (TaskLock.handler msg stage).failingOn = (TaskLock.handler msg stage').failingOn := by
  cases msg <;> rfl

namespace LatchThread

/-- What a handler leaves alone while the thread stays in its scheduler. -/
structure Handled (thread thread' : LatchThread Cpu) (msg : ThreadMsg Cpu) : Prop where
  refcnt : thread'.refcnt = thread.refcnt
  sched : thread'.sched = thread.sched
  known : thread'.known = thread.known
  court : thread'.court = thread.court
  barrier : thread'.barrier = thread.barrier
  lock : ∃ stage, thread'.lock = .handler msg stage

private theorem lookup_handled (knows : msg.isNew = true → thread.known = true) :
    Handled thread (thread.lookup msg) msg ∧ (thread.lookup msg).enqueued = thread.enqueued := by
  cases msg with
  | new runnable =>
      simp only [lookup, knows rfl, if_true]
      exact ⟨⟨rfl, rfl, rfl, rfl, rfl, .leave, rfl⟩, rfl⟩
  | latchFailure cpu =>
      unfold lookup
      dsimp only
      split
      · exact ⟨⟨rfl, rfl, rfl, rfl, rfl, .leave, rfl⟩, rfl⟩
      · split
        · exact ⟨⟨rfl, rfl, rfl, rfl, rfl, .leave, rfl⟩, rfl⟩
        · exact ⟨⟨rfl, rfl, rfl, rfl, rfl, .op, rfl⟩, rfl⟩
  | _ =>
      unfold lookup
      dsimp only
      split
      · exact ⟨⟨rfl, rfl, rfl, rfl, rfl, .op, rfl⟩, rfl⟩
      · exact ⟨⟨rfl, rfl, rfl, rfl, rfl, .leave, rfl⟩, rfl⟩

private theorem finish_handled (stays : msg.leaves = false) :
    Handled thread (thread.finish msg) msg ∧ (thread.finish msg).enqueued = thread.enqueued := by
  cases msg with
  | departed => cases stays
  | dead => cases stays
  | _ => exact ⟨⟨rfl, rfl, rfl, rfl, rfl, .leave, rfl⟩, rfl⟩

end LatchThread

private theorem LatchThread.standing_recount {held : Bool}
    (standing : thread.Outside listed ∨ thread.Inside listed held) (refcnt : Int) (known : Bool) :
    { thread with refcnt := refcnt, known := known }.Outside listed ∨
      { thread with refcnt := refcnt, known := known }.Inside listed held := by
  cases standing with
  | inl outside => exact .inl ⟨outside.sched, outside.listed, outside.lock⟩
  | inr inside =>
      obtain ⟨isSched, gone, ball, onRq, apart, unlinks, bounded⟩ := inside
      exact .inr ⟨isSched, gone, ball, onRq, apart, unlinks, bounded⟩

theorem LatchThread.Inside.scheduled {held : Bool} (inside : thread.Inside listed held) :
    thread.sched ≠ .none := by
  rw [inside.sched]
  exact SchedId.noConfusion

variable [Fintype Cpu]

/-- A step that leaves the references, the kernel and the PNTs alone. -/
theorem Accounted.keep (accounted : Accounted thread listed place)
    (refcnt : thread'.refcnt = thread.refcnt) (sched : thread'.sched = thread.sched)
    (known : thread'.known = thread.known) (flag : thread'.enqueued = listed')
    (court : thread'.court = thread.court) (barrier : thread'.barrier = thread.barrier)
    (failing : thread'.lock.failingOn = thread.lock.failingOn)
    (latched : thread'.lock.latchedOn = thread.lock.latchedOn)
    (standing : thread'.Outside listed' ∨ thread'.Inside listed' (holds place)) :
    Accounted thread' listed' place := by
  constructor
  case flag => exact flag
  case references =>
    obtain ⟨counts, knows, alone⟩ := accounted.references
    constructor
    · simp only [refcnt, sched, counts]
    · rw [known, sched]
      exact knows
    · rw [sched]
      exact alone
  case places =>
    obtain ⟨fails, latches, unique⟩ := accounted.places
    constructor
    · rw [failing]
      exact fails
    · rw [latched]
      exact latches
    · exact unique
  case saved =>
    rw [sched, court, barrier]
    exact accounted.saved
  case standing => exact standing

theorem Accounted.sent (accounted : Accounted thread listed place) (free : thread.lock = .free)
    {court : Court} (moves : msg.courtAfter thread.court = some court) (seqnum : Nat) :
    Accounted (thread.sent msg court seqnum) listed place := by
  obtain ⟨flag, references, places, saved, standing⟩ := accounted
  constructor
  case flag => exact flag
  case references => exact ⟨references.refcnt, references.known, references.alone⟩
  case places =>
    rw [free] at places
    cases msg with
    | latchFailure cpu => cases moves
    | _ => exact ⟨places.failing, places.latched, places.unique⟩
  case saved =>
    intro cpu latchedSeqnum isAt
    obtain ⟨bounded, stale⟩ := saved cpu latchedSeqnum isAt
    cases standing with
    | inl outside =>
        have entered : court ≠ .gone := by
          rw [outside.gone_of_free free] at moves
          cases msg <;> grind [ThreadMsg.courtAfter]
        exact ⟨fun isSched => absurd outside.sched isSched, fun gone => absurd gone entered⟩
    | inr inside =>
        have isSched := inside.scheduled
        have barrier : (thread.sent msg court seqnum).barrier = thread.barrier + 1 := by
          simp [LatchThread.sent, inside.present free rfl]
        rw [barrier]
        exact ⟨fun _ => Nat.le_succ_of_le (bounded isSched),
          fun _ => Nat.lt_succ_of_le (bounded isSched)⟩
  case standing =>
    cases standing with
    | inl outside => exact .inl (outside.sent free moves)
    | inr inside => exact .inr (inside.sent free moves)

private theorem Accounted.handled (accounted : Accounted thread listed place) {stage : Stage}
    (locked : thread.lock = .handler msg stage) (handled : LatchThread.Handled thread thread' msg)
    (flag : thread'.enqueued = listed')
    (standing : thread'.Outside listed' ∨ thread'.Inside listed' (holds place)) :
    Accounted thread' listed' place := by
  obtain ⟨stage', locked'⟩ := handled.lock
  apply accounted.keep handled.refcnt handled.sched handled.known flag handled.court handled.barrier
  · rw [locked, locked']
    exact TaskLock.failingOn_handler _ _
  · rw [locked, locked']
    rfl
  · exact standing

private theorem Accounted.enters (accounted : Accounted thread listed place) {runnable : Bool}
    (locked : thread.lock = .handler (.new runnable) .lookup) (outside : thread.Outside listed)
    (unknown : thread.known = false) (nobody : ∀ cpu, place cpu = none) :
    Accounted (thread.lookup (.new runnable)) listed place := by
  have unheld : holds place = false := by simp [holds, nobody]
  have inside := outside.enters locked unknown
  have entered : thread.lookup (.new runnable) =
      { thread with
        known := true
        seqnum := thread.barrier
        refcnt := 1
        sched := .biff
        onRq := runnable
        onCpu := false
        pendingLatch := false
        enqueued := false
        lock := .handler (.new runnable) (if runnable then .op else .store) } := by
    simp only [LatchThread.lookup, unknown]
    rfl
  rw [entered] at inside ⊢
  constructor
  case flag => exact outside.listed.symm
  case references => exact .enter nobody SchedId.noConfusion rfl rfl
  case places =>
    have places := accounted.places
    rw [locked] at places
    exact ⟨places.failing, places.latched, places.unique⟩
  case saved =>
    intro cpu latchedSeqnum isAt
    rw [nobody cpu] at isAt
    cases isAt
  case standing =>
    rw [unheld]
    exact .inr inside

theorem Accounted.looks (accounted : Accounted thread listed place)
    (locked : thread.lock = .handler msg .lookup)
    (alone : msg.isNew = true → thread.sched = .none → ∀ cpu, place cpu = none) :
    Accounted (thread.lookup msg) listed place := by
  have known := accounted.references.known
  cases accounted.standing with
  | inl outside =>
      by_cases isNew : msg.isNew = true
      · cases msg with
        | new runnable =>
            have nobody := alone rfl outside.sched
            have unknown : thread.known = false := by
              simpa [outside.sched, nobody] using known
            exact accounted.enters locked outside unknown nobody
        | _ => cases isNew
      · obtain ⟨handled, flag⟩ := LatchThread.lookup_handled fun new => absurd new isNew
        have outside' := outside.looks locked fun runnable new => isNew (new ▸ rfl)
        exact accounted.handled locked handled (flag.trans accounted.flag) (.inl outside')
  | inr inside =>
      have knows : thread.known = true := known.mpr (.inl inside.scheduled)
      obtain ⟨handled, flag⟩ := LatchThread.lookup_handled fun _ => knows
      exact accounted.handled locked handled (flag.trans accounted.flag)
        (.inr (inside.looks locked knows))

omit [Fintype Cpu] in
private theorem LatchThread.Outside.not_biff (outside : thread.Outside listed) :
    thread.sched ≠ .biff := by
  rw [outside.sched]
  exact SchedId.noConfusion

theorem Accounted.inside (accounted : Accounted thread listed place) (isBiff : thread.sched = .biff) :
    thread.Inside listed (holds place) :=
  accounted.standing.resolve_left fun outside => outside.not_biff isBiff

theorem Accounted.inserts (accounted : Accounted thread listed place)
    (locked : thread.lock = .handler msg .op) (isBiff : thread.sched = .biff)
    (enqueues : msg.enqueues = true) :
    Accounted { thread with enqueued := true, lock := .handler msg .store } true place := by
  have inside := (accounted.inside isBiff).inserts locked enqueues
  exact accounted.handled locked ⟨rfl, rfl, rfl, rfl, rfl, .store, rfl⟩ rfl (.inr inside)

theorem Accounted.unlinks (accounted : Accounted thread listed place)
    (locked : thread.lock = .handler .departed .op) (isBiff : thread.sched = .biff) :
    Accounted { thread with enqueued := false, lock := (.handler .departed .store : TaskLock Cpu) }
      false place := by
  have inside := (accounted.inside isBiff).unlinked locked
  exact accounted.handled locked ⟨rfl, rfl, rfl, rfl, rfl, .store, rfl⟩ rfl (.inr inside)

theorem Accounted.passes (accounted : Accounted thread listed place)
    (locked : thread.lock = .handler msg .op)
    (idle : thread.sched = .biff → msg.enqueues = false ∧ ¬(msg = .departed ∧ listed = true)) :
    Accounted (thread.goOn msg .store) listed place := by
  refine accounted.handled locked ⟨rfl, rfl, rfl, rfl, rfl, .store, rfl⟩ accounted.flag ?_
  cases accounted.standing with
  | inl outside => exact .inl (outside.passes locked)
  | inr inside =>
      obtain ⟨still, unlinked⟩ := idle inside.sched
      exact .inr (inside.passes locked still unlinked)

theorem Accounted.stores (accounted : Accounted thread listed place)
    (locked : thread.lock = .handler msg .store) : Accounted (thread.store msg) listed place := by
  refine accounted.handled locked ⟨rfl, rfl, rfl, rfl, rfl, .finish, rfl⟩ accounted.flag ?_
  cases accounted.standing with
  | inl outside => exact .inl (outside.stores locked)
  | inr inside => exact .inr (inside.stores locked)

private theorem Accounted.departs (accounted : Accounted thread listed place)
    (locked : thread.lock = .handler msg .finish) (leaves : msg.leaves = true)
    (inside : thread.Inside listed (holds place)) :
    Accounted (thread.finish msg) listed place := by
  have references : References (thread.finish msg) place := by
    cases msg with
    | departed => exact accounted.references.depart inside.scheduled rfl rfl rfl
    | dead => exact accounted.references.depart inside.scheduled rfl rfl rfl
    | _ => cases leaves
  have places := accounted.places
  have saved := accounted.saved
  have outside := inside.departs locked leaves
  rw [locked] at places
  constructor
  case flag => cases msg <;> exact accounted.flag
  case references => exact references
  case places =>
    cases msg with
    | departed => exact ⟨places.failing, places.latched, places.unique⟩
    | dead => exact ⟨places.failing, places.latched, places.unique⟩
    | _ => cases leaves
  case saved =>
    intro cpu latchedSeqnum isAt
    refine ⟨fun isSched => absurd outside.sched isSched, ?_⟩
    have stale := (saved cpu latchedSeqnum isAt).2
    cases msg <;> exact stale
  case standing => exact .inl outside

theorem Accounted.finishes (accounted : Accounted thread listed place)
    (locked : thread.lock = .handler msg .finish) : Accounted (thread.finish msg) listed place := by
  cases accounted.standing with
  | inl outside =>
      obtain ⟨outside', cpu, rfl⟩ := outside.finishes locked
      obtain ⟨handled, flag⟩ := thread.finish_handled (Eq.refl (ThreadMsg.latchFailure cpu).leaves)
      exact accounted.handled locked handled (flag.trans accounted.flag) (.inl outside')
  | inr inside =>
      cases leaves : msg.leaves with
      | true => exact accounted.departs locked leaves inside
      | false =>
          obtain ⟨handled, flag⟩ := thread.finish_handled leaves
          exact accounted.handled locked handled (flag.trans accounted.flag)
            (.inr (inside.finishes locked leaves))

theorem Accounted.released (accounted : Accounted thread listed place)
    (locked : thread.lock = .handler msg .leave)
    (other : (TaskLock.handler msg .leave).failingOn = none) :
    Accounted { thread with lock := (.free : TaskLock Cpu) } listed place := by
  refine accounted.keep rfl rfl rfl accounted.flag rfl rfl ?_ ?_ ?_
  · rw [locked, other]
    rfl
  · rw [locked]
    rfl
  · cases accounted.standing with
    | inl outside => exact .inl (outside.released locked)
    | inr inside => exact .inr (inside.released locked)

/-! ## Steps of a PNT -/

variable [DecidableEq Cpu] {new : Option Place} {latchedSeqnum : Nat}

omit [Fintype Cpu] in
private theorem holding_of_update {other : Cpu} (after : new.any Place.isHolding = false)
    (isAt : Function.update place cpu new other = some (.holding latchedSeqnum)) :
    place other = some (.holding latchedSeqnum) := by
  by_cases isCpu : other = cpu
  · subst isCpu
    rw [Function.update_self] at isAt
    rw [isAt] at after
    cases after
  · rwa [Function.update_of_ne isCpu] at isAt

theorem Places.step {lock : TaskLock Cpu} (places : Places lock place)
    (unfailing : place cpu ≠ some .failing) (unlatched : place cpu ≠ some .latched)
    (unfailing' : new ≠ some .failing) (unlatched' : new ≠ some .latched)
    (alone : new.any Place.isHolding = true → holds place = false) :
    Places lock (Function.update place cpu new) := by
  apply places.update
  case failing => simp [unfailing', ← places.failing, unfailing]
  case latched => simp [unlatched', ← places.latched, unlatched]
  case others => exact fun other different => ⟨Iff.rfl, Iff.rfl⟩
  case alone => exact alone

theorem Accounted.returns (accounted : Accounted thread listed place)
    (locked : thread.lock = .handler (.latchFailure cpu) .leave) :
    Accounted { thread with lock := (.free : TaskLock Cpu) } listed
      (Function.update place cpu (some .failed)) := by
  obtain ⟨flag, references, places, saved, standing⟩ := accounted
  have isAt : place cpu = some .failing := by
    rw [places.failing, locked]
    rfl
  constructor
  case flag => exact flag
  case references => exact references.move isAt rfl rfl rfl rfl rfl
  case places =>
    rw [locked] at places
    apply places.update
    case others =>
      intro other different
      simp [TaskLock.failingOn, TaskLock.latchedOn, different.symm]
    all_goals simp [TaskLock.failingOn, TaskLock.latchedOn, Place.isHolding]
  case saved => exact fun other latchedSeqnum isAt => saved other latchedSeqnum (holding_of_update rfl isAt)
  case standing =>
    rw [holds_update (by rw [isAt]; rfl) rfl]
    cases standing with
    | inl outside => exact .inl (outside.released locked)
    | inr inside => exact .inr (inside.released locked)

theorem Accounted.picked (accounted : Accounted thread true place) (idle : place cpu = none) :
    Accounted thread.fluxPrepareToRun false
      (Function.update place cpu (some (.holding thread.seqnum))) := by
  obtain ⟨flag, references, places, saved, standing⟩ := accounted
  have inside : thread.Inside true (holds place) := by
    cases standing with
    | inl outside => cases outside.listed
    | inr inside => exact inside
  have unheld : holds place = false := by simpa using inside.apart
  constructor
  case flag => rfl
  case references =>
    refine references.recount inside.scheduled rfl rfl ?_ ?_
    · simp [idle, Place.refers, LatchThread.fluxPrepareToRun]
    · simp
  case places =>
    apply places.step
    case alone => exact fun _ => unheld
    all_goals simp [idle]
  case saved =>
    intro other latchedSeqnum isAt
    by_cases isCpu : other = cpu
    · subst isCpu
      rw [Function.update_self] at isAt
      cases isAt
      exact ⟨fun _ => inside.seqnum, fun gone => (inside.unlinks gone rfl).2⟩
    · rw [Function.update_of_ne isCpu] at isAt
      exact saved other latchedSeqnum isAt
  case standing =>
    rw [holds_of (Function.update_self cpu _ place)]
    exact .inr inside.picked

/-- A latch that is not stale succeeds only for a thread that has a scheduler. -/
theorem Accounted.latches (accounted : Accounted thread listed place)
    (isAt : place cpu = some (.holding latchedSeqnum)) (free : thread.lock = .free)
    (current : thread.barrier = latchedSeqnum) :
    Accounted { thread with court := .latched, lock := .pnt cpu } listed
      (Function.update place cpu (some .latched)) := by
  obtain ⟨flag, references, places, saved, standing⟩ := accounted
  have inside : thread.Inside listed true := by
    cases standing with
    | inl outside =>
        have stale := (saved cpu latchedSeqnum isAt).2 (outside.gone_of_free free)
        exact absurd current (Nat.ne_of_gt stale)
    | inr inside =>
        rw [holds_of isAt] at inside
        exact inside
  constructor
  case flag => exact flag
  case references => exact references.move isAt rfl rfl rfl rfl rfl
  case places =>
    rw [free] at places
    apply places.update
    case others =>
      intro other different
      simp [TaskLock.failingOn, TaskLock.latchedOn, different.symm]
    all_goals simp [TaskLock.failingOn, TaskLock.latchedOn, Place.isHolding]
  case saved =>
    intro other latchedSeqnum' isAt'
    have bounded := (saved other latchedSeqnum' (holding_of_update rfl isAt')).1
    exact ⟨bounded, fun gone => Court.noConfusion gone⟩
  case standing =>
    rw [places.holds_update isAt rfl]
    exact .inr (inside.latches free)

/-- The reference of a PNT that latched the thread is not the last one. -/
theorem Accounted.hasBall (accounted : Accounted thread listed place)
    (isAt : place cpu = some .latched) :
    Accounted { { thread with pendingLatch := false }.fluxThreadDecref with
        lock := (.free : TaskLock Cpu) } listed (Function.update place cpu none) := by
  obtain ⟨flag, references, places, saved, standing⟩ := accounted
  have locked : thread.lock = .pnt cpu := by
    have latched := (places.latched cpu).mp isAt
    cases isLock : thread.lock <;> simp_all [TaskLock.latchedOn]
  have inside : thread.Inside listed (holds place) := by
    cases standing with
    | inl outside =>
        obtain ⟨-, quiet⟩ | ⟨runnable, locked', -⟩ := outside.lock
        · rw [locked] at quiet
          cases quiet
        · rw [locked] at locked'
          cases locked'
    | inr inside => exact inside
  have shared : thread.refcnt - 1 ≠ 0 := by
    intro last
    have isLast := (references.isLast_iff isAt rfl).mp last
    exact inside.scheduled isLast.1
  constructor
  case flag => exact flag
  case references =>
    refine references.recount inside.scheduled rfl ?_ ?_ ?_
    · simp [LatchThread.fluxThreadDecref, shared]
    · simp [LatchThread.fluxThreadDecref, isAt, Place.refers]
    · simp
  case places =>
    rw [locked] at places
    apply places.update
    case others =>
      intro other different
      simp [TaskLock.failingOn, TaskLock.latchedOn, different.symm]
    all_goals simp [TaskLock.failingOn, TaskLock.latchedOn]
  case saved =>
    exact fun other latchedSeqnum isAt => saved other latchedSeqnum (holding_of_update rfl isAt)
  case standing =>
    rw [holds_update (by rw [isAt]; rfl) rfl]
    exact LatchThread.standing_recount (.inr (inside.hasBall locked)) _ _

theorem Accounted.latchFails (accounted : Accounted thread listed place)
    (isAt : place cpu = some (.holding latchedSeqnum)) (free : thread.lock = .free) :
    Accounted (thread.sent (.latchFailure cpu) thread.court 0) listed
      (Function.update place cpu (some .failing)) := by
  obtain ⟨flag, references, places, saved, standing⟩ := accounted
  constructor
  case flag => exact flag
  case references => exact references.move isAt rfl rfl rfl rfl rfl
  case places =>
    rw [free] at places
    apply places.update
    case others =>
      intro other different
      simp [LatchThread.sent, TaskLock.failingOn, TaskLock.latchedOn, different.symm]
    all_goals simp [LatchThread.sent, TaskLock.failingOn, TaskLock.latchedOn, Place.isHolding]
  case saved =>
    intro other latchedSeqnum' isAt'
    obtain ⟨bounded, stale⟩ := saved other latchedSeqnum' (holding_of_update rfl isAt')
    exact ⟨fun isSched => Nat.le_succ_of_le (bounded isSched),
      fun gone => Nat.lt_succ_of_lt (stale gone)⟩
  case standing =>
    rw [places.holds_update isAt rfl]
    cases standing with
    | inl outside => exact .inl (outside.latchFails free)
    | inr inside =>
        rw [holds_of isAt] at inside
        exact .inr (inside.latchFails free)

theorem Accounted.vanishes (accounted : Accounted thread listed place)
    (isAt : place cpu = some (.holding latchedSeqnum)) (gone : thread.court = .gone) :
    Accounted thread listed (Function.update place cpu (some .failed)) := by
  obtain ⟨flag, references, places, saved, standing⟩ := accounted
  constructor
  case flag => exact flag
  case references => exact references.move isAt rfl rfl rfl rfl rfl
  case places => apply places.step <;> simp [isAt, Place.isHolding]
  case saved =>
    exact fun other latchedSeqnum isAt => saved other latchedSeqnum (holding_of_update rfl isAt)
  case standing =>
    rw [places.holds_update isAt rfl]
    cases standing with
    | inl outside => exact .inl outside
    | inr inside => exact .inr (inside.vanishes gone)

theorem Accounted.dropRef (accounted : Accounted thread listed place)
    (isAt : place cpu = some .failed) :
    Accounted { thread with refcnt := thread.refcnt - 1 } listed
      (Function.update place cpu (if thread.refcnt - 1 = 0 then some .freeing else none)) := by
  obtain ⟨flag, references, places, saved, standing⟩ := accounted
  have unheld : (if thread.refcnt - 1 = 0 then some Place.freeing else none).any
      Place.isHolding = false := by split <;> rfl
  constructor
  case flag => exact flag
  case references => exact references.dropRef isAt rfl rfl rfl
  case places =>
    apply places.step
    case alone => exact fun isHolding => absurd isHolding (by rw [unheld]; exact Bool.noConfusion)
    all_goals simp [isAt]
  case saved =>
    exact fun other latchedSeqnum isAt => saved other latchedSeqnum (holding_of_update unheld isAt)
  case standing =>
    rw [holds_update (by rw [isAt]; rfl) unheld]
    exact LatchThread.standing_recount standing _ _

theorem Accounted.free (accounted : Accounted thread listed place)
    (isAt : place cpu = some .freeing) :
    Accounted { thread with known := false } listed (Function.update place cpu none) := by
  obtain ⟨flag, references, places, saved, standing⟩ := accounted
  constructor
  case flag => exact flag
  case references => exact references.free isAt rfl rfl rfl
  case places => apply places.step <;> simp [isAt]
  case saved =>
    exact fun other latchedSeqnum isAt => saved other latchedSeqnum (holding_of_update rfl isAt)
  case standing =>
    rw [holds_update (by rw [isAt]; rfl) rfl]
    exact LatchThread.standing_recount standing _ _

end Steps

end Ghost.Flux
