import Ghost.Bpf.ArrListProperties
import Ghost.Flux.LatchingAccounts

/-!
# Who has the ball

Every interleaving of handlers and PNTs keeps the accounts of all threads, as long as no
reference outlives the incarnation of the thread that it was taken on. So a thread that
is on the run queue is in one place: in biff's queue, with one PNT, or with the kernel.
-/

set_option autoImplicit false

namespace Ghost.Flux

open Bpf Lib

/-! ## The view of one thread -/

section Views

variable {size : ArrSize} {Cpu : Type}

/-- How far each PNT is with a thread. -/
def role (pnt : Cpu → Option (size.Elem × Place)) (elem : size.Elem) (cpu : Cpu) : Option Place :=
  (pnt cpu).bind fun at' => if at'.1 = elem then some at'.2 else none

variable {pnt : Cpu → Option (size.Elem × Place)} {elem other : size.Elem} {cpu : Cpu}

private theorem role_eq_some {place : Place} :
    role pnt elem cpu = some place ↔ pnt cpu = some (elem, place) := by
  unfold role
  cases isAt : pnt cpu with
  | none => simp
  | some at' =>
      obtain ⟨elem', place'⟩ := at'
      by_cases same : elem' = elem
      · simp [same]
      · simp [same]

variable [DecidableEq Cpu]

private theorem role_update (place : Option Place) :
    role (Function.update pnt cpu (place.map fun place => (elem, place))) elem =
      Function.update (role pnt elem) cpu place := by
  funext cpu'
  by_cases same : cpu' = cpu
  · subst same
    cases place <;> simp [role]
  · simp [role, same]

private theorem role_update_other (different : other ≠ elem) {place place' : Option Place}
    (before : pnt cpu = place.map fun place => (elem, place)) :
    role (Function.update pnt cpu (place'.map fun place => (elem, place))) other =
      role pnt other := by
  funext cpu'
  by_cases same : cpu' = cpu
  · subst same
    unfold role
    rw [Function.update_self, before]
    cases place <;> cases place' <;> simp [different.symm]
  · simp [role, same]

end Views

/-! ## What a step does -/

section Inversion

variable {size : ArrSize} {Cpu : Type} [DecidableEq Cpu] {state next : Latching size Cpu}
  {step : LatchStep size Cpu}

/-- The steps with their guards. -/
inductive Latching.Performs (state : Latching size Cpu) :
    LatchStep size Cpu → Latching size Cpu → Prop
  | message {elem : size.Elem} {msg : ThreadMsg Cpu} {court : Court} (seqnum : Nat)
      (free : (state.threads elem).lock = .free)
      (moves : msg.courtAfter (state.threads elem).court = some court) :
      state.Performs (.message elem msg seqnum)
        (state.setThread elem ((state.threads elem).sent msg court seqnum))
  | lookup {elem : size.Elem} {msg : ThreadMsg Cpu}
      (locked : (state.threads elem).lock = .handler msg .lookup) :
      state.Performs (.lookup elem) (state.setThread elem ((state.threads elem).lookup msg))
  | op {elem : size.Elem} {msg : ThreadMsg Cpu}
      (locked : (state.threads elem).lock = .handler msg .op) :
      state.Performs (.op elem) (state.threadOp elem msg)
  | store {elem : size.Elem} {msg : ThreadMsg Cpu}
      (locked : (state.threads elem).lock = .handler msg .store) :
      state.Performs (.store elem) (state.setThread elem ((state.threads elem).store msg))
  | finish {elem : size.Elem} {msg : ThreadMsg Cpu}
      (locked : (state.threads elem).lock = .handler msg .finish) :
      state.Performs (.finish elem) (state.setThread elem ((state.threads elem).finish msg))
  | leave {elem : size.Elem} {msg : ThreadMsg Cpu}
      (locked : (state.threads elem).lock = .handler msg .leave) :
      state.Performs (.leave elem) (state.release elem msg)
  | pick {cpu : Cpu} {elem : size.Elem} (idle : state.pnt cpu = none)
      (popped : (state.lists.popFirst ()).1 = some elem) :
      state.Performs (.pick cpu)
        (({ state with lists := (state.lists.popFirst ()).2 }.setThread elem
          (state.threads elem).fluxPrepareToRun).setPnt cpu
            (some (elem, .holding (state.threads elem).seqnum)))
  | runSucceeds {cpu : Cpu} {elem : size.Elem} {latchedSeqnum : Nat}
      (isAt : state.pnt cpu = some (elem, .holding latchedSeqnum))
      (free : (state.threads elem).lock = .free)
      (current : (state.threads elem).barrier = latchedSeqnum) :
      state.Performs (.runSucceeds cpu)
        ((state.setThread elem { state.threads elem with court := .latched, lock := .pnt cpu }).setPnt
          cpu (some (elem, .latched)))
  | hasBall {cpu : Cpu} {elem : size.Elem} (isAt : state.pnt cpu = some (elem, .latched)) :
      state.Performs (.hasBall cpu)
        ((state.setThread elem
          { { state.threads elem with pendingLatch := false }.fluxThreadDecref with
            lock := .free }).setPnt cpu none)
  | runFails {cpu : Cpu} {elem : size.Elem} {latchedSeqnum : Nat}
      (isAt : state.pnt cpu = some (elem, .holding latchedSeqnum))
      (free : (state.threads elem).lock = .free) :
      state.Performs (.runFails cpu)
        ((state.setThread elem ((state.threads elem).sent (.latchFailure cpu)
          (state.threads elem).court 0)).setPnt cpu (some (elem, .failing)))
  | runVanishes {cpu : Cpu} {elem : size.Elem} {latchedSeqnum : Nat}
      (isAt : state.pnt cpu = some (elem, .holding latchedSeqnum))
      (gone : (state.threads elem).court = .gone) :
      state.Performs (.runVanishes cpu) (state.setPnt cpu (some (elem, .failed)))
  | dropRef {cpu : Cpu} {elem : size.Elem} (isAt : state.pnt cpu = some (elem, .failed)) :
      state.Performs (.dropRef cpu)
        ((state.setThread elem { state.threads elem with
          refcnt := (state.threads elem).refcnt - 1 }).setPnt cpu
            (if (state.threads elem).refcnt - 1 = 0 then some (elem, .freeing) else none))
  | free {cpu : Cpu} {elem : size.Elem} (isAt : state.pnt cpu = some (elem, .freeing)) :
      state.Performs (.free cpu)
        ((state.setThread elem { state.threads elem with known := false }).setPnt cpu none)

theorem Latching.performs (moved : state.perform step = some next) : state.Performs step next := by
  cases step with
  | message elem msg seqnum =>
      simp only [perform] at moved
      split at moved
      · next free =>
          obtain ⟨court, moves, rfl⟩ := Option.map_eq_some_iff.mp moved
          exact .message seqnum free moves
      · cases moved
  | runSucceeds cpu =>
      simp only [perform] at moved
      split at moved
      · next elem latchedSeqnum isAt =>
          split at moved
          · next current =>
              cases moved
              exact .runSucceeds isAt current.1 current.2
          · cases moved
      · cases moved
  | runFails cpu =>
      simp only [perform] at moved
      split at moved
      · next elem latchedSeqnum isAt =>
          split at moved
          · next free =>
              cases moved
              exact .runFails isAt free
          · cases moved
      · cases moved
  | runVanishes cpu =>
      simp only [perform] at moved
      split at moved
      · next elem latchedSeqnum isAt =>
          split at moved
          · next gone =>
              cases moved
              exact .runVanishes isAt gone
          · cases moved
      · cases moved
  | pick cpu =>
      simp only [perform] at moved
      split at moved
      · next elem idle popped =>
          cases moved
          exact .pick idle popped
      · cases moved
  | _ =>
      simp only [perform] at moved
      split at moved
      · next found =>
          cases moved
          constructor
          exact found
      · cases moved

end Inversion

/-! ## The system -/

section System

variable {size : ArrSize} {Cpu : Type} [DecidableEq Cpu]

/-- A thread is entered when no PNT is left that took it before. -/
def Latching.EntersAlone (state : Latching size Cpu) : LatchStep size Cpu → Prop
  | .lookup elem => ∀ runnable, (state.threads elem).lock = .handler (.new runnable) .lookup →
      (state.threads elem).sched = .none → ∀ cpu, role state.pnt elem cpu = none
  | _ => True

instance [Fintype Cpu] (state : Latching size Cpu) (step : LatchStep size Cpu) :
    Decidable (state.EntersAlone step) :=
  match step with
  | .lookup elem => inferInstanceAs (Decidable (∀ runnable,
      (state.threads elem).lock = .handler (.new runnable) .lookup →
      (state.threads elem).sched = .none → ∀ cpu, role state.pnt elem cpu = none))
  | .message _ _ _ | .op _ | .store _ | .finish _ | .leave _ | .pick _ | .runSucceeds _
  | .hasBall _ | .runFails _ | .runVanishes _ | .dropRef _ | .free _ => isTrue trivial

/-- The runs in which the incarnations of a thread are apart. -/
def incarnations (size : ArrSize) (Cpu : Type) [DecidableEq Cpu] :
    Machine (Latching size Cpu) (LatchStep size Cpu) :=
  (latching size Cpu).restrict Latching.EntersAlone

variable [Fintype Cpu]

/-- The queue is linked, and the accounts of every thread are right. -/
def Latching.Agree (state : Latching size Cpu) : Prop :=
  ∃ items, Refines (state.lists, fun _ => items) ∧
    ∀ elem, Accounted (state.threads elem) (decide (elem ∈ items)) (role state.pnt elem)

namespace Latching.Agree

variable {state next : Latching size Cpu} {elem : size.Elem} {thread : LatchThread Cpu} {cpu : Cpu}

section Changes

variable {items items' : List size.Elem} {lists : ArrLists size Unit}
  (accounted : ∀ elem, Accounted (state.threads elem) (decide (elem ∈ items)) (role state.pnt elem))
  (refines : Refines (lists, fun _ => items'))
  (members : ∀ other, other ≠ elem → (other ∈ items' ↔ other ∈ items))
include accounted refines members

omit [DecidableEq Cpu] in
/-- One thread changes, and whether the queue has it. -/
theorem relink (own : Accounted thread (decide (elem ∈ items')) (role state.pnt elem)) :
    ({ state with lists := lists }.setThread elem thread).Agree := by
  refine ⟨items', refines, ?_⟩
  intro other
  by_cases same : other = elem
  · subst same
    simp only [Latching.setThread, Function.update_self]
    exact own
  · simp only [Latching.setThread, Function.update_of_ne same, members other same]
    exact accounted other

/-- One thread changes, whether the queue has it, and how far one PNT is with it. -/
theorem relinkPnt {place place' : Option Place}
    (before : state.pnt cpu = place.map fun place => (elem, place))
    (own : Accounted thread (decide (elem ∈ items'))
      (Function.update (role state.pnt elem) cpu place')) :
    (({ state with lists := lists }.setThread elem thread).setPnt cpu
      (place'.map fun place => (elem, place))).Agree := by
  refine ⟨items', refines, ?_⟩
  intro other
  by_cases same : other = elem
  · subst same
    simp only [Latching.setThread, Latching.setPnt, Function.update_self, role_update]
    exact own
  · simp only [Latching.setThread, Latching.setPnt, Function.update_of_ne same,
      role_update_other same before, members other same]
    exact accounted other

end Changes

omit [DecidableEq Cpu] in
private theorem setThread (agree : state.Agree)
    (own : ∀ listed, Accounted (state.threads elem) listed (role state.pnt elem) →
      Accounted thread listed (role state.pnt elem)) : (state.setThread elem thread).Agree := by
  obtain ⟨items, refines, accounted⟩ := agree
  exact relink accounted refines (fun _ _ => Iff.rfl) (own _ (accounted elem))

private theorem setPnt (agree : state.Agree) {place : Place} {place' : Option Place}
    (isAt : state.pnt cpu = some (elem, place))
    (own : ∀ listed, role state.pnt elem cpu = some place →
      Accounted (state.threads elem) listed (role state.pnt elem) →
      Accounted thread listed (Function.update (role state.pnt elem) cpu place')) :
    ((state.setThread elem thread).setPnt cpu (place'.map fun place => (elem, place))).Agree := by
  obtain ⟨items, refines, accounted⟩ := agree
  have before : state.pnt cpu = (some place).map fun place => (elem, place) := isAt
  exact relinkPnt accounted refines (fun _ _ => Iff.rfl) before
    (own _ (role_eq_some.mpr isAt) (accounted elem))

/-! ## Steps -/

omit [DecidableEq Cpu] in
private theorem lookup {msg : ThreadMsg Cpu} (agree : state.Agree)
    (alone : state.EntersAlone (.lookup elem))
    (locked : (state.threads elem).lock = .handler msg .lookup) :
    (state.setThread elem ((state.threads elem).lookup msg)).Agree := by
  apply agree.setThread
  intro _ accounted
  apply accounted.looks locked
  intro isNew unscheduled
  cases msg with
  | new runnable => exact alone runnable locked unscheduled
  | _ => cases isNew

private theorem threadOp {msg : ThreadMsg Cpu} (agree : state.Agree)
    (locked : (state.threads elem).lock = .handler msg .op) : (state.threadOp elem msg).Agree := by
  obtain ⟨items, refines, accounted⟩ := agree
  have own := accounted elem
  unfold Latching.threadOp
  dsimp only
  split
  · next enqueues =>
      obtain ⟨isBiff, enqueues⟩ := enqueues
      have absent : elem ∉ items := by
        simpa using ((own.inside isBiff).nowhere locked enqueues).2.1
      refine relink accounted (refines.insertTail fun _ => absent).only ?_ ?_
      · intro other different
        simp [different]
      · have inserted := own.inserts locked isBiff enqueues
        simpa using inserted
  · next idle =>
      split
      · next unlinks =>
          obtain ⟨isBiff, rfl, flagged⟩ := unlinks
          have linked : elem ∈ items := by
            simpa [flagged] using own.flag
          refine relink accounted (refines.remove linked).only ?_ ?_
          · intro other different
            exact List.mem_erase_of_ne different
          · have unlinked := own.unlinks locked isBiff
            have absent : elem ∉ items.erase elem := (refines.nodup ()).not_mem_erase
            simpa [absent] using unlinked
      · next stays =>
          refine relink accounted refines (fun _ _ => Iff.rfl) ?_
          apply own.passes locked
          intro isBiff
          refine ⟨?_, ?_⟩
          · simpa [isBiff] using idle
          · rintro ⟨departs, linked⟩
            exact stays ⟨isBiff, departs, own.flag.trans linked⟩

private theorem release {msg : ThreadMsg Cpu} (agree : state.Agree)
    (locked : (state.threads elem).lock = .handler msg .leave) :
    (state.release elem msg).Agree := by
  unfold Latching.release
  cases msg with
  | latchFailure cpu =>
      obtain ⟨items, refines, accounted⟩ := agree
      have isAt := ((accounted elem).places.failing cpu).mpr (by rw [locked]; rfl)
      exact setPnt ⟨items, refines, accounted⟩ (role_eq_some.mp isAt)
        fun _ _ accounted => accounted.returns locked
  | _ => exact agree.setThread fun _ accounted => accounted.released locked rfl

private theorem pick (agree : state.Agree) (idle : state.pnt cpu = none)
    (popped : (state.lists.popFirst ()).1 = some elem) :
    (({ state with lists := (state.lists.popFirst ()).2 }.setThread elem
      (state.threads elem).fluxPrepareToRun).setPnt cpu
        (some (elem, .holding (state.threads elem).seqnum))).Agree := by
  obtain ⟨items, refines, accounted⟩ := agree
  obtain ⟨isFirst, refines'⟩ := refines.popFirst ()
  rw [isFirst] at popped
  cases items with
  | nil => cases popped
  | cons first rest =>
      cases popped
      have unique : (elem :: rest).Nodup := refines.nodup ()
      have absent : elem ∉ rest := (List.nodup_cons.mp unique).1
      have before : state.pnt cpu = (none : Option Place).map fun place => (elem, place) := idle
      have idle' : role state.pnt elem cpu = none := by simp [role, idle]
      have own : Accounted (state.threads elem) true (role state.pnt elem) := by
        simpa using accounted elem
      have picked := own.picked idle'
      rw [← decide_eq_false absent] at picked
      have members : ∀ other, other ≠ elem → (other ∈ rest ↔ other ∈ elem :: rest) := by
        intro other different
        simp [different]
      exact relinkPnt accounted refines'.only members before picked

private theorem vanishes {latchedSeqnum : Nat} (agree : state.Agree)
    (isAt : state.pnt cpu = some (elem, .holding latchedSeqnum))
    (gone : (state.threads elem).court = .gone) :
    (state.setPnt cpu (some (elem, .failed))).Agree := by
  have same : state = state.setThread elem (state.threads elem) := by
    simp [Latching.setThread]
  rw [same]
  exact agree.setPnt isAt fun _ isAt accounted => accounted.vanishes isAt gone

private theorem dropRef (agree : state.Agree) (isAt : state.pnt cpu = some (elem, .failed)) :
    ((state.setThread elem { state.threads elem with
      refcnt := (state.threads elem).refcnt - 1 }).setPnt cpu
        (if (state.threads elem).refcnt - 1 = 0 then some (elem, .freeing) else none)).Agree := by
  have shape : (if (state.threads elem).refcnt - 1 = 0 then some (elem, Place.freeing)
      else none) = (if (state.threads elem).refcnt - 1 = 0 then some Place.freeing
      else none).map fun place => (elem, place) := by
    split <;> rfl
  rw [shape]
  exact agree.setPnt isAt fun _ isAt accounted => accounted.dropRef isAt

theorem step {step : LatchStep size Cpu} (agree : state.Agree)
    (moved : (incarnations size Cpu).step state step next) : next.Agree := by
  obtain ⟨alone, moved⟩ := moved
  cases performs moved with
  | message seqnum free moves =>
      exact agree.setThread fun _ accounted => accounted.sent free moves seqnum
  | lookup locked => exact agree.lookup alone locked
  | op locked => exact agree.threadOp locked
  | store locked => exact agree.setThread fun _ accounted => accounted.stores locked
  | finish locked => exact agree.setThread fun _ accounted => accounted.finishes locked
  | leave locked => exact agree.release locked
  | pick idle popped => exact agree.pick idle popped
  | runSucceeds isAt free current =>
      exact agree.setPnt isAt fun _ isAt accounted => accounted.latches isAt free current
  | hasBall isAt => exact agree.setPnt isAt fun _ isAt accounted => accounted.hasBall isAt
  | runFails isAt free =>
      exact agree.setPnt isAt fun _ isAt accounted => accounted.latchFails isAt free
  | runVanishes isAt gone => exact agree.vanishes isAt gone
  | dropRef isAt => exact agree.dropRef isAt
  | free isAt => exact agree.setPnt isAt fun _ isAt accounted => accounted.free isAt

theorem initial (starts : (latching size Cpu).initial state) : state.Agree := by
  obtain ⟨emptyHead, idle, zeroed⟩ := starts
  refine ⟨[], Refines.initial fun _ => emptyHead, ?_⟩
  intro elem
  have nobody : role state.pnt elem = fun _ => none := by
    funext cpu
    simp [role, idle]
  rw [zeroed elem, nobody]
  constructor
  case flag => rfl
  case references =>
    constructor
    case refcnt =>
      rw [unit_false (by simp), tally_eq_zero.mpr (by simp)]
      rfl
    case known => simp
    case alone => simp
  case places => constructor <;> simp [TaskLock.failingOn, TaskLock.latchedOn]
  case saved => simp
  case standing => exact .inl ⟨rfl, rfl, .inl ⟨rfl, rfl⟩⟩

end Latching.Agree

/-- The accounts of every thread are right in every state. -/
theorem incarnations_agree {state : Latching size Cpu}
    (reachable : (incarnations size Cpu).Reachable state) : state.Agree := by
  apply reachable.invariant
  · intro state starts
    exact Latching.Agree.initial starts
  · intro state step next agree moved
    exact agree.step moved

/-! ## One place -/

namespace Latching

variable (state : Latching size Cpu)

omit [DecidableEq Cpu] [Fintype Cpu] in
/-- A PNT took the thread off the queue, and has yet to hear from the kernel. -/
def Limbo (elem : size.Elem) (cpu : Cpu) : Prop :=
  ∃ latchedSeqnum, state.pnt cpu = some (elem, .holding latchedSeqnum)

/-- The places of a thread, given what is in biff's queue. -/
structure OnePlace (items : List size.Elem) (elem : size.Elem) : Prop where
  place : (∀ msg stage, (state.threads elem).lock ≠ .handler msg stage) →
    (state.threads elem).onRq = true → (state.threads elem).court ≠ .gone →
    ExactlyOne (elem ∈ items) (∃ cpu, state.Limbo elem cpu)
      ((state.threads elem).court = .latched ∨ (state.threads elem).court = .onCpu)
  pending : (state.threads elem).lock = .free → (state.threads elem).court ≠ .gone →
    ((state.threads elem).pendingLatch = true ↔ ∃ cpu, state.Limbo elem cpu)
  holder : ∀ cpu other, state.Limbo elem cpu → state.Limbo elem other → cpu = other
  insertion : ∀ msg, (state.threads elem).lock = .handler msg .op →
    (state.threads elem).sched = .biff → msg.enqueues = true → elem ∉ items
  lastRef : (state.threads elem).refcnt = 0 →
    ((state.threads elem).court = .gone ∨
      ∃ runnable, (state.threads elem).lock = .handler (.new runnable) .lookup) ∧
    ∀ cpu place, state.pnt cpu = some (elem, place) → place = .freeing

variable {state}

omit [DecidableEq Cpu] [Fintype Cpu] in
private theorem limbo_iff {elem : size.Elem} {cpu : Cpu} :
    state.Limbo elem cpu ↔ (role state.pnt elem cpu).any Place.isHolding = true := by
  constructor
  · rintro ⟨latchedSeqnum, isAt⟩
    rw [role_eq_some.mpr isAt]
    rfl
  · intro isHolding
    obtain ⟨place, isAt, isHolding⟩ := (Option.any_eq_true _ _).mp isHolding
    cases place with
    | holding latchedSeqnum => exact ⟨latchedSeqnum, role_eq_some.mp isAt⟩
    | _ => cases isHolding

omit [DecidableEq Cpu] in
private theorem exists_limbo_iff {elem : size.Elem} :
    (∃ cpu, state.Limbo elem cpu) ↔ holds (role state.pnt elem) = true := by
  simp only [limbo_iff, holds, decide_eq_true_eq]

end Latching

omit [DecidableEq Cpu] in
private theorem Latching.onePlace {state : Latching size Cpu} {items : List size.Elem}
    {elem : size.Elem}
    (accounted : Accounted (state.threads elem) (decide (elem ∈ items)) (role state.pnt elem)) :
    state.OnePlace items elem := by
  constructor
  case place =>
    intro unlocked onRq present
    have inside := LatchThread.inside_of_present accounted.standing present
      fun runnable => unlocked (.new runnable) .lookup
    have one := inside.exactlyOne unlocked onRq
    rw [Latching.exists_limbo_iff]
    simpa using one
  case pending =>
    intro free present
    have inside := LatchThread.inside_of_present accounted.standing present (by simp [free])
    rw [Latching.exists_limbo_iff, (inside.rests free).1]
  case holder =>
    intro cpu other
    rw [Latching.limbo_iff, Latching.limbo_iff]
    exact accounted.places.unique cpu other
  case insertion =>
    intro msg locked isBiff enqueues
    have unlisted := ((accounted.inside isBiff).nowhere locked enqueues).2.1
    simpa using unlisted
  case lastRef =>
    intro zero
    obtain ⟨unscheduled, unreferred⟩ := accounted.references.unreferred zero
    refine ⟨?_, fun cpu place isAt => unreferred cpu place (role_eq_some.mpr isAt)⟩
    cases accounted.standing with
    | inl outside =>
        obtain ⟨gone, -⟩ | ⟨runnable, locked, -⟩ := outside.lock
        · exact .inl gone
        · exact .inr ⟨runnable, locked⟩
    | inr inside => exact absurd unscheduled inside.scheduled

theorem reachable_onePlace {state : Latching size Cpu}
    (reachable : (incarnations size Cpu).Reachable state) :
    ∃ items, state.lists.Represents () items ∧ ∀ elem, state.OnePlace items elem := by
  obtain ⟨items, refines, accounted⟩ := incarnations_agree reachable
  exact ⟨items, refines.represents (), fun elem => Latching.onePlace (accounted elem)⟩

end System

/-! ## One thread and two CPUs -/

private theorem single_fits : 1 < 2 ^ 32 := by decide

def singleSize : ArrSize := ⟨1, single_fits⟩

def onlyElem : singleSize.Elem := ⟨0, Nat.one_pos⟩

/-- A step, if it keeps the incarnations apart. -/
def Latching.performAlone (state : Latching singleSize Bool) (step : LatchStep singleSize Bool) :
    Option (Latching singleSize Bool) :=
  if state.EntersAlone step then state.perform step else none

/-- Zeroed maps. -/
def freshLatching : Latching singleSize Bool :=
  { lists := ⟨fun _ => ⟨0#32, 0#32⟩, fun _ => ⟨0#32, 0#32⟩⟩
    threads := fun _ =>
      { seqnum := 0, refcnt := 0, sched := .none, onRq := false, onCpu := false,
        pendingLatch := false, enqueued := false, known := false, court := .gone, barrier := 0,
        lock := .free, news := 0 }
    pnt := fun _ => none }

/-- The kernel sends a message, and its handler runs to its end. -/
def sendsOnly (msg : ThreadMsg Bool) (seqnum : Nat) : List (LatchStep singleSize Bool) :=
  [.message onlyElem msg seqnum, .lookup onlyElem, .op onlyElem, .store onlyElem,
    .finish onlyElem, .leave onlyElem]

theorem performAlone_step (state : Latching singleSize Bool) (step : LatchStep singleSize Bool)
    (next : Latching singleSize Bool) (taken : state.performAlone step = some next) :
    (incarnations singleSize Bool).step state step next := by
  unfold Latching.performAlone at taken
  split at taken
  · next alone => exact ⟨alone, taken⟩
  · cases taken

theorem incarnations_reachable {steps : List (LatchStep singleSize Bool)}
    {test : Latching singleSize Bool → Bool}
    (passed : (steps.foldlM Latching.performAlone freshLatching).any test = true) :
    ∃ state, (incarnations singleSize Bool).Reachable state ∧ test state = true := by
  obtain ⟨last, run, holds⟩ := Machine.Run.exists_of_any performAlone_step passed
  exact ⟨last, ⟨freshLatching, steps, ⟨rfl, fun _ => rfl, fun _ => rfl⟩, run⟩, holds⟩

/-- A PNT has the thread that it took off the queue. -/
theorem reachable_onePlace_held : ∃ state : Latching singleSize Bool,
    (incarnations singleSize Bool).Reachable state ∧ (state.threads onlyElem).lock = .free ∧
      (state.threads onlyElem).onRq = true ∧ (state.threads onlyElem).court = .runnable ∧
      (∃ cpu, state.Limbo onlyElem cpu) ∧
      ∃ items, state.lists.Represents () items ∧ state.OnePlace items onlyElem := by
  obtain ⟨state, reachable, holds⟩ := @incarnations_reachable (sendsOnly (.new true) 5 ++ [.pick true])
    (fun state => decide ((state.threads onlyElem).lock = .free ∧
      (state.threads onlyElem).onRq = true ∧ (state.threads onlyElem).court = .runnable ∧
      state.pnt true = some (onlyElem, .holding 5))) (by decide)
  obtain ⟨free, onRq, runnable, isAt⟩ := of_decide_eq_true holds
  obtain ⟨items, represents, onePlace⟩ := reachable_onePlace reachable
  exact ⟨state, reachable, free, onRq, runnable, ⟨true, 5, isAt⟩, items, represents,
    onePlace onlyElem⟩

end Ghost.Flux
