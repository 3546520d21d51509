import Ghost.Flux.Biff
import Ghost.Lib.Tally

/-!
# Biff's demand for CPUs

Biff's `nr_cpus_wanted` against the threads that are runnable or running. The two
part when a thread departs from within a SwitchTo chain, and only then, as long as
every thread that enters gets a structure of its own.
-/

set_option autoImplicit false

namespace Ghost.Flux

open Lib

variable {Gtid Slot Cpu : Type}

/-! ## What the handlers do to a known thread -/

namespace FluxState

variable {flux flux' : FluxState Gtid Slot Cpu} {slot : Slot}

/-- One thread gets a new `on_rq`, and biff asks for `delta` more CPUs. -/
structure Touched (flux flux' : FluxState Gtid Slot Cpu) (slot : Slot) (onRq : Bool)
    (delta : Int) : Prop where
  swLookup : flux'.swLookup = flux.swLookup
  latching : flux'.latching = flux.latching
  others : ∀ other, other ≠ slot → flux'.threads other = flux.threads other
  gtid : (flux'.threads slot).gtid = (flux.threads slot).gtid
  refcnt : (flux'.threads slot).refcnt = (flux.threads slot).refcnt
  sched : (flux'.threads slot).sched = (flux.threads slot).sched
  onRq : (flux'.threads slot).onRq = onRq
  nrCpusWanted : flux'.nrCpusWanted = flux.nrCpusWanted + delta

/-- A thread leaves biff, and its structure loses a reference. -/
structure Dropped [DecidableEq Gtid] (flux flux' : FluxState Gtid Slot Cpu) (slot : Slot)
    (delta : Int) : Prop where
  swLookup : flux'.swLookup =
    if (flux.threads slot).refcnt = 1 then
      Function.update flux.swLookup (flux.threads slot).gtid none
    else flux.swLookup
  latching : flux'.latching = flux.latching
  others : ∀ other, other ≠ slot → flux'.threads other = flux.threads other
  gtid : (flux'.threads slot).gtid = (flux.threads slot).gtid
  refcnt : (flux'.threads slot).refcnt = (flux.threads slot).refcnt - 1
  sched : (flux'.threads slot).sched = .none
  nrCpusWanted : flux'.nrCpusWanted = flux.nrCpusWanted + delta

/-- A thread gets a structure that was not in use. -/
structure Entered [DecidableEq Gtid] (flux flux' : FluxState Gtid Slot Cpu) (gtid : Gtid)
    (slot : Slot) (runnable : Bool) : Prop where
  swLookup : flux'.swLookup = Function.update flux.swLookup gtid (some slot)
  latching : flux'.latching = flux.latching
  others : ∀ other, other ≠ slot → flux'.threads other = flux.threads other
  named : (flux'.threads slot).gtid = gtid
  refcnt : (flux'.threads slot).refcnt = 1
  sched : (flux'.threads slot).sched = .biff
  onRq : (flux'.threads slot).onRq = runnable
  nrCpusWanted : flux'.nrCpusWanted = flux.nrCpusWanted + if runnable then 1 else 0

/-- A CPU begins or ends a pick of the thread. -/
structure Repinned [DecidableEq Gtid] [DecidableEq Cpu] (flux flux' : FluxState Gtid Slot Cpu)
    (slot : Slot) (cpu : Cpu) (choice : Option Slot) (delta : Int) : Prop where
  swLookup : flux'.swLookup =
    if (flux.threads slot).refcnt + delta = 0 then
      Function.update flux.swLookup (flux.threads slot).gtid none
    else flux.swLookup
  latching : flux'.latching = Function.update flux.latching cpu choice
  others : ∀ other, other ≠ slot → flux'.threads other = flux.threads other
  gtid : (flux'.threads slot).gtid = (flux.threads slot).gtid
  refcnt : (flux'.threads slot).refcnt = (flux.threads slot).refcnt + delta
  sched : (flux'.threads slot).sched = (flux.threads slot).sched
  onRq : (flux'.threads slot).onRq = (flux.threads slot).onRq
  nrCpusWanted : flux'.nrCpusWanted = flux.nrCpusWanted

private theorem Touched.refl (flux : FluxState Gtid Slot Cpu) (slot : Slot) :
    Touched flux flux slot (flux.threads slot).onRq 0 :=
  ⟨rfl, rfl, fun _ _ => rfl, rfl, rfl, rfl, rfl, (add_zero _).symm⟩

private theorem handleNew_entered [DecidableEq Gtid] [DecidableEq Slot] [Fintype Gtid] {gtid : Gtid}
    (slot : Slot) (enters : flux.enters gtid = true) (seqnum : Nat) (nice : Int) (runnable : Bool) :
    Entered flux (flux.handleNew seqnum gtid slot nice runnable) gtid slot runnable := by
  cases runnable <;> constructor <;>
    simp +contextual [handleNew, enters, fluxJoinScheduler, threadOpThr, update, biffThreadNew,
      fluxRequestCpus]

private theorem fluxPrepareToRun_repinned [DecidableEq Gtid] [DecidableEq Slot] [DecidableEq Cpu]
    (positive : 0 < (flux.threads slot).refcnt) (cpu : Cpu) :
    Repinned flux (flux.fluxPrepareToRun slot cpu) slot cpu (some slot) 1 := by
  have more : ¬(flux.threads slot).refcnt + 1 = 0 := by omega
  constructor <;>
    simp +contextual [fluxPrepareToRun, fluxThreadIncref, update, more]

private theorem fluxRunThread_repinned [DecidableEq Gtid] [DecidableEq Slot] [DecidableEq Cpu]
    (cpu : Cpu)
    (latched : Bool) :
    Repinned flux (flux.fluxRunThread slot cpu latched) slot cpu none (-1) := by
  by_cases last : (flux.threads slot).refcnt = 1 <;> cases latched <;> constructor <;>
    simp +contextual [fluxRunThread, fluxThreadDecref, update, last, sub_eq_zero,
      ← sub_eq_add_neg]

section Known

variable [DecidableEq Slot] {gtid : Gtid} (known : flux.swLookup gtid = some slot)
  (isBiff : (flux.threads slot).sched = .biff) (seqnum : Nat)
include known isBiff

private theorem handleOnCpu_touched :
    Touched flux (flux.handleOnCpu seqnum gtid) slot (flux.threads slot).onRq 0 := by
  constructor <;>
    simp +contextual [handleOnCpu, threadOp, known, threadOpThr, isBiff, update]

private theorem handleBlocked_touched :
    Touched flux (flux.handleBlocked seqnum gtid) slot false (-1) := by
  constructor <;>
    simp +contextual [handleBlocked, threadOp, known, threadOpThr, isBiff, update,
      biffThreadBlocked, fluxRequestCpus]

private theorem handleWakeup_touched :
    Touched flux (flux.handleWakeup seqnum gtid) slot true 1 := by
  constructor <;>
    simp +contextual [handleWakeup, threadOp, known, threadOpThr, isBiff, update,
      biffThreadWakeup, fluxRequestCpus]

private theorem handleOffCpu_touched (fromSwitchto : Bool) :
    Touched flux (flux.handleOffCpu seqnum gtid fromSwitchto) slot
      (fromSwitchto || (flux.threads slot).onRq) 0 := by
  constructor <;>
    simp +contextual [handleOffCpu, threadOp, known, threadOpThr, isBiff, update]

private theorem handleSwitchto_touched :
    Touched flux (flux.handleSwitchto seqnum gtid) slot false 0 := by
  constructor <;>
    simp +contextual [handleSwitchto, threadOp, known, threadOpThr, isBiff, update]

private theorem handleLatchFailure_touched :
    Touched flux (flux.handleLatchFailure seqnum gtid) slot (flux.threads slot).onRq 0 := by
  cases pending : (flux.threads slot).pendingLatch <;> constructor <;>
    simp +contextual [handleLatchFailure, known, pending, threadOpThr, isBiff, update]

variable [DecidableEq Gtid]

private theorem handleDead_dropped : Dropped flux (flux.handleDead seqnum gtid) slot 0 := by
  by_cases last : (flux.threads slot).refcnt = 1 <;> constructor <;>
    simp +contextual [handleDead, threadOp, known, threadOpThr, isBiff, update,
      fluxThreadDecref, last, sub_eq_zero]

private theorem handleDeparted_dropped :
    Dropped flux (flux.handleDeparted seqnum gtid) slot
      (if (flux.threads slot).onRq then -1 else 0) := by
  by_cases last : (flux.threads slot).refcnt = 1 <;>
    cases queued : (flux.threads slot).onRq <;> constructor <;>
    simp +contextual [handleDeparted, threadOp, known, threadOpThr, isBiff, update,
      fluxThreadDecref, biffThreadDeparted, fluxRequestCpus, last, queued, sub_eq_zero]

end Known

end FluxState

/-- A thread departs from within a chain. -/
def Event.strays : Event Gtid Slot Cpu → Bool
  | .message _ (.departed _ fromSwitchto _) => fromSwitchto
  | _ => false

/-! ## The invariant -/

/-- The threads that biff has been told to run. -/
def Status.onRq : Status → Bool
  | .runnable | .running => true
  | .absent | .blocked | .chained => false

namespace Enclave

variable [Fintype Cpu]

/-- The references that picks in progress hold. -/
def pins [DecidableEq Slot] (enclave : Enclave Gtid Slot Cpu) (slot : Slot) : Nat :=
  tally fun cpu => enclave.flux.latching cpu = some slot

/-- What the structure of a thread says. -/
structure Describes [DecidableEq Slot] (enclave : Enclave Gtid Slot Cpu) (gtid : Gtid)
    (slot : Slot) : Prop where
  named : (enclave.flux.threads slot).gtid = gtid
  positive : 0 < (enclave.flux.threads slot).refcnt
  refcnt : (enclave.flux.threads slot).refcnt =
    enclave.pins slot + unit (enclave.statuses gtid ≠ .absent)
  sched : (enclave.flux.threads slot).sched = .biff ↔ enclave.statuses gtid ≠ .absent
  onRq : enclave.statuses gtid ≠ .absent →
    (enclave.flux.threads slot).onRq = (enclave.statuses gtid).onRq

structure Tracked [DecidableEq Slot] (enclave : Enclave Gtid Slot Cpu) : Prop where
  described : ∀ gtid slot, enclave.flux.swLookup gtid = some slot → enclave.Describes gtid slot
  known : ∀ gtid, enclave.statuses gtid ≠ .absent → ∃ slot, enclave.flux.swLookup gtid = some slot
  held : ∀ cpu slot, enclave.flux.latching cpu = some slot →
    enclave.flux.swLookup (enclave.flux.threads slot).gtid = some slot

variable [DecidableEq Slot] {enclave : Enclave Gtid Slot Cpu}

private theorem Tracked.slot_ne (tracked : enclave.Tracked) {gtid other : Gtid} {slot slot' : Slot}
    (isSlot : enclave.flux.swLookup gtid = some slot)
    (isSlot' : enclave.flux.swLookup other = some slot') (ne : other ≠ gtid) : slot' ≠ slot := by
  intro same
  have named := (tracked.described _ _ isSlot').named
  rw [same, (tracked.described _ _ isSlot).named] at named
  exact ne named.symm

private theorem Describes.frame {next : Enclave Gtid Slot Cpu} {gtid : Gtid} {slot : Slot}
    (describes : enclave.Describes gtid slot)
    (sameThread : next.flux.threads slot = enclave.flux.threads slot)
    (samePins : next.pins slot = enclave.pins slot)
    (sameStatus : next.statuses gtid = enclave.statuses gtid) : next.Describes gtid slot := by
  constructor
  · rw [sameThread]
    exact describes.named
  · rw [sameThread]
    exact describes.positive
  · rw [sameThread, samePins, describes.refcnt]
    exact congrArg _ (unit_congr (by rw [sameStatus]))
  · rw [sameThread, sameStatus]
    exact describes.sched
  · rw [sameThread, sameStatus]
    exact describes.onRq

/-- An event about one thread, with the structure that is or becomes its own. -/
structure About (enclave next : Enclave Gtid Slot Cpu) (gtid : Gtid) (slot : Slot) : Prop where
  threads : ∀ other, other ≠ slot → next.flux.threads other = enclave.flux.threads other
  lookups : ∀ other, other ≠ gtid → next.flux.swLookup other = enclave.flux.swLookup other
  statuses : ∀ other, other ≠ gtid → next.statuses other = enclave.statuses other
  latching : ∀ cpu other, other ≠ slot →
    (next.flux.latching cpu = some other ↔ enclave.flux.latching cpu = some other)
  named : (next.flux.threads slot).gtid = gtid
  before : ∀ other, enclave.flux.swLookup gtid = some other → other = slot
  after : ∀ other, next.flux.swLookup gtid = some other → other = slot
  alone : ∀ other, other ≠ gtid → enclave.flux.swLookup other ≠ some slot

theorem Tracked.step (tracked : enclave.Tracked) {next : Enclave Gtid Slot Cpu} (gtid : Gtid)
    (slot : Slot) (about : enclave.About next gtid slot)
    (described : next.flux.swLookup gtid = some slot → next.Describes gtid slot)
    (forgotten : next.flux.swLookup gtid = none →
      next.statuses gtid = .absent ∧ ∀ cpu, next.flux.latching cpu ≠ some slot) :
    next.Tracked := by
  constructor
  · intro other slot' isSlot
    by_cases same : other = gtid
    · subst same
      obtain rfl := about.after slot' isSlot
      exact described isSlot
    · rw [about.lookups other same] at isSlot
      have apart : slot' ≠ slot := by
        rintro rfl
        exact about.alone other same isSlot
      apply (tracked.described other slot' isSlot).frame
      · exact about.threads slot' apart
      · exact tally_congr fun cpu => about.latching cpu slot' apart
      · exact about.statuses other same
  · intro other present
    by_cases same : other = gtid
    · subst same
      cases isSlot : next.flux.swLookup other with
      | none => exact absurd (forgotten isSlot).1 present
      | some slot' => exact ⟨slot', rfl⟩
    · rw [about.statuses other same] at present
      rw [about.lookups other same]
      exact tracked.known other present
  · intro cpu slot' holds
    by_cases same : slot' = slot
    · subst same
      rw [about.named]
      cases isSlot : next.flux.swLookup gtid with
      | none => exact absurd holds ((forgotten isSlot).2 cpu)
      | some other => rw [about.after other isSlot]
    · have isSlot := tracked.held cpu slot' ((about.latching cpu slot' same).mp holds)
      have apart : (enclave.flux.threads slot').gtid ≠ gtid := by
        intro named
        rw [named] at isSlot
        exact same (about.before slot' isSlot)
      rw [about.threads slot' same, about.lookups _ apart]
      exact isSlot

private theorem Tracked.about_known (tracked : enclave.Tracked) {next : Enclave Gtid Slot Cpu}
    {gtid : Gtid} {slot : Slot} (isSlot : enclave.flux.swLookup gtid = some slot)
    (threads : ∀ other, other ≠ slot → next.flux.threads other = enclave.flux.threads other)
    (named : (next.flux.threads slot).gtid = (enclave.flux.threads slot).gtid)
    (lookups : ∀ other, next.flux.swLookup other = enclave.flux.swLookup other ∨
      other = gtid ∧ next.flux.swLookup other = none)
    (statuses : ∀ other, other ≠ gtid → next.statuses other = enclave.statuses other)
    (latching : ∀ cpu other, other ≠ slot →
      (next.flux.latching cpu = some other ↔ enclave.flux.latching cpu = some other)) :
    enclave.About next gtid slot := by
  constructor
  · exact threads
  · intro other ne
    rcases lookups other with same | gone
    · exact same
    · exact absurd gone.1 ne
  · exact statuses
  · exact latching
  · exact named.trans (tracked.described gtid slot isSlot).named
  · intro other isOther
    exact Option.some.inj (isOther.symm.trans isSlot)
  · intro other isOther
    rcases lookups gtid with same | gone
    · exact Option.some.inj ((isOther.symm.trans same).trans isSlot)
    · cases isOther.symm.trans gone.2
  · intro other ne isOther
    exact tracked.slot_ne isSlot isOther ne rfl

private theorem Tracked.touched [DecidableEq Gtid] (tracked : enclave.Tracked) {gtid : Gtid}
    {slot : Slot}
    (isSlot : enclave.flux.swLookup gtid = some slot) (present : enclave.statuses gtid ≠ .absent)
    {status : Status} (remains : status ≠ .absent) {flux : FluxState Gtid Slot Cpu} {delta : Int}
    (touched : enclave.flux.Touched flux slot status.onRq delta) :
    Tracked { statuses := Function.update enclave.statuses gtid status, flux := flux } := by
  have described := tracked.described gtid slot isSlot
  apply tracked.step gtid slot
  · apply tracked.about_known isSlot touched.others touched.gtid
    · exact fun other => .inl (congrFun touched.swLookup other)
    · exact fun other ne => Function.update_of_ne ne _ _
    · exact fun cpu other _ => by rw [touched.latching]
  · intro _
    constructor
    · exact touched.gtid.trans described.named
    · exact touched.refcnt ▸ described.positive
    · rw [touched.refcnt, described.refcnt]
      simp [pins, touched.latching, present, remains]
    · simp [touched.sched, remains, described.sched.mpr present]
    · intro _
      simp [touched.onRq]
  · intro unknown
    rw [touched.swLookup, isSlot] at unknown
    cases unknown

private theorem Tracked.restatus [DecidableEq Gtid] (tracked : enclave.Tracked) {gtid : Gtid}
    (present : enclave.statuses gtid ≠ .absent) {status : Status} (remains : status ≠ .absent)
    (same : status.onRq = (enclave.statuses gtid).onRq) :
    Tracked { enclave with statuses := Function.update enclave.statuses gtid status } := by
  obtain ⟨slot, isSlot⟩ := tracked.known gtid present
  apply tracked.touched isSlot present remains
  rw [same, ← (tracked.described gtid slot isSlot).onRq present]
  exact .refl _ slot

private theorem Tracked.dropped [DecidableEq Gtid] (tracked : enclave.Tracked) {gtid : Gtid}
    {slot : Slot}
    (isSlot : enclave.flux.swLookup gtid = some slot) (present : enclave.statuses gtid ≠ .absent)
    {flux : FluxState Gtid Slot Cpu} {delta : Int}
    (dropped : enclave.flux.Dropped flux slot delta) :
    Tracked { statuses := Function.update enclave.statuses gtid .absent, flux := flux } := by
  have described := tracked.described gtid slot isSlot
  have refcnt := described.refcnt
  rw [unit_true present] at refcnt
  have lookup := dropped.swLookup
  rw [described.named] at lookup
  apply tracked.step gtid slot
  · apply tracked.about_known isSlot dropped.others dropped.gtid
    · intro other
      dsimp only
      rw [lookup]
      split
      · by_cases same : other = gtid
        · exact .inr ⟨same, same ▸ Function.update_self _ _ _⟩
        · exact .inl (Function.update_of_ne same _ _)
      · exact .inl rfl
    · exact fun other ne => Function.update_of_ne ne _ _
    · exact fun cpu other _ => by rw [dropped.latching]
  · intro kept
    have notLast : (enclave.flux.threads slot).refcnt ≠ 1 := by
      intro last
      dsimp only at kept
      rw [lookup, if_pos last, Function.update_self] at kept
      cases kept
    constructor
    · exact dropped.gtid.trans described.named
    · have := described.positive
      have := dropped.refcnt
      dsimp only
      omega
    · rw [dropped.refcnt, refcnt]
      simp [pins, dropped.latching]
    · simp [dropped.sched]
    · simp
  · intro unknown
    refine ⟨Function.update_self _ _ _, ?_⟩
    intro cpu holds
    dsimp only at unknown holds
    rw [dropped.latching] at holds
    have pinned : 0 < enclave.pins slot := tally_pos holds
    have notLast : (enclave.flux.threads slot).refcnt ≠ 1 := by omega
    rw [lookup, if_neg notLast, isSlot] at unknown
    cases unknown

private theorem Tracked.entered [DecidableEq Gtid] (tracked : enclave.Tracked) {gtid : Gtid}
    {slot : Slot}
    (unknown : enclave.flux.swLookup gtid = none)
    (unused : (enclave.flux.threads slot).refcnt = 0)
    {status : Status} (present : status ≠ .absent) {flux : FluxState Gtid Slot Cpu}
    (entered : enclave.flux.Entered flux gtid slot status.onRq) :
    Tracked { statuses := Function.update enclave.statuses gtid status, flux := flux } := by
  have apart : ∀ other, enclave.flux.swLookup other ≠ some slot := by
    intro other isSlot
    have := (tracked.described other _ isSlot).positive
    omega
  have unpinned : tally (fun cpu => flux.latching cpu = some slot) = 0 := by
    rw [entered.latching]
    by_contra pinned
    obtain ⟨cpu, holds⟩ := exists_of_tally_pos (Nat.pos_of_ne_zero pinned)
    exact apart _ (tracked.held cpu slot holds)
  have isSlot : flux.swLookup gtid = some slot := by
    rw [entered.swLookup, Function.update_self]
  apply tracked.step gtid slot
  · constructor
    · exact entered.others
    · intro other ne
      dsimp only
      rw [entered.swLookup, Function.update_of_ne ne]
    · exact fun other ne => Function.update_of_ne ne _ _
    · exact fun cpu other _ => by rw [entered.latching]
    · exact entered.named
    · intro other isOther
      cases unknown.symm.trans isOther
    · intro other isOther
      exact Option.some.inj (isOther.symm.trans isSlot)
    · exact fun other _ => apart other
  · intro _
    constructor
    · exact entered.named
    · simp [entered.refcnt]
    · simp [entered.refcnt, pins, unpinned, present]
    · simp [entered.sched, present]
    · simp [entered.onRq]
  · intro forgotten
    cases forgotten.symm.trans isSlot

section Picks

variable [DecidableEq Cpu] {cpu : Cpu} {slot : Slot}

private theorem pins_update {next : Enclave Gtid Slot Cpu} {choice : Option Slot}
    (latching : next.flux.latching = Function.update enclave.flux.latching cpu choice)
    (slot : Slot) : (next.pins slot : Int) =
      enclave.pins slot - unit (enclave.flux.latching cpu = some slot) +
        unit (choice = some slot) := by
  have chosen : unit (choice = some slot) = unit (next.flux.latching cpu = some slot) := by
    rw [latching, Function.update_self]
  rw [chosen]
  apply tally_change
  intro other ne
  rw [latching, Function.update_of_ne ne]

/-- A pick takes a reference, and its end gives it back. -/
theorem Tracked.repinned [DecidableEq Gtid] (tracked : enclave.Tracked)
    (isSlot : enclave.flux.swLookup (enclave.flux.threads slot).gtid = some slot)
    {choice : Option Slot} {flux : FluxState Gtid Slot Cpu} {delta : Int}
    (repinned : enclave.flux.Repinned flux slot cpu choice delta)
    (delta_eq : delta = unit (choice = some slot) - unit (enclave.flux.latching cpu = some slot))
    (others : ∀ other, other ≠ slot →
      choice ≠ some other ∧ enclave.flux.latching cpu ≠ some other) :
    Tracked { enclave with flux := flux } := by
  have described := tracked.described _ slot isSlot
  have pinned : (pins { enclave with flux := flux } slot : Int) = enclave.pins slot -
      unit (enclave.flux.latching cpu = some slot) + unit (choice = some slot) :=
    pins_update repinned.latching slot
  have refcnt := repinned.refcnt
  have nonneg := described.positive
  have counted := described.refcnt
  apply tracked.step (enclave.flux.threads slot).gtid slot
  · apply tracked.about_known isSlot repinned.others repinned.gtid
    · intro other
      dsimp only
      rw [repinned.swLookup]
      split
      · by_cases same : other = (enclave.flux.threads slot).gtid
        · exact .inr ⟨same, same ▸ Function.update_self _ _ _⟩
        · exact .inl (Function.update_of_ne same _ _)
      · exact .inl rfl
    · exact fun other _ => rfl
    · intro other slot' ne
      dsimp only
      rw [repinned.latching]
      by_cases same : other = cpu
      · subst same
        rw [Function.update_self]
        exact iff_of_false (others slot' ne).1 (others slot' ne).2
      · rw [Function.update_of_ne same]
  · intro kept
    have more : (enclave.flux.threads slot).refcnt + delta ≠ 0 := by
      intro last
      dsimp only at kept
      rw [repinned.swLookup, if_pos last, Function.update_self] at kept
      cases kept
    have bound : -1 ≤ delta := by
      rw [delta_eq]
      unfold unit
      split <;> split <;> omega
    constructor
    · exact repinned.gtid
    · dsimp only
      omega
    · rw [pinned]
      dsimp only
      omega
    · dsimp only
      rw [repinned.sched]
      exact described.sched
    · dsimp only
      rw [repinned.onRq]
      exact described.onRq
  · intro unknown
    have last : (enclave.flux.threads slot).refcnt + delta = 0 := by
      by_contra more
      dsimp only at unknown
      rw [repinned.swLookup, if_neg more, isSlot] at unknown
      cases unknown
    have nonneg : 0 ≤ unit (enclave.statuses (enclave.flux.threads slot).gtid ≠ .absent) := by
      unfold unit
      split <;> omega
    constructor
    · by_contra present
      rw [unit_true present] at counted
      omega
    · intro other holds
      have : 0 < pins { enclave with flux := flux } slot := tally_pos holds
      omega

end Picks

/-! ## The load -/

variable [Fintype Gtid] [DecidableEq Gtid]

/-- The threads that are runnable or running, an active chain as one. -/
def load (enclave : Enclave Gtid Slot Cpu) : Nat := tally fun gtid => (enclave.statuses gtid).loads

/-- What biff wants beyond the load. -/
def surplus (enclave : Enclave Gtid Slot Cpu) : Int := enclave.flux.nrCpusWanted - enclave.load

omit [Fintype Cpu] [DecidableEq Slot] in
private theorem surplus_update {enclave : Enclave Gtid Slot Cpu} {gtid : Gtid} {current : Status}
    (isCurrent : enclave.statuses gtid = current) (status : Status)
    {flux : FluxState Gtid Slot Cpu} {delta : Int}
    (wanted : flux.nrCpusWanted = enclave.flux.nrCpusWanted + delta) :
    surplus { statuses := Function.update enclave.statuses gtid status, flux := flux } =
      enclave.surplus + delta + unit current.loads - unit status.loads := by
  subst isCurrent
  have changed :
      (load { statuses := Function.update enclave.statuses gtid status, flux := flux } : Int) =
        enclave.load - unit (enclave.statuses gtid).loads +
          unit (Function.update enclave.statuses gtid status gtid).loads := by
    apply tally_change
    intro other ne
    dsimp only
    rw [Function.update_of_ne ne]
  rw [Function.update_self] at changed
  unfold surplus
  rw [changed, wanted]
  ring

/-- The invariant is kept, and biff wants `gain` CPUs more beyond the load. -/
def Moves (enclave next : Enclave Gtid Slot Cpu) (gain : Int) : Prop :=
  next.Tracked ∧ next.surplus = enclave.surplus + gain

private theorem Tracked.moves_touched (tracked : enclave.Tracked) {gtid : Gtid} {slot : Slot}
    (isSlot : enclave.flux.swLookup gtid = some slot) {current status : Status}
    (isCurrent : enclave.statuses gtid = current) (present : current ≠ .absent)
    (remains : status ≠ .absent) {flux : FluxState Gtid Slot Cpu} {onRq : Bool} {delta : Int}
    (touched : enclave.flux.Touched flux slot onRq delta) (sameRq : onRq = status.onRq)
    (balance : delta = unit status.loads - unit current.loads) :
    enclave.Moves { statuses := Function.update enclave.statuses gtid status, flux := flux } 0 := by
  subst isCurrent sameRq
  refine ⟨tracked.touched isSlot present remains touched, ?_⟩
  rw [surplus_update rfl status touched.nrCpusWanted, balance]
  ring

private theorem Tracked.moves_dropped (tracked : enclave.Tracked) {gtid : Gtid} {slot : Slot}
    (isSlot : enclave.flux.swLookup gtid = some slot) (present : enclave.statuses gtid ≠ .absent)
    {flux : FluxState Gtid Slot Cpu} {delta : Int}
    (dropped : enclave.flux.Dropped flux slot delta) :
    enclave.Moves { statuses := Function.update enclave.statuses gtid .absent, flux := flux }
      (delta + unit (enclave.statuses gtid).loads) := by
  refine ⟨tracked.dropped isSlot present dropped, ?_⟩
  rw [surplus_update rfl .absent dropped.nrCpusWanted]
  simp [Status.loads, unit]
  ring

/-- Every message but NEW and SWITCHTO. -/
theorem Tracked.message (tracked : enclave.Tracked) (seqnum : Nat) {msg : Message Gtid Slot}
    (known : ∀ gtid index nice runnable, msg ≠ .new gtid index nice runnable) {status : Status}
    (legal : Status.after (enclave.statuses msg.gtid) msg = some status) :
    enclave.Moves
      { statuses := Function.update enclave.statuses msg.gtid status
        flux := enclave.flux.fluxMsgSend seqnum msg }
      (unit (Event.strays (.message seqnum msg : Event Gtid Slot Cpu))) := by
  have present : enclave.statuses msg.gtid ≠ .absent := by
    intro absent
    rw [absent] at legal
    cases msg with
    | new gtid index nice runnable => exact known gtid index nice runnable rfl
    | blocked gtid fromSwitchto => cases fromSwitchto <;> simp [Status.after] at legal
    | yield gtid fromSwitchto => cases fromSwitchto <;> simp [Status.after] at legal
    | preempt gtid fromSwitchto wasLatched =>
        cases fromSwitchto <;> cases wasLatched <;> simp [Status.after] at legal
    | _ => simp [Status.after] at legal
  obtain ⟨slot, isSlot⟩ := tracked.known msg.gtid present
  have described := tracked.described _ slot isSlot
  have isBiff := described.sched.mpr present
  have onRq := described.onRq present
  cases msg with
  | new gtid index nice runnable => exact absurd rfl (known gtid index nice runnable)
  | onCpu gtid =>
      have touched := FluxState.handleOnCpu_touched isSlot isBiff seqnum
      cases current : enclave.statuses gtid <;> simp [Status.after, Message.gtid, current] at legal
      subst legal
      rw [onRq] at touched
      exact tracked.moves_touched isSlot current (by decide) (by decide) touched
        (by simp [Message.gtid, current, Status.onRq]) rfl
  | blocked gtid fromSwitchto =>
      have touched := FluxState.handleBlocked_touched isSlot isBiff seqnum
      cases fromSwitchto <;> cases current : enclave.statuses gtid <;>
        simp [Status.after, Message.gtid, current] at legal <;> subst legal <;>
        exact tracked.moves_touched isSlot current (by decide) (by decide) touched rfl rfl
  | wakeup gtid =>
      have touched := FluxState.handleWakeup_touched isSlot isBiff seqnum
      cases current : enclave.statuses gtid <;> simp [Status.after, Message.gtid, current] at legal
      subst legal
      exact tracked.moves_touched isSlot current (by decide) (by decide) touched rfl rfl
  | preempt gtid fromSwitchto wasLatched =>
      have touched := FluxState.handleOffCpu_touched isSlot isBiff seqnum fromSwitchto
      rw [onRq] at touched
      cases fromSwitchto <;> cases wasLatched <;> cases current : enclave.statuses gtid <;>
        simp [Status.after, Message.gtid, current] at legal <;> subst legal <;>
        exact tracked.moves_touched isSlot current (by decide) (by decide) touched
          (by simp [Message.gtid, current, Status.onRq]) rfl
  | yield gtid fromSwitchto =>
      have touched := FluxState.handleOffCpu_touched isSlot isBiff seqnum fromSwitchto
      rw [onRq] at touched
      cases fromSwitchto <;> cases current : enclave.statuses gtid <;>
        simp [Status.after, Message.gtid, current] at legal <;> subst legal <;>
        exact tracked.moves_touched isSlot current (by decide) (by decide) touched
          (by simp [Message.gtid, current, Status.onRq]) rfl
  | switchto gtid => simp [Status.after] at legal
  | latchFailure gtid =>
      have touched := FluxState.handleLatchFailure_touched isSlot isBiff seqnum
      rw [onRq] at touched
      simp only [Status.after, if_neg present, Option.some.injEq] at legal
      exact tracked.moves_touched isSlot rfl present (legal ▸ present) touched
        (by rw [legal]) (by rw [legal, sub_self])
  | departed gtid fromSwitchto wasCurrent =>
      have dropped := FluxState.handleDeparted_dropped isSlot isBiff seqnum
      rw [onRq] at dropped
      have moves := tracked.moves_dropped isSlot present dropped
      cases current : enclave.statuses gtid <;>
        simp [Status.after, Message.gtid, current] at legal <;>
        obtain ⟨⟨rfl, rfl⟩, rfl⟩ := legal <;>
        simpa [Message.gtid, current, Status.onRq, Status.loads, unit, Event.strays,
          FluxState.fluxMsgSend] using moves
  | dead gtid =>
      have moves := tracked.moves_dropped isSlot present
        (FluxState.handleDead_dropped isSlot isBiff seqnum)
      cases current : enclave.statuses gtid <;> simp [Status.after, Message.gtid, current] at legal
      subst legal
      simpa [Message.gtid, current, Status.loads, unit, Event.strays, FluxState.fluxMsgSend]
        using moves

/-- A repeated NEW, as of a thread that joins during Discovery, is ignored. -/
theorem Tracked.repeated (tracked : enclave.Tracked) (seqnum : Nat) {gtid : Gtid}
    (present : enclave.statuses gtid ≠ .absent) (index : Slot) (nice : Int) (runnable : Bool) :
    enclave.flux.handleNew seqnum gtid index nice runnable = enclave.flux := by
  obtain ⟨slot, isSlot⟩ := tracked.known gtid present
  simp [FluxState.handleNew, FluxState.enters, isSlot]

/-- A thread that enters gets an entry in `sw_lookup` and a structure that is not in use. -/
def Admits (enclave : Enclave Gtid Slot Cpu) : Event Gtid Slot Cpu → Prop
  | .message _ (.new gtid index _ _) => enclave.statuses gtid = .absent →
      enclave.flux.enters gtid = true ∧ (enclave.flux.threads index).refcnt = 0
  | _ => True

private theorem Tracked.new (tracked : enclave.Tracked) (seqnum : Nat) {gtid : Gtid} {index : Slot}
    {nice : Int} {runnable : Bool}
    (admits : enclave.Admits (.message seqnum (.new gtid index nice runnable))) {status : Status}
    (legal : Status.after (enclave.statuses gtid)
      (.new gtid index nice runnable : Message Gtid Slot) = some status) :
    enclave.Moves
      { statuses := Function.update enclave.statuses gtid status
        flux := enclave.flux.handleNew seqnum gtid index nice runnable } 0 := by
  by_cases absent : enclave.statuses gtid = .absent
  · obtain ⟨enters, unused⟩ := admits absent
    have unknown : enclave.flux.swLookup gtid = none := by
      simp only [FluxState.enters, Bool.and_eq_true, Option.isNone_iff_eq_none] at enters
      exact enters.1
    have entered := FluxState.handleNew_entered index enters seqnum nice runnable
    have wanted := entered.nrCpusWanted
    cases runnable <;> simp [Status.after, absent] at legal <;> subst legal <;>
      refine ⟨tracked.entered unknown unused (by decide) entered, ?_⟩ <;>
      rw [surplus_update absent _ wanted] <;> simp [Status.loads, unit]
  · rw [tracked.repeated seqnum absent]
    have same : status = enclave.statuses gtid := by
      cases current : enclave.statuses gtid <;> simp_all [Status.after]
    rw [same, Function.update_eq_self]
    exact ⟨tracked, (add_zero _).symm⟩

private theorem Tracked.switched (tracked : enclave.Tracked) {gtid target : Gtid} {slot : Slot}
    (isSlot : enclave.flux.swLookup gtid = some slot) {current : Status}
    (isCurrent : enclave.statuses gtid = current) (loads : current.loads = true)
    (waiting : enclave.statuses target = .blocked) {flux : FluxState Gtid Slot Cpu}
    (touched : enclave.flux.Touched flux slot false 0) :
    enclave.Moves { statuses := switched enclave.statuses gtid target, flux := flux } 0 := by
  have present : enclave.statuses gtid ≠ .absent := by
    intro absent
    rw [← isCurrent, absent] at loads
    cases loads
  have first : Tracked
      { statuses := Function.update enclave.statuses gtid .blocked, flux := flux } :=
    tracked.touched isSlot present (by decide) touched
  have waits : Function.update enclave.statuses gtid .blocked target = .blocked := by
    by_cases same : target = gtid
    · rw [same, Function.update_self]
    · rw [Function.update_of_ne same, waiting]
  refine ⟨first.restatus (by simp [waits]) (by decide) (by simp [waits, Status.onRq]), ?_⟩
  have firstSurplus :
      surplus { statuses := Function.update enclave.statuses gtid .blocked, flux := flux } =
        enclave.surplus + 1 := by
    rw [surplus_update isCurrent .blocked touched.nrCpusWanted, unit_true loads]
    simp [unit, Status.loads]
  let middle : Enclave Gtid Slot Cpu :=
    { statuses := Function.update enclave.statuses gtid .blocked, flux := flux }
  have waits' : middle.statuses target = .blocked := waits
  have secondSurplus := surplus_update waits' .chained (add_zero middle.flux.nrCpusWanted).symm
  apply secondSurplus.trans
  rw [firstSurplus]
  simp [unit, Status.loads]

private theorem Tracked.perform [DecidableEq Cpu] (tracked : enclave.Tracked)
    {event : Event Gtid Slot Cpu} (admits : enclave.Admits event) {next : Enclave Gtid Slot Cpu}
    (performed : enclave.perform event = some next) : enclave.Moves next (unit event.strays) := by
  cases event with
  | message seqnum msg =>
      simp only [Enclave.perform, Option.map_eq_some_iff] at performed
      obtain ⟨status, legal, rfl⟩ := performed
      by_cases isNew : ∃ gtid index nice runnable, msg = .new gtid index nice runnable
      · obtain ⟨gtid, index, nice, runnable, rfl⟩ := isNew
        exact tracked.new seqnum admits legal
      · apply tracked.message seqnum _ legal
        intro gtid index nice runnable isNew'
        exact isNew ⟨gtid, index, nice, runnable, isNew'⟩
  | switchto seqnum gtid target =>
      simp only [Enclave.perform, Option.ite_none_right_eq_some, Option.some.injEq] at performed
      obtain ⟨⟨running, waiting⟩, rfl⟩ := performed
      have present : enclave.statuses gtid ≠ .absent := by simp [running]
      obtain ⟨slot, isSlot⟩ := tracked.known gtid present
      have isBiff := (tracked.described gtid slot isSlot).sched.mpr present
      exact tracked.switched isSlot running rfl waiting
        (FluxState.handleSwitchto_touched isSlot isBiff seqnum)
  | switch gtid target =>
      simp only [Enclave.perform, Option.ite_none_right_eq_some, Option.some.injEq] at performed
      obtain ⟨⟨chained, waiting⟩, rfl⟩ := performed
      have present : enclave.statuses gtid ≠ .absent := by simp [chained]
      obtain ⟨slot, isSlot⟩ := tracked.known gtid present
      have touched := FluxState.Touched.refl enclave.flux slot
      rw [(tracked.described gtid slot isSlot).onRq present, chained] at touched
      exact tracked.switched isSlot chained rfl waiting touched
  | prepare cpu slot =>
      simp only [Enclave.perform, Option.ite_none_right_eq_some, Option.some.injEq] at performed
      obtain ⟨⟨free, _, isSlot⟩, rfl⟩ := performed
      have positive := (tracked.described _ slot isSlot).positive
      have repinned := FluxState.fluxPrepareToRun_repinned positive cpu
      refine ⟨tracked.repinned isSlot repinned (by simp [free, unit]) ?_, ?_⟩
      · intro other ne
        exact ⟨fun same => ne (Option.some.inj same).symm, by simp [free]⟩
      · simp [surplus, repinned.nrCpusWanted, load, Event.strays, unit]
  | run cpu slot latched =>
      simp only [Enclave.perform, Option.ite_none_right_eq_some, Option.some.injEq] at performed
      obtain ⟨holds, rfl⟩ := performed
      have isSlot := tracked.held cpu slot holds
      have repinned : enclave.flux.Repinned _ slot cpu none (-1) :=
        FluxState.fluxRunThread_repinned cpu latched
      refine ⟨tracked.repinned isSlot repinned (by simp [holds, unit]) ?_, ?_⟩
      · intro other ne
        exact ⟨by simp, fun same => ne (Option.some.inj (same.symm.trans holds))⟩
      · simp [surplus, repinned.nrCpusWanted, load, Event.strays, unit]

omit [Fintype Gtid] [DecidableEq Gtid] in
private theorem Initial.tracked {first : Enclave Gtid Slot Cpu} (initial : first.Initial) :
    first.Tracked := by
  obtain ⟨absent, unknown, _, free, _⟩ := initial
  constructor
  · intro gtid slot isSlot
    cases (unknown gtid).symm.trans isSlot
  · intro gtid present
    exact absurd (absent gtid) present
  · intro cpu slot holds
    cases (free cpu).symm.trans holds

omit [Fintype Cpu] [DecidableEq Slot] [DecidableEq Gtid] in
private theorem Initial.surplus {first : Enclave Gtid Slot Cpu} (initial : first.Initial) :
    first.surplus = 0 := by
  obtain ⟨absent, _, _, _, wanted⟩ := initial
  simp [Enclave.surplus, load, tally, wanted, absent, Status.loads]

end Enclave

section Runs

variable [Fintype Cpu] [Fintype Gtid] [DecidableEq Gtid] [DecidableEq Slot] [DecidableEq Cpu]

/-- The histories in which every thread that enters gets a structure of its own. -/
def admitted (Gtid Slot Cpu : Type) [Fintype Gtid] [DecidableEq Gtid] [DecidableEq Slot]
    [DecidableEq Cpu] : Machine (Enclave Gtid Slot Cpu) (Event Gtid Slot Cpu) :=
  (enclaves Gtid Slot Cpu).restrict Enclave.Admits

/-- Along a run biff comes to want one CPU too many for every stray departure. -/
theorem surplus_run {first last : Enclave Gtid Slot Cpu} {events : List (Event Gtid Slot Cpu)}
    (run : (admitted Gtid Slot Cpu).Run first events last) (tracked : first.Tracked) :
    last.surplus = first.surplus + events.countP Event.strays := by
  induction run with
  | nil => simp
  | cons performed _ ih =>
      obtain ⟨tracked', moved⟩ := tracked.perform performed.1 performed.2
      rw [ih tracked', moved, List.countP_cons]
      unfold unit
      push_cast
      split <;> omega

/-- Biff wants as many CPUs as there are threads that are runnable or running if
and only if no thread has departed from within a chain. -/
theorem nrCpusWanted_eq_load_iff (first last : Enclave Gtid Slot Cpu)
    (events : List (Event Gtid Slot Cpu)) (initial : first.Initial)
    (run : (admitted Gtid Slot Cpu).Run first events last) :
    last.flux.nrCpusWanted = last.load ↔ ∀ event ∈ events, event.strays = false := by
  have counted := surplus_run run initial.tracked
  rw [initial.surplus, zero_add] at counted
  have none_iff : events.countP Event.strays = 0 ↔ ∀ event ∈ events, event.strays = false := by
    simp [List.countP_eq_zero]
  rw [← none_iff]
  unfold Enclave.surplus at counted
  constructor
  · intro same
    omega
  · intro none
    omega

end Runs

/-! ## A chain of two threads -/

/-- Two threads, two structures and one CPU, before any message. -/
def emptyEnclave : Enclave (Fin 2) (Fin 2) (Fin 1) where
  statuses _ := .absent
  flux :=
    { swLookup := fun _ => none
      threads := fun _ => ⟨0, 0, 0, .none, 0, false, false, false⟩
      nrCpusWanted := 0
      latching := fun _ => none }

theorem emptyEnclave_initial : emptyEnclave.Initial :=
  ⟨fun _ => rfl, fun _ => rfl, fun _ => rfl, fun _ => rfl, rfl⟩

/-- The first thread runs and switches to the second. -/
def chainOfTwo : List (Event (Fin 2) (Fin 2) (Fin 1)) :=
  [.message 1 (.new 0 0 0 true), .message 1 (.new 1 1 0 false), .message 2 (.onCpu 0),
    .switchto 3 0 1]

def inChain : Enclave (Fin 2) (Fin 2) (Fin 1) :=
  (chainOfTwo.foldlM Enclave.perform emptyEnclave).getD emptyEnclave

theorem inChain_run : (admitted (Fin 2) (Fin 2) (Fin 1)).Run emptyEnclave chainOfTwo inChain := by
  refine .cons ⟨fun _ => ⟨by decide, rfl⟩, rfl⟩ (.cons ⟨fun _ => ⟨by decide, rfl⟩, rfl⟩ ?_)
  exact .cons ⟨trivial, rfl⟩ (.cons ⟨trivial, rfl⟩ (.nil _))

/-- The second thread blocks. -/
theorem nrCpusWanted_eq_load_iff_blocked : ∃ last,
    (admitted (Fin 2) (Fin 2) (Fin 1)).Run emptyEnclave
      (chainOfTwo ++ [.message 2 (.blocked 1 true)]) last ∧
    (last.flux.nrCpusWanted = last.load ↔
      ∀ event ∈ chainOfTwo ++ [.message 2 (.blocked 1 true)], event.strays = false) := by
  have moved : (admitted (Fin 2) (Fin 2) (Fin 1)).step inChain (.message 2 (.blocked 1 true))
      ((inChain.perform (.message 2 (.blocked 1 true))).getD inChain) :=
    ⟨trivial, rfl⟩
  have run := inChain_run.append (.cons moved (.nil _))
  exact ⟨_, run, nrCpusWanted_eq_load_iff _ _ _ emptyEnclave_initial run⟩

/-- The second thread departs. No thread is runnable or running, and biff wants a CPU. -/
theorem nrCpusWanted_ne_load_of_stray : ∃ last,
    (enclaves (Fin 2) (Fin 2) (Fin 1)).Run emptyEnclave
      (chainOfTwo ++ [.message 2 (.departed 1 true true)]) last ∧
    last.load = 0 ∧ last.flux.nrCpusWanted = 1 := by
  refine ⟨_, inChain_run.of_restrict.append (.cons rfl (.nil _)), ?_, ?_⟩
  · decide
  · rfl

end Ghost.Flux
