import Ghost.Bpf.CfsQueue
import Mathlib.Algebra.BigOperators.Group.List.Basic
import Mathlib.Data.BitVec

/-!
# The statistics of the CFS run queue

An enqueued thread is counted until it is subtracted, and only death and departure
subtract. A pick hands the thread that was counted to the CPU; so the statistics are
right as long as no thread leaves the CPU in another way than by its death.
-/

set_option autoImplicit false

namespace Ghost.Bpf

open Lib

/-! ## Books -/

/-- The thread that `rq->current` says is running, if it is. -/
def Ledger.runningThread (ledger : Ledger) (phase : BitVec 64 → Phase) :
    Option cfsMaxGtids.Elem :=
  if phase ledger.current = .running then ledger.threadOf ledger.current else none

/-- The statistics, and whose threads they count. -/
structure Books (ledger : Ledger) (phase : BitVec 64 → Phase) (index : BitVec 64 → BitVec 32)
    (items : List cfsMaxGtids.Elem) : Prop where
  linked : Refines (ledger.lists, fun _ => items)
  nrRunning : ledger.nrRunning.toNat = (items ++ (ledger.runningThread phase).toList).length
  weight : ledger.weight =
    ((items ++ (ledger.runningThread phase).toList).map ledger.weights).sum
  waiting : ∀ elem ∈ items, phase (ledger.gtids elem) = .waiting ∧
    ledger.threadOf (ledger.gtids elem) = some elem
  running : ∀ gtid, phase gtid = .running → ledger.current = gtid ∧
    ∃ elem, ledger.threadOf gtid = some elem
  owner : ∀ gtid elem, ledger.threadOf gtid = some elem →
    phase gtid ≠ .absent ∧ (index gtid).toNat = elem.val
  distinct : ∀ gtid other, phase gtid ≠ .absent → phase other ≠ .absent →
    index gtid = index other → gtid = other

section Books

variable {ledger : Ledger} {phase : BitVec 64 → Phase} {index : BitVec 64 → BitVec 32}
  {items : List cfsMaxGtids.Elem} {gtid : BitVec 64} {thread : cfsMaxGtids.Elem}

private theorem Ledger.runningThread_congr {ledger' : Ledger} {phase' : BitVec 64 → Phase}
    (sameCurrent : ledger'.current = ledger.current)
    (samePhase : phase' ledger.current = .running ↔ phase ledger.current = .running)
    (sameThread : phase ledger.current = .running →
      ledger'.threadOf ledger.current = ledger.threadOf ledger.current) :
    ledger'.runningThread phase' = ledger.runningThread phase := by
  unfold Ledger.runningThread
  rw [sameCurrent]
  by_cases runs : phase ledger.current = .running
  · rw [if_pos (samePhase.mpr runs), if_pos runs, sameThread runs]
  · rw [if_neg (mt samePhase.mp runs), if_neg runs]

namespace Books

variable (books : Books ledger phase index items)
include books

theorem queue : Queue ledger phase index items :=
  ⟨books.linked, books.waiting, books.running, books.owner, books.distinct⟩

private theorem few : items.length ≤ 65536 := by
  have unique : items.Nodup := books.linked.nodup ()
  have bounded := unique.length_le_card
  rw [Fintype.card_fin] at bounded
  exact bounded

private theorem nrRunning_lt : ledger.nrRunning.toNat ≤ 65537 := by
  have few := books.few
  rw [books.nrRunning, List.length_append]
  have atMostOne : (ledger.runningThread phase).toList.length ≤ 1 := by
    cases ledger.runningThread phase <;> simp
  omega

private theorem announced (unknown : ledger.threadOf gtid = none) {next : Phase} {idx : BitVec 32}
    (stops : next ≠ .running)
    (own : ∀ other, other ≠ gtid → phase other ≠ .absent → index other ≠ idx) :
    Books ledger (Function.update phase gtid next) (Function.update index gtid idx) items := by
  have stopped : phase gtid ≠ .running := by
    intro runs
    obtain ⟨-, elem, owns⟩ := books.running gtid runs
    rw [unknown] at owns
    cases owns
  have sameRunning : ledger.runningThread (Function.update phase gtid next) =
      ledger.runningThread phase := by
    apply Ledger.runningThread_congr rfl
    · by_cases same : ledger.current = gtid
      · rw [same, Function.update_self]
        simp [stops, stopped]
      · rw [Function.update_of_ne same]
    · exact fun _ => rfl
  have queue := books.queue.announced unknown stops own
  refine ⟨queue.linked, ?_, ?_, queue.waiting, queue.running, queue.owner, queue.distinct⟩
  · rw [sameRunning]
    exact books.nrRunning
  · rw [sameRunning]
    exact books.weight

private theorem mapped {entry : Option (BitVec 32)}
    (unlinked : ∀ elem ∈ items, ledger.gtids elem ≠ gtid) (stopped : phase gtid ≠ .running)
    (own : ∀ elem, (ledger.mapped gtid entry).threadOf gtid = some elem →
      phase gtid ≠ .absent ∧ (index gtid).toNat = elem.val) :
    Books (ledger.mapped gtid entry) phase index items := by
  have sameRunning : (ledger.mapped gtid entry).runningThread phase =
      ledger.runningThread phase := by
    apply Ledger.runningThread_congr
    · rfl
    · exact Iff.rfl
    · intro runs
      have different : ledger.current ≠ gtid := fun same => stopped (same ▸ runs)
      exact Ledger.threadOf_mapped_of_ne different entry
  have queue := books.queue.mapped unlinked stopped own
  refine ⟨queue.linked, ?_, ?_, queue.waiting, queue.running, queue.owner, queue.distinct⟩
  · rw [sameRunning]
    exact books.nrRunning
  · rw [sameRunning]
    exact books.weight

private theorem named (absent : thread ∉ items) :
    Books (ledger.named gtid thread) phase index items := by
  have queue : Queue (ledger.named gtid thread) phase index items := books.queue.named absent
  exact ⟨queue.linked, books.nrRunning, books.weight, queue.waiting, queue.running, queue.owner,
    queue.distinct⟩

private theorem enqueued (owns : ledger.threadOf gtid = some thread) (absent : thread ∉ items)
    (stopped : phase gtid ≠ .running) (wakeup : Bool) :
    Books (ledger.enqueued gtid thread wakeup) (Function.update phase gtid .waiting) index
      (if wakeup then items ++ [thread] else thread :: items) := by
  have sameRunning : (ledger.enqueued gtid thread wakeup).runningThread
      (Function.update phase gtid .waiting) =
      ledger.runningThread phase := by
    apply Ledger.runningThread_congr
    · rfl
    · by_cases same : ledger.current = gtid
      · rw [same, Function.update_self]
        simp [stopped]
      · rw [Function.update_of_ne same]
    · exact fun _ => rfl
  have reordered : (if wakeup then items ++ [thread] else thread :: items).Perm (thread :: items) := by
    cases wakeup
    · exact .refl _
    · exact List.perm_append_singleton thread items
  have notCounted : thread ∉ items ++ (ledger.runningThread phase).toList := by
    intro member
    rcases List.mem_append.mp member with member | member
    · exact absent member
    · unfold Ledger.runningThread at member
      split at member
      · next runs =>
          have owns' := Option.mem_toList.mp member
          exact stopped (books.queue.owner_unique owns owns' ▸ runs)
      · cases member
  have queue := books.queue.enqueued owns absent wakeup
  refine ⟨queue.linked, ?_, ?_, queue.waiting, queue.running, queue.owner, queue.distinct⟩
  · have bounded := books.nrRunning_lt
    have increments : (ledger.nrRunning + 1).toNat = ledger.nrRunning.toNat + 1 := by
      rw [BitVec.toNat_add]
      exact Nat.mod_eq_of_lt (by simp; omega)
    rw [sameRunning, (reordered.append_right _).length_eq, List.cons_append, List.length_cons,
      ← books.nrRunning]
    exact increments
  · rw [sameRunning, List.Perm.sum_eq ((reordered.append_right _).map _), List.cons_append,
      List.map_cons, List.sum_cons, BitVec.add_comm]
    change ledger.weight + Function.update ledger.weights thread _ thread = _ +
      Function.update ledger.weights thread _ thread
    rw [books.weight]
    congr 2
    apply List.map_congr_left
    intro elem member
    have different : elem ≠ thread := fun same => notCounted (same ▸ member)
    exact (Function.update_of_ne different ..).symm

private theorem picked (member : thread ∈ items) (idle : ∀ other, phase other ≠ .running) :
    Books ((ledger.removed thread).started (ledger.gtids thread))
      (Function.update phase (ledger.gtids thread) .running) index (items.erase thread) := by
  obtain ⟨-, owns⟩ := books.waiting thread member
  have noneRunning : ledger.runningThread phase = none := if_neg (idle _)
  have nowRunning : ((ledger.removed thread).started (ledger.gtids thread)).runningThread
      (Function.update phase (ledger.gtids thread) .running) = some thread :=
    (if_pos (Function.update_self ..)).trans owns
  have reordered : (items.erase thread ++ [thread]).Perm items :=
    (List.perm_append_singleton _ _).trans (List.perm_cons_erase member).symm
  have unique : items.Nodup := books.linked.nodup ()
  have queue := (books.queue.removed member).started owns (unique.not_mem_erase) idle
  refine ⟨queue.linked, ?_, ?_, queue.waiting, queue.running, queue.owner, queue.distinct⟩
  · rw [nowRunning, Option.toList_some, reordered.length_eq]
    have counted := books.nrRunning
    rw [noneRunning, Option.toList_none, List.append_nil] at counted
    exact counted
  · rw [nowRunning, Option.toList_some, List.Perm.sum_eq (reordered.map _)]
    have summed := books.weight
    rw [noneRunning, Option.toList_none, List.append_nil] at summed
    exact summed

private theorem decremented (positive : 0 < ledger.nrRunning.toNat) :
    (ledger.nrRunning - 1).toNat = ledger.nrRunning.toNat - 1 := by
  have bounded := books.nrRunning_lt
  rw [BitVec.toNat_sub_of_le]
  · rfl
  · exact BitVec.le_def.mpr positive

private theorem unlinked (member : thread ∈ items) :
    Books ((ledger.removed thread).reduced thread) phase index (items.erase thread) := by
  have sameRunning : ((ledger.removed thread).reduced thread).runningThread phase =
      ledger.runningThread phase := rfl
  have reordered : items.Perm (thread :: items.erase thread) := List.perm_cons_erase member
  have unique : items.Nodup := books.linked.nodup ()
  have counted := books.nrRunning
  have summed := books.weight
  rw [(reordered.append_right _).length_eq, List.cons_append, List.length_cons] at counted
  rw [List.Perm.sum_eq ((reordered.append_right _).map _), List.cons_append, List.map_cons,
    List.sum_cons] at summed
  have queue := books.queue.removed member
  refine ⟨queue.linked, ?_, ?_, queue.waiting, queue.running, queue.owner, queue.distinct⟩
  · rw [sameRunning]
    change (ledger.nrRunning - 1).toNat = _
    rw [books.decremented (by omega)]
    omega
  · rw [sameRunning]
    change ledger.weight - ledger.weights thread = _
    rw [summed, BitVec.add_comm, BitVec.add_sub_cancel]
    rfl

private theorem buried (owns : ledger.threadOf gtid = some thread) (runs : phase gtid = .running) :
    Books ((ledger.reduced thread).mapped gtid none) (Function.update phase gtid .absent) index
      items := by
  obtain ⟨isCurrent, -⟩ := books.running gtid runs
  have wasRunning : ledger.runningThread phase = some thread := by
    unfold Ledger.runningThread
    rw [isCurrent, if_pos runs, owns]
  have noneRunning : ((ledger.reduced thread).mapped gtid none).runningThread
      (Function.update phase gtid .absent) = none := by
    apply if_neg
    change Function.update phase gtid .absent ledger.current ≠ _
    rw [isCurrent, Function.update_self]
    decide
  have elsewhere : ∀ other, other ≠ gtid →
      ((ledger.reduced thread).mapped gtid none).threadOf other = ledger.threadOf other :=
    fun other different => Ledger.threadOf_mapped_of_ne different none
  have live : ∀ other, Function.update phase gtid .absent other ≠ .absent →
      other ≠ gtid ∧ phase other ≠ .absent := by
    intro other isLive
    by_cases same : other = gtid
    · rw [same, Function.update_self] at isLive
      exact absurd rfl isLive
    · rw [Function.update_of_ne same] at isLive
      exact ⟨same, isLive⟩
  have counted := books.nrRunning
  have summed := books.weight
  rw [wasRunning, Option.toList_some, List.length_append, List.length_singleton] at counted
  rw [wasRunning, Option.toList_some, List.map_append, List.sum_append, List.map_singleton,
    List.sum_singleton] at summed
  constructor
  · exact books.linked
  · rw [noneRunning, Option.toList_none, List.append_nil]
    change (ledger.nrRunning - 1).toNat = _
    rw [books.decremented (by omega)]
    omega
  · rw [noneRunning, Option.toList_none, List.append_nil]
    change ledger.weight - ledger.weights thread = _
    rw [summed, BitVec.add_sub_cancel]
    rfl
  · intro elem member
    obtain ⟨waits, owns'⟩ := books.waiting elem member
    have different : ledger.gtids elem ≠ gtid := by
      intro same
      rw [same, runs] at waits
      cases waits
    refine ⟨?_, (elsewhere _ different).trans owns'⟩
    change Function.update phase gtid .absent (ledger.gtids elem) = _
    rwa [Function.update_of_ne different]
  · intro other runs'
    by_cases same : other = gtid
    · rw [same, Function.update_self] at runs'
      cases runs'
    · rw [Function.update_of_ne same] at runs'
      exact absurd (isCurrent.symm.trans (books.running other runs').1).symm same
  · intro other elem owns'
    by_cases same : other = gtid
    · rw [same, Ledger.threadOf_mapped_none] at owns'
      cases owns'
    · rw [elsewhere other same] at owns'
      rw [Function.update_of_ne same]
      exact books.owner other elem owns'
  · intro one other isLive isLive' sameIndex
    exact books.distinct one other (live one isLive).2 (live other isLive').2 sameIndex

end Books

end Books

/-! ## What the statistics count -/

namespace CfsCpu

/-- The running thread of the queue. -/
def runningThread (cpu : CfsCpu) : Option cfsMaxGtids.Elem :=
  if cpu.phase cpu.cfs.current = .running then cpu.cfs.gtidToThread cpu.cfs.current else none

/-- The statistics count the linked threads and the running one, and all linked
threads are known. -/
def Statistics (cpu : CfsCpu) : Prop :=
  ∃ items, Refines (cpu.cfs.lists, fun _ => items) ∧
    cpu.cfs.nrRunning.toNat = (items ++ cpu.runningThread.toList).length ∧
    cpu.cfs.weight =
      ((items ++ cpu.runningThread.toList).map fun elem => (cpu.cfs.threads elem).weight).sum ∧
    ∀ elem ∈ items, ∃ gtid, cpu.cfs.gtidToThread gtid = some elem

/-- No thread leaves the CPU but by its death, nor the queue but by a pick that
succeeds or by departing from a short queue; and only running threads die. -/
def Meets (cpu : CfsCpu) : CfsEvent → Prop
  | .new .. => True
  | .wakeup .. => True
  | .preempt .. => False
  | .yield .. => False
  | .blocked .. => False
  | .dead gtid => cpu.cfs.gtidToThread gtid = none ∨ cpu.phase gtid = .running
  | .departed gtid _ => cpu.cfs.gtidToThread gtid = none ∨ cpu.phase gtid = .blocked ∨
      cpu.phase gtid = .waiting ∧ cpu.cfs.nrRunning < 1000
  | .pnt ctx result _ _ _ =>
      cpu.cfs.keepsOff ctx = true ∨ cpu.cfs.lists.empty () = true ∨ result = .ok ()

/-- The statistics of a CPU whose books are in order. -/
def InOrder (cpu : CfsCpu) : Prop := ∃ items, Books cpu.cfs.ledger cpu.phase cpu.index items

variable {cpu : CfsCpu}

private theorem InOrder.statistics (inOrder : cpu.InOrder) : cpu.Statistics := by
  obtain ⟨items, books⟩ := inOrder
  refine ⟨items, books.linked, books.nrRunning, books.weight, fun elem member => ?_⟩
  exact ⟨_, (books.waiting elem member).2⟩

end CfsCpu

section Steps

variable {cfs : Cfs} {phase : BitVec 64 → Phase} {index : BitVec 64 → BitVec 32}
  {items : List cfsMaxGtids.Elem} {gtid : BitVec 64} {thread : cfsMaxGtids.Elem}

private theorem Books.enqueueTask (books : Books cfs.ledger phase index items)
    (owns : cfs.gtidToThread gtid = some thread) (absent : thread ∉ items)
    (stopped : phase gtid ≠ .running) (now : BitVec 64) (taskBarrier flags : BitVec 32) :
    ∃ items', Books (cfs.enqueueTask now gtid taskBarrier flags).ledger
      (Function.update phase gtid .waiting) index items' := by
  rw [Cfs.ledger_enqueueTask owns]
  exact ⟨_, books.enqueued owns absent stopped _⟩

private theorem Books.handleNew (books : Books cfs.ledger phase index items)
    (unmapped : cfs.swLookup gtid = none) (present : phase gtid ≠ .absent)
    (runnable : Bool) (waits : runnable = true → phase gtid = .waiting)
    (seqnum : BitVec 32) (now later : BitVec 64) :
    ∃ items', Books (cfs.handleNew gtid (index gtid) seqnum runnable false now later).ledger
      phase index items' := by
  have unknown := Cfs.threadOf_of_unmapped unmapped
  have stopped := books.queue.not_running unknown
  have learned : Books (cfs.ledger.mapped gtid (some (index gtid))) phase index items :=
    books.mapped (books.queue.gtids_ne unknown) stopped fun elem owns =>
      ⟨present, Ledger.threadOf_mapped_some owns⟩
  rw [Cfs.ledger_handleNew unmapped]
  unfold Ledger.learned
  dsimp only
  split
  · exact ⟨items, learned⟩
  · next thread owns =>
      have absent := books.queue.new_not_linked unknown present owns
      have named : Books ((cfs.ledger.mapped gtid (some (index gtid))).named gtid thread) phase
        index items := learned.named absent
      cases runnable with
      | false => exact ⟨items, named⟩
      | true =>
          have enqueued := named.enqueued owns absent stopped false
          rw [← waits rfl, Function.update_eq_self] at enqueued
          exact ⟨_, enqueued⟩

private theorem Books.rephased (books : Books cfs.ledger phase index items)
    (unknown : cfs.gtidToThread gtid = none) (present : phase gtid ≠ .absent) {next : Phase}
    (stops : next ≠ .running) :
    Books cfs.ledger (Function.update phase gtid next) index items := by
  have announced := books.announced unknown stops (books.queue.live present)
  rwa [Function.update_eq_self] at announced

private theorem Books.handleWakeup (books : Books cfs.ledger phase index items)
    (blocked : phase gtid = .blocked) (seqnum : BitVec 32) (now later : BitVec 64) :
    ∃ items', Books (cfs.handleWakeup gtid seqnum now later).ledger
      (Function.update phase gtid .waiting) index items' := by
  unfold Cfs.handleWakeup
  cases owns : cfs.gtidToThread gtid with
  | none =>
      exact ⟨items, books.rephased owns (by rw [blocked]; decide) (by decide)⟩
  | some thread =>
      have absent := books.queue.not_linked owns (by rw [blocked]; decide)
      rw [← @Cfs.ledger_setThread cfs thread
        (fun thread => { thread with runnableAt := now }) rfl rfl] at books
      exact books.enqueueTask owns absent (by rw [blocked]; decide) _ _ _

private theorem Books.forget (books : Books cfs.ledger phase index items)
    (present : phase gtid ≠ .absent) (stopped : phase gtid ≠ .running)
    (unlinked : ∀ elem ∈ items, cfs.ledger.gtids elem ≠ gtid) :
    Books (cfs.forget gtid).ledger (Function.update phase gtid .absent) index items := by
  have forgotten : Books (cfs.forget gtid).ledger phase index items := by
    apply books.mapped unlinked stopped
    intro elem owns
    rw [Ledger.threadOf_mapped_none] at owns
    cases owns
  have unknown : (cfs.forget gtid).gtidToThread gtid = none :=
    @Ledger.threadOf_mapped_none cfs.ledger gtid
  exact forgotten.rephased unknown present (by decide)

private theorem Cfs.ledger_unlinked :
    ({ cfs with lists := cfs.lists.remove () thread }.updateRqOnTaskDead thread).ledger =
      (cfs.ledger.removed thread).reduced thread := by
  simp only [Cfs.updateRqOnTaskDead, Cfs.ledger, Ledger.removed, Ledger.reduced]

/-- The loop over the queue finds the thread if it is there. -/
theorem Books.removeTaskFromRq (books : Books cfs.ledger phase index items)
    (short : thread ∈ items → cfs.nrRunning < 1000) :
    Books (cfs.removeTaskFromRq thread).ledger phase index (items.erase thread) ∧
    (cfs.removeTaskFromRq thread).ledger.gtids = cfs.ledger.gtids := by
  have represents : cfs.lists.Represents () items := books.linked.represents ()
  have counted := books.nrRunning
  rw [List.length_append] at counted
  have enough : items.length ≤ cfs.nrRunning.toNat := by
    change cfs.nrRunning.toNat = _ at counted
    omega
  unfold Cfs.removeTaskFromRq
  by_cases member : thread ∈ items
  · have some : 0 < items.length := List.length_pos_of_mem member
    have allowed : cfs.mayIterate = true := by
      unfold Cfs.mayIterate
      simp only [Bool.and_eq_true, decide_eq_true_eq]
      exact ⟨BitVec.lt_def.mpr (by simp; omega), short member⟩
    rw [if_pos allowed]
    dsimp only
    rw [represents.foreach_search thread enough, if_pos member]
    rw [Cfs.ledger_unlinked]
    exact ⟨books.unlinked member, rfl⟩
  · rw [List.erase_of_not_mem member]
    split
    · dsimp only
      rw [represents.foreach_search thread enough, if_neg member]
      exact ⟨books, rfl⟩
    · exact ⟨books, rfl⟩

private theorem Books.handleDeparted (books : Books cfs.ledger phase index items)
    (present : phase gtid ≠ .absent) (stopped : phase gtid ≠ .running)
    (short : cfs.gtidToThread gtid = none ∨ phase gtid = .blocked ∨
      phase gtid = .waiting ∧ cfs.nrRunning < 1000) :
    ∃ items', Books (cfs.handleDeparted gtid false).ledger
      (Function.update phase gtid .absent) index items' := by
  unfold Cfs.handleDeparted
  dsimp only
  rw [if_neg (by decide)]
  cases owns : cfs.gtidToThread gtid with
  | none => exact ⟨items, books.rephased owns present (by decide)⟩
  | some thread =>
      have isShort : thread ∈ items → cfs.nrRunning < 1000 := by
        intro member
        rcases short with unknown | blocked | ⟨-, isShort⟩
        · rw [owns] at unknown
          cases unknown
        · exact absurd member (books.queue.not_linked owns (by rw [blocked]; decide))
        · exact isShort
      obtain ⟨removed, sameGtids⟩ := books.removeTaskFromRq isShort
      have unique : items.Nodup := books.linked.nodup ()
      refine ⟨_, removed.forget present stopped ?_⟩
      rw [sameGtids]
      intro elem isElem same
      obtain ⟨different, isElem⟩ := unique.mem_erase_iff.mp isElem
      have owns' := (books.waiting elem isElem).2
      rw [same] at owns'
      exact different (Option.some.inj (owns'.symm.trans owns))

end Steps

namespace CfsCpu

variable {cpu : CfsCpu}

private theorem InOrder.new (inOrder : cpu.InOrder) {gtid : BitVec 64} {idx seqnum : BitVec 32}
    {runnable full : Bool} {now later : BitVec 64}
    (sends : cpu.Sends (.new gtid idx seqnum runnable full now later)) :
    (cpu.handle (.new gtid idx seqnum runnable full now later)).InOrder := by
  obtain ⟨items, books⟩ := inOrder
  have mayLearn := cpu.cfs.handleNew_cases gtid idx seqnum runnable full now later
  rcases sends with ⟨absent, own⟩ | ⟨present, rfl, isRunnable⟩
  · have unknown : cpu.cfs.gtidToThread gtid = none := books.queue.unknown_of_absent absent
    have announced := @Books.announced _ _ _ _ _ books unknown
      (if runnable then .waiting else .blocked) idx (by cases runnable <;> decide)
      fun other _ => own other
    unfold handle
    dsimp only
    rw [if_pos absent]
    rcases mayLearn with ignored | ⟨rfl, unmapped⟩
    · rw [ignored]
      exact ⟨items, announced⟩
    · have added := announced.handleNew unmapped
        (by rw [Function.update_self]; cases runnable <;> decide) runnable
        (by rintro rfl; rw [Function.update_self]; rfl) seqnum now later
      rw [Function.update_self] at added
      exact added
  · unfold handle
    dsimp only
    rw [if_neg present]
    rcases mayLearn with ignored | ⟨rfl, unmapped⟩
    · rw [ignored]
      exact ⟨items, books⟩
    · apply books.handleNew unmapped present runnable
      intro isTrue
      exact books.queue.waiting_of_unknown (Cfs.threadOf_of_unmapped unmapped) present
        (isRunnable.mp isTrue)

private theorem InOrder.pnt (inOrder : cpu.InOrder) {ctx : Cfs.PntCtx}
    {result : Except Cfs.RunError Unit} {cpuSeqnum now later : BitVec 64}
    (sends : cpu.Sends (.pnt ctx result cpuSeqnum now later))
    (meets : cpu.Meets (.pnt ctx result cpuSeqnum now later)) :
    (cpu.pnt ctx result cpuSeqnum now later).InOrder := by
  obtain ⟨items, books⟩ := inOrder
  unfold CfsCpu.pnt
  by_cases off : cpu.cfs.keepsOff ctx = true
  · rw [if_pos off]
    exact ⟨items, books⟩
  rw [if_neg off]
  cases picks : cpu.cfs.pickNextTask with
  | none => exact ⟨items, books⟩
  | some picked =>
      obtain ⟨member, isAfter⟩ := books.queue.pickNextTask picks
      have idle := idle_of_sends sends (eq_false_of_ne_true off)
      rcases meets with isOff | isEmpty | rfl
      · exact absurd isOff off
      · have noFirst : cpu.cfs.lists.first () = none := by
          unfold ArrLists.first
          rw [of_decide_eq_true isEmpty]
          rfl
        unfold Cfs.pickNextTask at picks
        rw [noFirst] at picks
        cases picks
      · refine ⟨items.erase picked.1, ?_⟩
        have owns : picked.2.gtidToThread (cpu.cfs.threads picked.1).gtid = some picked.1 := by
          rw [isAfter]
          exact (books.waiting picked.1 member).2
        dsimp only [setPhase]
        unfold Cfs.handleOnCpu
        rw [owns]
        dsimp only
        have isLedger : ((picked.2.setThread picked.1 fun thread =>
            { thread with ranAt := now }).taskStarted (cpu.cfs.threads picked.1).gtid
              cpuSeqnum).ledger =
            (cpu.cfs.ledger.removed picked.1).started (cpu.cfs.ledger.gtids picked.1) := by
          rw [Cfs.ledger_taskStarted, Cfs.ledger_setThread rfl rfl, isAfter, Cfs.ledger_removed]
          rfl
        rw [isLedger]
        exact books.picked member idle

theorem InOrder.step (inOrder : cpu.InOrder) {event : CfsEvent} (meets : cpu.Meets event)
    (sends : cpu.Sends event) : (cpu.handle event).InOrder := by
  cases event with
  | new gtid idx seqnum runnable full now later => exact inOrder.new sends
  | wakeup gtid seqnum now later =>
      obtain ⟨items, books⟩ := inOrder
      exact books.handleWakeup sends seqnum now later
  | preempt gtid seqnum now later => exact meets.elim
  | yield gtid seqnum now later => exact meets.elim
  | blocked gtid now => exact meets.elim
  | dead gtid =>
      obtain ⟨items, books⟩ := inOrder
      refine ⟨items, ?_⟩
      dsimp only [handle, setPhase]
      unfold Cfs.handleDead
      cases owns : cpu.cfs.gtidToThread gtid with
      | none => exact books.rephased owns sends (by decide)
      | some thread =>
          rcases meets with unknown | runs
          · rw [owns] at unknown
            cases unknown
          · exact books.buried owns runs
  | departed gtid wasCurrent =>
      obtain ⟨items, books⟩ := inOrder
      obtain ⟨present, isCurrent⟩ := sends
      have stopped : cpu.phase gtid ≠ .running := by
        intro runs
        obtain ⟨-, elem, owns⟩ := books.running gtid runs
        rcases meets with unknown | blocked | ⟨waits, -⟩
        · exact absurd (owns.symm.trans unknown) (by simp)
        · rw [runs] at blocked
          cases blocked
        · rw [runs] at waits
          cases waits
      have notCurrent : wasCurrent = false := by
        cases wasCurrent with
        | false => rfl
        | true => exact absurd (isCurrent.mp rfl) stopped
      subst notCurrent
      exact books.handleDeparted present stopped meets
  | pnt ctx result cpuSeqnum now later => exact inOrder.pnt sends meets

theorem initial_inOrder (starts : cfsCpu.initial cpu) : cpu.InOrder := by
  obtain ⟨zeroed, -, -, noWeight, noneRunning, unmapped, absent⟩ := starts
  have noThread : ∀ gtid, cpu.cfs.ledger.threadOf gtid = none := by
    intro gtid
    unfold Ledger.threadOf Cfs.ledger
    dsimp only
    rw [unmapped]
  have none : cpu.cfs.ledger.runningThread cpu.phase = none := by
    apply if_neg
    rw [absent]
    decide
  refine ⟨[], ?_⟩
  constructor
  · exact Refines.initial fun _ => zeroed
  · rw [none]
    change cpu.cfs.nrRunning.toNat = 0
    rw [noneRunning]
    rfl
  · rw [none]
    exact noWeight
  · intro elem member
    cases member
  · intro gtid runs
    rw [absent] at runs
    cases runs
  · intro gtid elem owns
    rw [noThread] at owns
    cases owns
  · intro gtid other present
    exact absurd (absent gtid) present

end CfsCpu

/-- In every run in which no thread leaves the CPU or the queue in a way that is not
counted, the statistics are right in every state. -/
theorem statistics_hold (cpu : CfsCpu)
    (reachable : (cfsCpu.restrict CfsCpu.Meets).Reachable cpu) : cpu.Statistics := by
  have inOrder : cpu.InOrder := by
    apply reachable.invariant CfsCpu.InOrder
    · exact fun first starts => CfsCpu.initial_inOrder starts
    · intro state event next inOrder moved
      obtain ⟨meets, sends, isNext⟩ := moved
      rw [isNext]
      exact inOrder.step meets sends
  exact inOrder.statistics

/-! ## One thread, and two -/

def zeroThread : CfsThread := ⟨0, 0, 0, 0, 0, 0, 0, 0, 0⟩

/-- Zeroed maps. -/
def freshCpu : CfsCpu :=
  { cfs :=
      { lists := ⟨fun _ => ⟨0, 0⟩, fun _ => ⟨0, 0⟩⟩
        threads := fun _ => zeroThread
        current := 0
        weight := 0
        nrRunning := 0
        minVruntime := 0
        pcpuCurrent := 0
        cpuSeqnum := 0
        swLookup := fun _ => none
        initialized := true }
    phase := fun _ => .absent
    index := fun _ => 0 }

def newThread : CfsEvent := .new 1 0 1 true false 10 11

def pickThread : CfsEvent := .pnt ⟨false, false, 0⟩ (.ok ()) 1 20 21

def blockThread : CfsEvent := .blocked 1 30

/-- A thread was announced and picked. -/
def pickedCpu : CfsCpu := (freshCpu.handle newThread).handle pickThread

theorem freshCpu_initial : cfsCpu.initial freshCpu :=
  ⟨rfl, rfl, rfl, rfl, rfl, fun _ => rfl, fun _ => rfl⟩

private theorem newThread_sent : freshCpu.Sends newThread :=
  .inl ⟨rfl, fun _ present => absurd rfl present⟩

private theorem pickThread_sent : (freshCpu.handle newThread).Sends pickThread := by
  rintro ⟨gtid, runs⟩
  by_cases same : gtid = 1
  · rw [same] at runs
    cases runs
  · have absent : (freshCpu.handle newThread).phase gtid = .absent :=
      Function.update_of_ne same ..
    rw [absent] at runs
    cases runs

/-- The structure of the second thread has a weight already. -/
def weightedCpu : CfsCpu :=
  { freshCpu with
    cfs := { freshCpu.cfs with
      threads := fun elem => if elem.val = 1 then { zeroThread with weight := 2048 } else zeroThread } }

def secondThread : CfsEvent := .new 2 1 1 true false 12 13

/-- Two threads are announced, and one of them is picked. -/
def sharedEvents : List CfsEvent := [newThread, secondThread, pickThread]

def sharedCpu : CfsCpu := sharedEvents.foldl CfsCpu.handle weightedCpu

private theorem secondThread_sent : (weightedCpu.handle newThread).Sends secondThread := by
  refine .inl ⟨rfl, fun other present => ?_⟩
  by_cases same : other = 1
  · rw [same]
    decide
  · have absent : (weightedCpu.handle newThread).phase other = .absent :=
      Function.update_of_ne same ..
    exact absurd absent present

private theorem pickShared_sent :
    ((weightedCpu.handle newThread).handle secondThread).Sends pickThread := by
  rintro ⟨gtid, runs⟩
  by_cases isSecond : gtid = 2
  · rw [isSecond] at runs
    cases runs
  · by_cases isFirst : gtid = 1
    · rw [isFirst] at runs
      cases runs
    · have absent : ((weightedCpu.handle newThread).handle secondThread).phase gtid = .absent :=
        (Function.update_of_ne isSecond ..).trans (Function.update_of_ne isFirst ..)
      cases absent.symm.trans runs

theorem sharedCpu_reachable : (cfsCpu.restrict CfsCpu.Meets).Reachable sharedCpu := by
  have announced : weightedCpu.Sends newThread := .inl ⟨rfl, fun _ present => absurd rfl present⟩
  refine ⟨weightedCpu, sharedEvents, freshCpu_initial, ?_⟩
  exact .cons ⟨trivial, announced, rfl⟩ (.cons ⟨trivial, secondThread_sent, rfl⟩
    (.cons ⟨.inr (.inr rfl), pickShared_sent, rfl⟩ (.nil _)))

theorem statistics_hold_picked :
    sharedCpu.cfs.nrRunning = 2 ∧ sharedCpu.cfs.weight = 3072 ∧
      sharedCpu.runningThread.isSome = true ∧ sharedCpu.cfs.lists.empty () = false ∧
      sharedCpu.Statistics :=
  ⟨by decide +kernel, by decide +kernel, by decide +kernel, by decide +kernel,
    statistics_hold sharedCpu sharedCpu_reachable⟩

theorem pickedCpu_reachable : cfsCpu.Reachable pickedCpu :=
  ⟨freshCpu, [newThread, pickThread], freshCpu_initial,
    .cons ⟨newThread_sent, rfl⟩ (.cons ⟨pickThread_sent, rfl⟩ (.nil _))⟩

/-- A thread that runs and blocks is still counted, on an empty queue. -/
theorem blocked_thread_counted :
    cfsCpu.Reachable (pickedCpu.handle blockThread) ∧
    ¬ (pickedCpu.handle blockThread).Statistics := by
  constructor
  · have runs : pickedCpu.phase 1 = .running := by decide +kernel
    have moved : cfsCpu.step pickedCpu blockThread (pickedCpu.handle blockThread) := ⟨runs, rfl⟩
    exact pickedCpu_reachable.step moved
  · rintro ⟨items, refines, counted, -⟩
    have noneLinked : (pickedCpu.handle blockThread).cfs.lists.first () = none := by
      decide +kernel
    have noneRuns : (pickedCpu.handle blockThread).runningThread = none := by decide +kernel
    have one : (pickedCpu.handle blockThread).cfs.nrRunning.toNat = 1 := by decide +kernel
    have isEmpty : items = [] := List.head?_eq_none_iff.mp (refines.first_eq.symm.trans noneLinked)
    rw [one, noneRuns, isEmpty] at counted
    cases counted

end Ghost.Bpf
