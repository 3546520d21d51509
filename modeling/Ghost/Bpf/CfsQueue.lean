import Ghost.Bpf.ArrListIterators
import Ghost.Bpf.Cfs

/-!
# The CFS run queue

What the handlers do to the run queue and to the records that tell whose threads it links,
whatever they do to the virtual runtimes and the times of threads.
-/

set_option autoImplicit false

namespace Ghost.Bpf

open Lib

/-! ## Loops that only read -/

section Loops

variable {size : ArrSize} {Head State : Type} {lists : ArrLists size Head} {head : Head}
  {items : List size.Elem}

theorem ArrLists.Represents.foreach_invariant (represents : lists.Represents head items)
    {body : size.Elem → State → Flow × State} {Inv : State → Prop}
    (each : ∀ elem ∈ items, ∀ state, Inv state → Inv (body elem state).2) (max : Nat)
    {state : State} (starts : Inv state) :
    Inv (arrListForeach (fun _ => lists) head max body state).state := by
  have walks : ∀ rounds front back, items = front ++ back → ∀ state, Inv state →
      Inv (forLoop (fun _ => lists.next) body rounds back.head? state).state := by
    intro rounds
    induction rounds with
    | zero =>
        intro front back _ state holds
        cases back <;> exact holds
    | succ rounds ih =>
        intro front back split state holds
        cases back with
        | nil => exact holds
        | cons elem back =>
            have kept := each elem (by rw [split]; simp) state holds
            have isNext : lists.next elem = back.head? :=
              represents.link_eq .forward split
            simp only [List.head?_cons, forLoop]
            generalize body elem state = round at kept ⊢
            obtain ⟨flow, after⟩ := round
            cases flow with
            | leave => exact kept
            | next =>
                dsimp only
                rw [isNext]
                exact ih (front ++ [elem]) back (by simp [split]) after kept
  have isFirst : lists.first head = items.head? := represents.first_eq
  unfold arrListForeach
  rw [isFirst]
  exact walks max [] items rfl state starts

theorem ArrLists.Represents.foreach_search (represents : lists.Represents head items)
    (target : size.Elem) {max : Nat} (enough : items.length ≤ max) :
    (arrListForeach (fun _ => lists) head max
      (fun elem (state : Unit) => (if elem = target then .leave else .next, state)) ()).var =
      if target ∈ items then some target else none := by
  have walks : ∀ back front rounds, items = front ++ back → back.length ≤ rounds →
      (forLoop (fun _ : Unit => lists.next)
        (fun elem state => (if elem = target then .leave else .next, state)) rounds
        back.head? ()).var = if target ∈ back then some target else none := by
    intro back
    induction back with
    | nil =>
        intro front rounds _ _
        cases rounds <;> rfl
    | cons elem back ih =>
        intro front rounds split fits
        have isNext : lists.next elem = back.head? := represents.link_eq .forward split
        cases rounds with
        | zero => cases fits
        | succ rounds =>
            simp only [List.head?_cons, forLoop]
            by_cases found : elem = target
            · simp [found]
            · rw [if_neg found]
              dsimp only
              rw [isNext, ih (front ++ [elem]) rounds (by simp [split]) (by simpa using fits)]
              simp [Ne.symm found]
  have isFirst : lists.first head = items.head? := represents.first_eq
  unfold arrListForeach
  rw [isFirst]
  exact walks items [] max rfl enough

end Loops

/-! ## Ledgers -/

structure Ledger where
  lists : ArrLists cfsMaxGtids Unit
  current : BitVec 64
  weight : BitVec 64
  nrRunning : BitVec 64
  swLookup : BitVec 64 → Option (BitVec 32)
  weights : cfsMaxGtids.Elem → BitVec 64
  gtids : cfsMaxGtids.Elem → BitVec 64

namespace Ledger

variable (ledger : Ledger)

def threadOf (gtid : BitVec 64) : Option cfsMaxGtids.Elem :=
  match ledger.swLookup gtid with
  | none => none
  | some idx =>
      if inRange : idx.toNat < cfsMaxGtids.value then some ⟨idx.toNat, inRange⟩ else none

/-- The weight with which a thread is enqueued. -/
def loadOf (thread : cfsMaxGtids.Elem) : BitVec 64 :=
  if ledger.weights thread = 0 then NICE_0_LOAD else ledger.weights thread

def loaded (thread : cfsMaxGtids.Elem) : Ledger :=
  { ledger with weights := Function.update ledger.weights thread (ledger.loadOf thread) }

def named (gtid : BitVec 64) (thread : cfsMaxGtids.Elem) : Ledger :=
  { ledger with gtids := Function.update ledger.gtids thread gtid }

def counted (thread : cfsMaxGtids.Elem) : Ledger :=
  { ledger with
    weight := ledger.weight + ledger.weights thread
    nrRunning := ledger.nrRunning + 1 }

def inserted (thread : cfsMaxGtids.Elem) (wakeup : Bool) : Ledger :=
  { ledger with
    lists :=
      if wakeup then ledger.lists.insertTail () thread else ledger.lists.insertHead () thread }

/-- With the entry of a thread in `sw_lookup`. -/
def mapped (gtid : BitVec 64) (entry : Option (BitVec 32)) : Ledger :=
  { ledger with swLookup := Function.update ledger.swLookup gtid entry }

def removed (thread : cfsMaxGtids.Elem) : Ledger :=
  { ledger with lists := ledger.lists.remove () thread }

def started (gtid : BitVec 64) : Ledger := { ledger with current := gtid }

/-- What `enqueue_task` does with a thread that is known. -/
def enqueued (gtid : BitVec 64) (thread : cfsMaxGtids.Elem) (wakeup : Bool) : Ledger :=
  (((ledger.named gtid thread).loaded thread).counted thread).inserted thread wakeup

/-- What `handle_new` does with a thread that is not known. -/
def learned (gtid : BitVec 64) (idx : BitVec 32) (runnable : Bool) : Ledger :=
  let mapped := ledger.mapped gtid (some idx)
  match mapped.threadOf gtid with
  | none => mapped
  | some thread =>
      let named := mapped.named gtid thread
      if runnable then named.enqueued gtid thread false else named

/-- Without the share of a thread. -/
def reduced (thread : cfsMaxGtids.Elem) : Ledger :=
  { ledger with
    nrRunning := ledger.nrRunning - 1
    weight := ledger.weight - ledger.weights thread }

end Ledger

def Cfs.ledger (cfs : Cfs) : Ledger :=
  { lists := cfs.lists
    current := cfs.current
    weight := cfs.weight
    nrRunning := cfs.nrRunning
    swLookup := cfs.swLookup
    weights := fun elem => (cfs.threads elem).weight
    gtids := fun elem => (cfs.threads elem).gtid }

section Ledgers

variable {cfs : Cfs} {thread : cfsMaxGtids.Elem} {gtid now : BitVec 64}

private theorem Cfs.ledger_stored (store : CfsThread → CfsThread) :
    (cfs.setThread thread store).ledger =
      { cfs.ledger with
        weights := Function.update cfs.ledger.weights thread (store (cfs.threads thread)).weight
        gtids := Function.update cfs.ledger.gtids thread (store (cfs.threads thread)).gtid } := by
  unfold Cfs.ledger
  congr 1
  · funext elem
    by_cases same : elem = thread
    · subst same
      simp [Cfs.setThread]
    · simp [Cfs.setThread, same]
  · funext elem
    by_cases same : elem = thread
    · subst same
      simp [Cfs.setThread]
    · simp [Cfs.setThread, same]

private theorem Cfs.ledger_named {store : CfsThread → CfsThread}
    (keepsWeight : (store (cfs.threads thread)).weight = (cfs.threads thread).weight)
    (sets : (store (cfs.threads thread)).gtid = gtid) :
    (cfs.setThread thread store).ledger = cfs.ledger.named gtid thread := by
  have weights : Function.update cfs.ledger.weights thread (cfs.threads thread).weight =
      cfs.ledger.weights := Function.update_eq_self ..
  rw [Cfs.ledger_stored, keepsWeight, sets, weights]
  rfl

private theorem Cfs.ledger_loaded :
    (cfs.setThread thread fun thread =>
      { thread with weight := if thread.weight = 0 then NICE_0_LOAD else thread.weight }).ledger =
    cfs.ledger.loaded thread := by
  have gtids : Function.update cfs.ledger.gtids thread (cfs.threads thread).gtid =
      cfs.ledger.gtids := Function.update_eq_self ..
  rw [Cfs.ledger_stored]
  dsimp only
  rw [gtids]
  rfl

theorem Cfs.ledger_setThread {store : CfsThread → CfsThread}
    (keepsWeight : (store (cfs.threads thread)).weight = (cfs.threads thread).weight)
    (keepsGtid : (store (cfs.threads thread)).gtid = (cfs.threads thread).gtid) :
    (cfs.setThread thread store).ledger = cfs.ledger := by
  have gtids : Function.update cfs.ledger.gtids thread (cfs.threads thread).gtid =
      cfs.ledger.gtids := Function.update_eq_self ..
  rw [Cfs.ledger_named keepsWeight keepsGtid]
  unfold Ledger.named
  rw [gtids]

theorem Cfs.ledger_taskStarted (cpuSeqnum : BitVec 64) :
    (cfs.taskStarted gtid cpuSeqnum).ledger = cfs.ledger.started gtid := rfl

theorem Cfs.ledger_removed :
    Cfs.ledger { cfs with lists := cfs.lists.remove () thread } = cfs.ledger.removed thread := by
  simp only [Cfs.ledger, Ledger.removed]

private theorem Cfs.ledger_updateMinVruntime :
    (cfs.updateMinVruntime thread).ledger = cfs.ledger := by
  unfold Cfs.updateMinVruntime
  split <;> rfl

private theorem Cfs.ledger_updateCurr (curr : Option cfsMaxGtids.Elem) :
    (cfs.updateCurr now curr).ledger = cfs.ledger := by
  cases curr with
  | none => rfl
  | some curr =>
      simp only [Cfs.updateCurr]
      split
      · rfl
      · rw [Cfs.ledger_updateMinVruntime, Cfs.ledger_setThread rfl rfl]

private theorem Cfs.ledger_placeEntity (initial : Bool) :
    (cfs.placeEntity thread initial).ledger = cfs.ledger :=
  Cfs.ledger_setThread rfl rfl

/-- Whatever happens to the virtual runtimes, a thread is weighed, counted and inserted. -/
theorem Cfs.ledger_enqueueEntity (curr : Option cfsMaxGtids.Elem) (flags : BitVec 32) :
    (cfs.enqueueEntity now curr gtid thread flags).ledger =
      ((cfs.ledger.loaded thread).counted thread).inserted thread
        (flags &&& ENQUEUE_WAKEUP ≠ 0) := by
  have inserts : ∀ (cfs : Cfs) (wakeup : Bool),
      (if wakeup = true then { cfs with lists := cfs.lists.insertTail () thread }
        else { cfs with lists := cfs.lists.insertHead () thread }).ledger =
      cfs.ledger.inserted thread wakeup := by
    intro cfs wakeup
    cases wakeup <;> rfl
  have counts : ∀ cfs : Cfs,
      Cfs.ledger { cfs with
        weight := cfs.weight + (cfs.threads thread).weight
        nrRunning := cfs.nrRunning + 1 } = cfs.ledger.counted thread := fun _ => rfl
  have places : ∀ (cfs : Cfs) (wakeup : Bool),
      (if wakeup = true then cfs.placeEntity thread false else cfs).ledger = cfs.ledger := by
    intro cfs wakeup
    cases wakeup
    · rfl
    · exact Cfs.ledger_placeEntity false
  have renormalises : ∀ (cfs : Cfs) (renorm : Bool) (amount : BitVec 64),
      (if renorm = true then cfs.setThread thread fun thread =>
        { thread with vruntime := thread.vruntime + amount } else cfs).ledger = cfs.ledger := by
    intro cfs renorm amount
    cases renorm
    · rfl
    · rw [if_pos rfl, Cfs.ledger_setThread rfl rfl]
  unfold Cfs.enqueueEntity
  dsimp only
  rw [inserts, places, counts, renormalises, Cfs.ledger_updateCurr, renormalises,
    Cfs.ledger_loaded]

theorem Cfs.ledger_enqueueTask (known : cfs.gtidToThread gtid = some thread)
    (taskBarrier flags : BitVec 32) :
    (cfs.enqueueTask now gtid taskBarrier flags).ledger =
      cfs.ledger.enqueued gtid thread (flags &&& ENQUEUE_WAKEUP ≠ 0) := by
  unfold Cfs.enqueueTask
  rw [known]
  dsimp only
  rw [Cfs.ledger_enqueueEntity, @Cfs.ledger_named cfs thread gtid _ rfl rfl, Ledger.enqueued]

theorem Cfs.ledger_handleNew (unmapped : cfs.swLookup gtid = none) (idx seqnum : BitVec 32)
    (runnable : Bool) (later : BitVec 64) :
    (cfs.handleNew gtid idx seqnum runnable false now later).ledger =
      cfs.ledger.learned gtid idx runnable := by
  unfold Cfs.handleNew Ledger.learned
  rw [unmapped]
  simp only [Option.isSome_none, Bool.or_self, Bool.false_eq_true, if_false]
  generalize isAfter : ({ cfs with
    swLookup := Function.update cfs.swLookup gtid (some idx) } : Cfs) = after
  have isLedger : cfs.ledger.mapped gtid (some idx) = after.ledger := by
    rw [← isAfter]
    rfl
  rw [isLedger, show after.ledger.threadOf gtid = after.gtidToThread gtid from rfl]
  cases owns : after.gtidToThread gtid with
  | none => rfl
  | some thread =>
      have named := @Cfs.ledger_named after thread gtid
        (fun thread => { thread with
          gtid := gtid, taskBarrier := seqnum.setWidth 64, ranUntil := now }) rfl rfl
      cases runnable with
      | false => exact named
      | true =>
          dsimp only
          rw [if_pos rfl, if_pos rfl, Cfs.ledger_setThread rfl rfl, ← named]
          exact @Cfs.ledger_enqueueTask (after.setThread thread _) thread gtid later owns seqnum 0

end Ledgers

/-! ## The queue

Which threads are linked, and whose they are. -/

structure Queue (ledger : Ledger) (phase : BitVec 64 → Phase) (index : BitVec 64 → BitVec 32)
    (items : List cfsMaxGtids.Elem) : Prop where
  linked : Refines (ledger.lists, fun _ => items)
  waiting : ∀ elem ∈ items, phase (ledger.gtids elem) = .waiting ∧
    ledger.threadOf (ledger.gtids elem) = some elem
  running : ∀ gtid, phase gtid = .running → ledger.current = gtid ∧
    ∃ elem, ledger.threadOf gtid = some elem
  owner : ∀ gtid elem, ledger.threadOf gtid = some elem →
    phase gtid ≠ .absent ∧ (index gtid).toNat = elem.val
  distinct : ∀ gtid other, phase gtid ≠ .absent → phase other ≠ .absent →
    index gtid = index other → gtid = other

section Queue

variable {ledger : Ledger} {phase : BitVec 64 → Phase} {index : BitVec 64 → BitVec 32}
  {items : List cfsMaxGtids.Elem} {gtid : BitVec 64} {thread : cfsMaxGtids.Elem}

theorem Ledger.threadOf_mapped_of_ne {other : BitVec 64} (different : other ≠ gtid)
    (entry : Option (BitVec 32)) :
    (ledger.mapped gtid entry).threadOf other = ledger.threadOf other := by
  unfold Ledger.threadOf Ledger.mapped
  dsimp only
  rw [Function.update_of_ne different]

theorem Ledger.threadOf_mapped_none : (ledger.mapped gtid none).threadOf gtid = none := by
  unfold Ledger.threadOf Ledger.mapped
  dsimp only
  rw [Function.update_self]

theorem Ledger.threadOf_mapped_some {idx : BitVec 32}
    (owns : (ledger.mapped gtid (some idx)).threadOf gtid = some thread) :
    idx.toNat = thread.val := by
  unfold Ledger.threadOf Ledger.mapped at owns
  dsimp only at owns
  rw [Function.update_self] at owns
  dsimp only at owns
  split at owns
  · cases owns
    rfl
  · cases owns

/-- A thread that is known does not become absent by changing its phase. -/
theorem live_of_update {next : Phase} (present : phase gtid ≠ .absent) {other : BitVec 64}
    (live : Function.update phase gtid next other ≠ .absent) : phase other ≠ .absent := by
  by_cases same : other = gtid
  · exact same ▸ present
  · rwa [Function.update_of_ne same] at live

namespace Queue

variable (queue : Queue ledger phase index items)
include queue

theorem owner_unique {other : BitVec 64} (owns : ledger.threadOf gtid = some thread)
    (owns' : ledger.threadOf other = some thread) : gtid = other := by
  obtain ⟨live, isIndex⟩ := queue.owner gtid thread owns
  obtain ⟨live', isIndex'⟩ := queue.owner other thread owns'
  exact queue.distinct gtid other live live' (BitVec.eq_of_toNat_eq (isIndex.trans isIndex'.symm))

theorem threads_ne {other : BitVec 64} {elem : cfsMaxGtids.Elem} (different : other ≠ gtid)
    (owns : ledger.threadOf other = some elem) (owns' : ledger.threadOf gtid = some thread) :
    elem ≠ thread := by
  intro same
  rw [same] at owns
  exact different (queue.owner_unique owns owns')

theorem not_linked (owns : ledger.threadOf gtid = some thread) (idle : phase gtid ≠ .waiting) :
    thread ∉ items := by
  intro member
  obtain ⟨waits, owns'⟩ := queue.waiting thread member
  exact idle (queue.owner_unique owns owns' ▸ waits)

theorem announced (unknown : ledger.threadOf gtid = none) {next : Phase} {idx : BitVec 32}
    (stops : next ≠ .running)
    (own : ∀ other, other ≠ gtid → phase other ≠ .absent → index other ≠ idx) :
    Queue ledger (Function.update phase gtid next) (Function.update index gtid idx) items := by
  have different : ∀ {other elem}, ledger.threadOf other = some elem → other ≠ gtid := by
    rintro other elem owns rfl
    rw [unknown] at owns
    cases owns
  constructor
  · exact queue.linked
  · intro elem member
    obtain ⟨waits, owns⟩ := queue.waiting elem member
    rw [Function.update_of_ne (different owns)]
    exact ⟨waits, owns⟩
  · intro other runs
    by_cases same : other = gtid
    · rw [same, Function.update_self] at runs
      exact absurd runs stops
    · rw [Function.update_of_ne same] at runs
      exact queue.running other runs
  · intro other elem owns
    rw [Function.update_of_ne (different owns), Function.update_of_ne (different owns)]
    exact queue.owner other elem owns
  · intro one other live live' sameIndex
    by_cases same : one = gtid
    · by_cases same' : other = gtid
      · rw [same, same']
      · rw [Function.update_of_ne same'] at live' sameIndex
        rw [same, Function.update_self] at sameIndex
        exact absurd sameIndex.symm (own other same' live')
    · by_cases same' : other = gtid
      · rw [Function.update_of_ne same] at live sameIndex
        rw [same', Function.update_self] at sameIndex
        exact absurd sameIndex (own one same live)
      · rw [Function.update_of_ne same] at live sameIndex
        rw [Function.update_of_ne same'] at live' sameIndex
        exact queue.distinct one other live live' sameIndex

theorem live (present : phase gtid ≠ .absent) :
    ∀ other, other ≠ gtid → phase other ≠ .absent → index other ≠ index gtid :=
  fun other different present' same => different (queue.distinct other gtid present' present same)

theorem mapped {entry : Option (BitVec 32)}
    (unlinked : ∀ elem ∈ items, ledger.gtids elem ≠ gtid) (stopped : phase gtid ≠ .running)
    (own : ∀ elem, (ledger.mapped gtid entry).threadOf gtid = some elem →
      phase gtid ≠ .absent ∧ (index gtid).toNat = elem.val) :
    Queue (ledger.mapped gtid entry) phase index items := by
  constructor
  · exact queue.linked
  · intro elem member
    obtain ⟨waits, owns⟩ := queue.waiting elem member
    exact ⟨waits, (Ledger.threadOf_mapped_of_ne (unlinked elem member) entry).trans owns⟩
  · intro other runs
    obtain ⟨isCurrent, elem, owns⟩ := queue.running other runs
    have different : other ≠ gtid := fun same => stopped (same ▸ runs)
    exact ⟨isCurrent, elem, (Ledger.threadOf_mapped_of_ne different entry).trans owns⟩
  · intro other elem owns
    by_cases same : other = gtid
    · subst same
      exact own elem owns
    · rw [Ledger.threadOf_mapped_of_ne same] at owns
      exact queue.owner other elem owns
  · exact queue.distinct

/-- The id that is stored in a thread matters while it is linked. -/
theorem named (absent : thread ∉ items) : Queue (ledger.named gtid thread) phase index items := by
  constructor
  · exact queue.linked
  · intro elem member
    have different : elem ≠ thread := fun same => absent (same ▸ member)
    unfold Ledger.named
    dsimp only
    rw [Function.update_of_ne different]
    exact queue.waiting elem member
  · exact queue.running
  · exact queue.owner
  · exact queue.distinct

theorem enqueued (owns : ledger.threadOf gtid = some thread) (absent : thread ∉ items)
    (wakeup : Bool) :
    Queue (ledger.enqueued gtid thread wakeup) (Function.update phase gtid .waiting) index
      (if wakeup then items ++ [thread] else thread :: items) := by
  have present : phase gtid ≠ .absent := (queue.owner gtid thread owns).1
  constructor
  · cases wakeup
    · exact (queue.linked.insertHead fun _ => absent).only
    · exact (queue.linked.insertTail fun _ => absent).only
  · intro elem member
    change Function.update phase gtid .waiting (Function.update ledger.gtids thread gtid elem) = _ ∧
      ledger.threadOf (Function.update ledger.gtids thread gtid elem) = _
    by_cases same : elem = thread
    · rw [same, Function.update_self, Function.update_self]
      exact ⟨rfl, owns⟩
    · have earlier : elem ∈ items := by
        cases wakeup
        · exact (List.mem_cons.mp member).resolve_left same
        · exact (List.mem_append.mp member).resolve_right (mt List.mem_singleton.mp same)
      rw [Function.update_of_ne same]
      obtain ⟨waits, owns'⟩ := queue.waiting elem earlier
      refine ⟨?_, owns'⟩
      by_cases isOwn : ledger.gtids elem = gtid
      · rw [isOwn, Function.update_self]
      · rwa [Function.update_of_ne isOwn]
  · intro other runs
    by_cases same : other = gtid
    · rw [same, Function.update_self] at runs
      cases runs
    · rw [Function.update_of_ne same] at runs
      exact queue.running other runs
  · intro other elem owns'
    obtain ⟨othersPresent, isIndex⟩ := queue.owner other elem owns'
    refine ⟨?_, isIndex⟩
    by_cases same : other = gtid
    · rw [same, Function.update_self]
      decide
    · rwa [Function.update_of_ne same]
  · intro one other isLive isLive' sameIndex
    exact queue.distinct one other (live_of_update present isLive)
      (live_of_update present isLive') sameIndex

theorem removed (member : thread ∈ items) :
    Queue (ledger.removed thread) phase index (items.erase thread) := by
  constructor
  · exact (queue.linked.remove member).only
  · intro elem isElem
    exact queue.waiting elem (List.mem_of_mem_erase isElem)
  · exact queue.running
  · exact queue.owner
  · exact queue.distinct

/-- A thread that is linked nowhere starts on an idle CPU. -/
theorem started (owns : ledger.threadOf gtid = some thread) (absent : thread ∉ items)
    (idle : ∀ other, phase other ≠ .running) :
    Queue (ledger.started gtid) (Function.update phase gtid .running) index items := by
  constructor
  · exact queue.linked
  · intro elem isElem
    obtain ⟨waits, owns'⟩ := queue.waiting elem isElem
    refine ⟨?_, owns'⟩
    rw [Function.update_of_ne]
    · exact waits
    · intro same
      change ledger.gtids elem = _ at same
      rw [same, owns] at owns'
      exact absent (Option.some.inj owns' ▸ isElem)
  · intro other runs
    by_cases same : other = gtid
    · exact ⟨same.symm, thread, same ▸ owns⟩
    · rw [Function.update_of_ne same] at runs
      exact absurd runs (idle other)
  · intro other elem owns'
    obtain ⟨present, isIndex⟩ := queue.owner other elem owns'
    refine ⟨?_, isIndex⟩
    by_cases same : other = gtid
    · rw [same, Function.update_self]
      decide
    · rwa [Function.update_of_ne same]
  · have present := (queue.owner gtid thread owns).1
    intro one other isLive isLive' sameIndex
    exact queue.distinct one other (live_of_update present isLive)
      (live_of_update present isLive') sameIndex

/-- A thread that was unknown is named nowhere in the queue. -/
theorem gtids_ne (unknown : ledger.threadOf gtid = none) :
    ∀ elem ∈ items, ledger.gtids elem ≠ gtid := by
  intro elem member same
  have owns := (queue.waiting elem member).2
  rw [same, unknown] at owns
  cases owns

theorem not_running (unknown : ledger.threadOf gtid = none) : phase gtid ≠ .running := by
  intro runs
  obtain ⟨-, elem, owns⟩ := queue.running gtid runs
  rw [unknown] at owns
  cases owns

theorem unknown_of_absent (absent : phase gtid = .absent) : ledger.threadOf gtid = none := by
  cases owns : ledger.threadOf gtid with
  | none => rfl
  | some thread => exact absurd absent (queue.owner gtid thread owns).1

theorem waiting_of_unknown (unknown : ledger.threadOf gtid = none)
    (present : phase gtid ≠ .absent) (unblocked : phase gtid ≠ .blocked) :
    phase gtid = .waiting := by
  cases isPhase : phase gtid with
  | absent => exact absurd isPhase present
  | blocked => exact absurd isPhase unblocked
  | waiting => rfl
  | running => exact absurd isPhase (queue.not_running unknown)

theorem mapped_new (unknown : ledger.threadOf gtid = none) (present : phase gtid ≠ .absent) :
    Queue (ledger.mapped gtid (some (index gtid))) phase index items :=
  queue.mapped (queue.gtids_ne unknown) (queue.not_running unknown) fun _ owns =>
    ⟨present, Ledger.threadOf_mapped_some owns⟩

theorem new_not_linked (unknown : ledger.threadOf gtid = none) (present : phase gtid ≠ .absent)
    (owns : (ledger.mapped gtid (some (index gtid))).threadOf gtid = some thread) :
    thread ∉ items := by
  intro member
  have learned := queue.mapped_new unknown present
  have same := learned.owner_unique owns (learned.waiting thread member).2
  exact queue.gtids_ne unknown thread member same.symm

theorem learned (unknown : ledger.threadOf gtid = none) (present : phase gtid ≠ .absent)
    (runnable : Bool) (waits : runnable = true → phase gtid = .waiting) :
    ∃ items', Queue (ledger.learned gtid (index gtid) runnable) phase index items' := by
  have mapped := queue.mapped_new unknown present
  unfold Ledger.learned
  dsimp only
  split
  · exact ⟨items, mapped⟩
  · next thread owns =>
      have absent := queue.new_not_linked unknown present owns
      have named : Queue ((ledger.mapped gtid (some (index gtid))).named gtid thread) phase index
        items := mapped.named absent
      cases runnable with
      | false => exact ⟨items, named⟩
      | true =>
          have enqueued := named.enqueued owns absent false
          rw [← waits rfl, Function.update_eq_self] at enqueued
          exact ⟨_, enqueued⟩

/-- A thread leaves the CPU, and nothing is current. -/
theorem stopped (runs : phase gtid = .running) {next : Phase} (present : next ≠ .absent)
    (stops : next ≠ .running) :
    Queue (ledger.started 0) (Function.update phase gtid next) index items := by
  obtain ⟨isCurrent, thread, owns⟩ := queue.running gtid runs
  have wasPresent : phase gtid ≠ .absent := (queue.owner gtid thread owns).1
  constructor
  · exact queue.linked
  · intro elem member
    obtain ⟨waits, owns'⟩ := queue.waiting elem member
    have different : ledger.gtids elem ≠ gtid := by
      intro same
      rw [same, runs] at waits
      cases waits
    refine ⟨?_, owns'⟩
    change Function.update phase gtid next (ledger.gtids elem) = _
    rwa [Function.update_of_ne different]
  · intro other runs'
    by_cases same : other = gtid
    · rw [same, Function.update_self] at runs'
      exact absurd runs' stops
    · rw [Function.update_of_ne same] at runs'
      exact absurd ((queue.running other runs').1.symm.trans isCurrent) same
  · intro other elem owns'
    obtain ⟨othersPresent, isIndex⟩ := queue.owner other elem owns'
    refine ⟨?_, isIndex⟩
    by_cases same : other = gtid
    · rwa [same, Function.update_self]
    · rwa [Function.update_of_ne same]
  · intro one other isLive isLive' sameIndex
    exact queue.distinct one other (live_of_update wasPresent isLive)
      (live_of_update wasPresent isLive') sameIndex

end Queue

end Queue

section Steps

variable {cfs : Cfs} {phase : BitVec 64 → Phase} {index : BitVec 64 → BitVec 32}
  {items : List cfsMaxGtids.Elem} {gtid : BitVec 64}

theorem Cfs.threadOf_of_unmapped (unmapped : cfs.swLookup gtid = none) :
    cfs.ledger.threadOf gtid = none := by
  unfold Ledger.threadOf Cfs.ledger
  dsimp only
  rw [unmapped]

/-- An announcement is ignored, or it makes the thread known. -/
theorem Cfs.handleNew_cases (cfs : Cfs) (gtid : BitVec 64) (idx seqnum : BitVec 32)
    (runnable full : Bool) (now later : BitVec 64) :
    cfs.handleNew gtid idx seqnum runnable full now later = cfs ∨
    full = false ∧ cfs.swLookup gtid = none := by
  by_cases known : (full || (cfs.swLookup gtid).isSome) = true
  · exact .inl (if_pos known)
  · simp only [Bool.or_eq_true, not_or, Bool.not_eq_true, Option.isSome_eq_false_iff,
      Option.isNone_iff_eq_none] at known
    exact .inr known

/-- Nothing runs at a pick. -/
theorem CfsCpu.idle_of_sends {cpu : CfsCpu} {ctx : Cfs.PntCtx}
    {result : Except Cfs.RunError Unit} {cpuSeqnum now later : BitVec 64}
    (sends : cpu.Sends (.pnt ctx result cpuSeqnum now later))
    (takes : cpu.cfs.keepsOff ctx = false) : ∀ other, cpu.phase other ≠ .running := by
  intro other runs
  have taken : ctx.nextGtid ≠ 0 := sends ⟨other, runs⟩
  unfold Cfs.keepsOff at takes
  rw [decide_eq_true taken, Bool.or_true] at takes
  cases takes

theorem Queue.pickNextTask (queue : Queue cfs.ledger phase index items)
    {picked : cfsMaxGtids.Elem × Cfs} (picks : cfs.pickNextTask = some picked) :
    picked.1 ∈ items ∧ picked.2 = { cfs with lists := cfs.lists.remove () picked.1 } := by
  unfold Cfs.pickNextTask at picks
  cases isFirst : cfs.lists.first () with
  | none =>
      rw [isFirst] at picks
      cases picks
  | some first =>
      rw [isFirst] at picks
      dsimp only at picks
      cases picks
      refine ⟨?_, rfl⟩
      have represents : cfs.lists.Represents () items := queue.linked.represents ()
      apply @ArrLists.Represents.foreach_invariant _ _ _ _ _ _ represents _
        (fun best : cfsMaxGtids.Elem × BitVec 64 => best.1 ∈ items)
      · intro elem member best isBest
        dsimp only
        split
        · exact member
        · exact isBest
      · exact queue.linked.mem_of_first isFirst

end Steps

end Ghost.Bpf
