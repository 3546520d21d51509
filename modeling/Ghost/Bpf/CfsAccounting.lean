import Ghost.Bpf.CfsVruntime

/-!
# Accounts

The intervals for which each thread ran, from its announcement on the CPU to the message that it
left, kept beside the scheduler; and when its virtual runtime agrees with them.
-/

set_option autoImplicit false

namespace Ghost.Bpf

open Lib

/-- Not in the code: by thread, since its last placement after a wakeup. -/
structure Accounts where
  /-- The vruntime with which it was placed. -/
  placed : BitVec 64 → Option (BitVec 64)
  /-- `calc_delta_fair` of the intervals that it ran. -/
  charges : BitVec 64 → List (BitVec 64)
  /-- When it was last announced on the CPU. -/
  startedAt : BitVec 64 → BitVec 64

def Accounts.empty : Accounts := ⟨fun _ => none, fun _ => [], fun _ => 0⟩

namespace CfsCpu

/-- The thread that `cfs_pnt` tries to run. -/
def picks (cpu : CfsCpu) (ctx : Cfs.PntCtx) : Option (cfsMaxGtids.Elem × Cfs) :=
  if cpu.cfs.keepsOff ctx then none else cpu.cfs.pickNextTask

def withCfs (cpu : CfsCpu) (cfs : Cfs) : CfsCpu := { cpu with cfs := cfs }

end CfsCpu

namespace Accounts

variable (accounts : Accounts)

/-- A thread leaves the CPU. -/
def stop (cpu : CfsCpu) (gtid now : BitVec 64) : Accounts :=
  match cpu.cfs.gtidToThread gtid with
  | none => accounts
  | some thread =>
      let charge := Cfs.calcDeltaFair (now - accounts.startedAt gtid) (cpu.cfs.threads thread)
      { accounts with
        charges := Function.update accounts.charges gtid (charge :: accounts.charges gtid) }

/-- A thread was placed after a wakeup. -/
def place (next : CfsCpu) (gtid : BitVec 64) : Accounts :=
  match next.cfs.gtidToThread gtid with
  | none => accounts
  | some thread =>
      { accounts with
        placed := Function.update accounts.placed gtid (some (next.cfs.threads thread).vruntime)
        charges := Function.update accounts.charges gtid [] }

def start (gtid now : BitVec 64) : Accounts :=
  { accounts with startedAt := Function.update accounts.startedAt gtid now }

def enter (cpu : CfsCpu) (event : CfsEvent) (next : CfsCpu) : Accounts :=
  match event with
  | .wakeup gtid _ _ _ => accounts.place next gtid
  | .preempt gtid _ now _ => accounts.stop cpu gtid now
  | .yield gtid _ now _ => accounts.stop cpu gtid now
  | .blocked gtid now => accounts.stop cpu gtid now
  | .pnt ctx (.ok _) _ now _ =>
      match cpu.picks ctx with
      | none => accounts
      | some picked => accounts.start (cpu.cfs.threads picked.1).gtid now
  | _ => accounts

end Accounts

/-- A CPU with its accounts. -/
structure MeteredCpu where
  cpu : CfsCpu
  accounts : Accounts

/-- A thread that neither dies nor departs. -/
def CfsEvent.Stays : CfsEvent → Prop
  | .dead _ => False
  | .departed .. => False
  | _ => True

/-- The run queue while its threads stay. -/
def meteredCpu : Machine MeteredCpu CfsEvent where
  initial state := cfsCpu.initial state.cpu ∧ state.accounts = .empty
  step state event next := event.Stays ∧ cfsCpu.step state.cpu event next.cpu ∧
    next.accounts = state.accounts.enter state.cpu event next.cpu

namespace MeteredCpu

variable (state : MeteredCpu)

/-- Since a thread was placed, its vruntime grew by its charges; while it runs, also by what it is
charged up to `ran_at`. -/
def Accounted (gtid : BitVec 64) : Prop :=
  ∀ thread placed, state.cpu.cfs.gtidToThread gtid = some thread →
    state.accounts.placed gtid = some placed →
    (state.cpu.cfs.threads thread).vruntime = placed + (state.accounts.charges gtid).sum +
      if state.cpu.phase gtid = .running then
        Cfs.calcDeltaFair ((state.cpu.cfs.threads thread).ranAt - state.accounts.startedAt gtid)
          (state.cpu.cfs.threads thread)
      else 0

/-- What a thread that leaves the CPU still owes. -/
def Owes (gtid now amount : BitVec 64) : Prop :=
  ∀ thread, state.cpu.cfs.gtidToThread gtid = some thread → state.accounts.placed gtid ≠ none →
    Cfs.calcDeltaFair (now - (state.cpu.cfs.threads thread).ranAt)
      (state.cpu.cfs.threads thread) = amount

/-- A thread that could not be run is enqueued again as it was. -/
def PutsBack (ctx : Cfs.PntCtx) : Prop :=
  ∀ picked, state.cpu.picks ctx = some picked →
    state.accounts.placed (state.cpu.cfs.threads picked.1).gtid ≠ none →
    state.cpu.cfs.minVruntime = 0

/-- The events at which a thread is charged what is due: the minimum that is added to it, or
nothing. -/
def Charges : CfsEvent → Prop
  | .preempt gtid _ now _ => state.Owes gtid now state.cpu.cfs.minVruntime
  | .yield gtid _ now _ => state.Owes gtid now state.cpu.cfs.minVruntime
  | .blocked gtid now => state.Owes gtid now 0
  | .pnt ctx (.error .EBUSY) _ _ _ => state.PutsBack ctx
  | .pnt ctx (.error .other) _ _ _ => state.PutsBack ctx
  | _ => True

def after (event : CfsEvent) : MeteredCpu :=
  ⟨state.cpu.handle event, state.accounts.enter state.cpu event (state.cpu.handle event)⟩

end MeteredCpu

/-! ## Whose thread is current -/

/-- The current thread is the one that runs, and placed threads are known. -/
structure MeteredCpu.Seated (state : MeteredCpu) : Prop where
  queue : ∃ items, Queue state.cpu.cfs.ledger state.cpu.phase state.cpu.index items
  paired : state.cpu.cfs.pcpuCurrent = state.cpu.cfs.current
  current : state.cpu.cfs.current ≠ 0 → state.cpu.phase state.cpu.cfs.current = .running
  known : ∀ gtid, state.accounts.placed gtid ≠ none → state.cpu.cfs.gtidToThread gtid ≠ none

section Frame

variable {state next : MeteredCpu} {gtid other : BitVec 64} {thread : cfsMaxGtids.Elem}

/-- Between the events of a thread it is charged for running, and not otherwise. -/
structure Follows (running : Prop) (before after : CfsThread) : Prop where
  charged : running → before.Charged after
  stays : ¬ running → after.vruntime = before.vruntime

theorem CfsThread.Unmoved.follows {running : Prop} {before after : CfsThread}
    (unmoved : before.Unmoved after) : Follows running before after :=
  ⟨fun _ => unmoved.charged, fun _ => unmoved.vruntime⟩

namespace MeteredCpu

theorem Accounted.frame (accounted : state.Accounted gtid)
    (sameThread : next.cpu.cfs.gtidToThread gtid = state.cpu.cfs.gtidToThread gtid)
    (samePhase : next.cpu.phase gtid = state.cpu.phase gtid)
    (samePlaced : next.accounts.placed gtid = state.accounts.placed gtid)
    (sameCharges : next.accounts.charges gtid = state.accounts.charges gtid)
    (sameStart : next.accounts.startedAt gtid = state.accounts.startedAt gtid)
    (follows : ∀ thread, state.cpu.cfs.gtidToThread gtid = some thread →
      Follows (state.cpu.phase gtid = .running) (state.cpu.cfs.threads thread)
        (next.cpu.cfs.threads thread)) : next.Accounted gtid := by
  intro thread placed owns isPlaced
  rw [sameThread] at owns
  rw [samePlaced] at isPlaced
  have before := accounted thread placed owns isPlaced
  have moved := follows thread owns
  rw [samePhase, sameCharges, sameStart]
  by_cases runs : state.cpu.phase gtid = .running
  · rw [if_pos runs] at before ⊢
    have charged := moved.charged runs
    have split := Cfs.calcDeltaFair_add
      ((state.cpu.cfs.threads thread).ranAt - state.accounts.startedAt gtid)
      ((next.cpu.cfs.threads thread).ranAt - (state.cpu.cfs.threads thread).ranAt) charged.weight
    have whole : (state.cpu.cfs.threads thread).ranAt - state.accounts.startedAt gtid +
        ((next.cpu.cfs.threads thread).ranAt - (state.cpu.cfs.threads thread).ranAt) =
        (next.cpu.cfs.threads thread).ranAt - state.accounts.startedAt gtid := by
      ring
    rw [whole] at split
    rw [charged.vruntime, before, split]
    ring
  · rw [if_neg runs] at before ⊢
    rw [moved.stays runs, before]

/-- The current thread keeps running when another one changes its phase. -/
theorem Seated.runs_on (seated : state.Seated) (stopped : state.cpu.phase gtid ≠ .running)
    (phase : Phase) (isSet : state.cpu.cfs.current ≠ 0) :
    Function.update state.cpu.phase gtid phase state.cpu.cfs.current = .running := by
  have runs := seated.current isSet
  rwa [Function.update_of_ne]
  intro isGtid
  exact stopped (isGtid ▸ runs)

/-- What an enqueue leaves to the other threads. -/
theorem Seated.follows (seated : state.Seated)
    (owns : state.cpu.cfs.gtidToThread other = some thread) {after : CfsThread}
    (unmoved : state.cpu.cfs.getCurrent ≠ some thread →
      (state.cpu.cfs.threads thread).Unmoved after)
    (charged : state.cpu.cfs.getCurrent = some thread →
      (state.cpu.cfs.threads thread).Charged after) :
    Follows (state.cpu.phase other = .running) (state.cpu.cfs.threads thread) after := by
  by_cases isCurrent : state.cpu.cfs.getCurrent = some thread
  · have isSet : state.cpu.cfs.pcpuCurrent ≠ 0 := by
      intro isZero
      rw [Cfs.getCurrent, if_pos isZero] at isCurrent
      cases isCurrent
    rw [Cfs.getCurrent, if_neg isSet] at isCurrent
    obtain ⟨items, queue⟩ := seated.queue
    have isOther : other = state.cpu.cfs.pcpuCurrent := queue.owner_unique owns isCurrent
    have runs : state.cpu.phase other = .running := by
      rw [seated.paired] at isSet isOther
      rw [isOther]
      exact seated.current isSet
    refine ⟨fun _ => charged ?_, fun stopped => absurd runs stopped⟩
    rw [Cfs.getCurrent, if_neg isSet]
    exact isCurrent
  · exact (unmoved isCurrent).follows

end MeteredCpu

/-- The accounts of one thread are changed. -/
structure Accounts.SameBut (accounts accounts' : Accounts) (gtid : BitVec 64) : Prop where
  placed : ∀ other, other ≠ gtid → accounts'.placed other = accounts.placed other
  charges : ∀ other, other ≠ gtid → accounts'.charges other = accounts.charges other
  startedAt : ∀ other, other ≠ gtid → accounts'.startedAt other = accounts.startedAt other

theorem Accounts.SameBut.refl (accounts : Accounts) (gtid : BitVec 64) :
    accounts.SameBut accounts gtid :=
  ⟨fun _ _ => rfl, fun _ _ => rfl, fun _ _ => rfl⟩

theorem Accounts.SameBut.known {accounts accounts' : Accounts}
    (same : accounts.SameBut accounts' gtid) {cfs cfs' : Cfs}
    (known : ∀ other, accounts.placed other ≠ none → cfs.gtidToThread other ≠ none)
    (sameThread : ∀ other, cfs'.gtidToThread other = cfs.gtidToThread other)
    (owns : cfs.gtidToThread gtid = some thread) :
    ∀ other, accounts'.placed other ≠ none → cfs'.gtidToThread other ≠ none := by
  intro other isPlaced
  rw [sameThread]
  by_cases isGtid : other = gtid
  · rw [isGtid, owns]
    simp
  · rw [same.placed other isGtid] at isPlaced
    exact known other isPlaced

theorem Accounts.stop_sameBut (accounts : Accounts) (cpu : CfsCpu) (gtid now : BitVec 64) :
    accounts.SameBut (accounts.stop cpu gtid now) gtid := by
  unfold Accounts.stop
  split
  · exact .refl _ _
  · exact ⟨fun _ _ => rfl, fun _ different => Function.update_of_ne different .., fun _ _ => rfl⟩

theorem Accounts.place_sameBut (accounts : Accounts) (next : CfsCpu) (gtid : BitVec 64) :
    accounts.SameBut (accounts.place next gtid) gtid := by
  unfold Accounts.place
  split
  · exact .refl _ _
  · exact ⟨fun _ different => Function.update_of_ne different ..,
      fun _ different => Function.update_of_ne different .., fun _ _ => rfl⟩

theorem Accounts.start_sameBut (accounts : Accounts) (gtid now : BitVec 64) :
    accounts.SameBut (accounts.start gtid now) gtid :=
  ⟨fun _ _ => rfl, fun _ _ => rfl, fun _ different => Function.update_of_ne different ..⟩

/-- A known thread is linked again. -/
structure Cfs.Requeues (cfs cfs' : Cfs) (gtid : BitVec 64) (thread : cfsMaxGtids.Elem)
    (wakeup : Bool) : Prop where
  ledger : cfs'.ledger = cfs.ledger.enqueued gtid thread wakeup
  enqueues : cfs.Enqueues cfs' thread cfs.getCurrent

theorem Cfs.enqueueTask_requeues {cfs : Cfs} (owns : cfs.gtidToThread gtid = some thread)
    (now : BitVec 64) (taskBarrier flags : BitVec 32) :
    cfs.Requeues (cfs.enqueueTask now gtid taskBarrier flags) gtid thread
      (flags &&& ENQUEUE_WAKEUP ≠ 0) :=
  ⟨Cfs.ledger_enqueueTask owns taskBarrier flags, Cfs.enqueueTask_enqueues owns now taskBarrier flags⟩

namespace MeteredCpu

variable {cfs' : Cfs} {accounts' : Accounts} {items : List cfsMaxGtids.Elem}

theorem Seated.requeue (seated : state.Seated)
    (accounted : ∀ other, other ≠ gtid → state.Accounted other)
    (queue : Queue state.cpu.cfs.ledger state.cpu.phase state.cpu.index items)
    (owns : state.cpu.cfs.gtidToThread gtid = some thread) (absent : thread ∉ items)
    (stopped : state.cpu.phase gtid ≠ .running) {wakeup : Bool}
    (requeues : state.cpu.cfs.Requeues cfs' gtid thread wakeup)
    (same : state.accounts.SameBut accounts' gtid) :
    Seated ⟨state.cpu.setPhase cfs' gtid .waiting, accounts'⟩ ∧
      ∀ other, other ≠ gtid →
        Accounted ⟨state.cpu.setPhase cfs' gtid .waiting, accounts'⟩ other := by
  have enqueued := queue.enqueued owns absent wakeup
  rw [← requeues.ledger] at enqueued
  have sameThread : ∀ other, cfs'.gtidToThread other = state.cpu.cfs.gtidToThread other :=
    fun other => congrArg (fun ledger => ledger.threadOf other) requeues.ledger
  have sameCurrent : cfs'.current = state.cpu.cfs.current := congrArg Ledger.current requeues.ledger
  refine ⟨⟨⟨_, enqueued⟩, ?_, ?_, ?_⟩, ?_⟩
  · exact requeues.enqueues.pcpuCurrent.trans (seated.paired.trans sameCurrent.symm)
  · intro isSet
    change cfs'.current ≠ 0 at isSet
    change Function.update state.cpu.phase gtid .waiting cfs'.current = .running
    rw [sameCurrent] at isSet ⊢
    exact seated.runs_on stopped .waiting isSet
  · exact same.known seated.known sameThread owns
  · intro other different
    refine (accounted other different).frame (sameThread other)
      (Function.update_of_ne different ..) (same.placed other different)
      (same.charges other different) (same.startedAt other different) ?_
    intro otherThread ownsOther
    have apart : otherThread ≠ thread := queue.threads_ne different ownsOther owns
    exact seated.follows ownsOther (requeues.enqueues.others otherThread apart)
      (requeues.enqueues.charged otherThread apart)

/-- A running thread leaves the CPU. -/
theorem Seated.stop (seated : state.Seated) (accounted : ∀ other, state.Accounted other)
    (runs : state.cpu.phase gtid = .running)
    (owns : state.cpu.cfs.gtidToThread gtid = some thread) {store : CfsThread → CfsThread}
    (keeps : (state.cpu.cfs.threads thread).Unmoved (store (state.cpu.cfs.threads thread)))
    (keepsGtid : (store (state.cpu.cfs.threads thread)).gtid = (state.cpu.cfs.threads thread).gtid)
    {phase : Phase} (present : phase ≠ .absent) (stops : phase ≠ .running)
    (same : state.accounts.SameBut accounts' gtid) :
    Seated ⟨state.cpu.setPhase (state.cpu.cfs.setThread thread store).taskStopped gtid phase,
        accounts'⟩ ∧
      ∀ other, other ≠ gtid →
        Accounted ⟨state.cpu.setPhase (state.cpu.cfs.setThread thread store).taskStopped gtid phase,
          accounts'⟩ other := by
  obtain ⟨items, queue⟩ := seated.queue
  have left := queue.stopped runs present stops
  have sameLedger : (state.cpu.cfs.setThread thread store).taskStopped.ledger =
      state.cpu.cfs.ledger.started 0 :=
    congrArg (fun ledger => Ledger.started ledger 0) (Cfs.ledger_setThread keeps.weight keepsGtid)
  rw [← sameLedger] at left
  refine ⟨⟨⟨items, left⟩, rfl, fun isSet => absurd rfl isSet, ?_⟩, ?_⟩
  · exact same.known seated.known (fun _ => rfl) owns
  · intro other different
    refine (accounted other).frame rfl (Function.update_of_ne different ..)
      (same.placed other different) (same.charges other different)
      (same.startedAt other different) ?_
    intro otherThread _
    exact (Cfs.setThread_unmoved keeps otherThread).follows

end MeteredCpu

end Frame

/-! ## One event -/

section Steps

variable {state next : MeteredCpu} {gtid now amount : BitVec 64} {thread : cfsMaxGtids.Elem}

namespace MeteredCpu

/-- Whose thread is current is known, and the accounts are right. -/
structure InOrder (state : MeteredCpu) : Prop where
  seated : state.Seated
  accounted : ∀ gtid, state.Accounted gtid

/-- What an event makes of a CPU that is in order. -/
structure Meters (state : MeteredCpu) (event : CfsEvent) : Prop where
  seated : (state.after event).Seated
  accounted_iff : (∀ gtid, (state.after event).Accounted gtid) ↔ state.Charges event

theorem InOrder.meters_of_eq (inOrder : state.InOrder) {event : CfsEvent}
    (unchanged : state.after event = state) (charges : state.Charges event) :
    state.Meters event := by
  constructor
  · rw [unchanged]
    exact inOrder.seated
  · rw [unchanged]
    exact ⟨fun _ => charges, fun _ => inOrder.accounted⟩

/-- All but one thread are accounted for. -/
theorem accounted_iff_own (others : ∀ other, other ≠ gtid → state.Accounted other) :
    (∀ other, state.Accounted other) ↔ state.Accounted gtid := by
  constructor
  · exact fun all => all gtid
  · intro own other
    by_cases same : other = gtid
    · exact same ▸ own
    · exact others other same

theorem Accounted.stopped_iff (accounted : state.Accounted gtid)
    (owns : state.cpu.cfs.gtidToThread gtid = some thread)
    (runs : state.cpu.phase gtid = .running)
    (sameThread : next.cpu.cfs.gtidToThread gtid = state.cpu.cfs.gtidToThread gtid)
    (stops : next.cpu.phase gtid ≠ .running)
    (isAccounts : next.accounts = state.accounts.stop state.cpu gtid now)
    (moved : (next.cpu.cfs.threads thread).vruntime =
      (state.cpu.cfs.threads thread).vruntime + amount) :
    next.Accounted gtid ↔ state.Owes gtid now amount := by
  have split := @Cfs.calcDeltaFair_add
    ((state.cpu.cfs.threads thread).ranAt - state.accounts.startedAt gtid)
    (now - (state.cpu.cfs.threads thread).ranAt) (state.cpu.cfs.threads thread) _ rfl
  have whole : (state.cpu.cfs.threads thread).ranAt - state.accounts.startedAt gtid +
      (now - (state.cpu.cfs.threads thread).ranAt) = now - state.accounts.startedAt gtid := by
    ring
  rw [whole] at split
  have samePlaced : next.accounts.placed gtid = state.accounts.placed gtid := by
    rw [isAccounts, Accounts.stop, owns]
  have isCharged : (next.accounts.charges gtid).sum =
      Cfs.calcDeltaFair (now - state.accounts.startedAt gtid) (state.cpu.cfs.threads thread) +
        (state.accounts.charges gtid).sum := by
    rw [isAccounts, Accounts.stop, owns]
    dsimp only
    rw [Function.update_self, List.sum_cons]
  have before : ∀ placed, state.accounts.placed gtid = some placed →
      (state.cpu.cfs.threads thread).vruntime = placed + (state.accounts.charges gtid).sum +
        Cfs.calcDeltaFair ((state.cpu.cfs.threads thread).ranAt - state.accounts.startedAt gtid)
          (state.cpu.cfs.threads thread) := by
    intro placed isPlaced
    have before := accounted thread placed owns isPlaced
    rwa [if_pos runs] at before
  constructor
  · intro after elem ownsElem wasPlaced
    obtain rfl := Option.some.inj (owns.symm.trans ownsElem)
    obtain ⟨placed, isPlaced⟩ := Option.ne_none_iff_exists'.mp wasPlaced
    have grown := after thread placed (sameThread.trans owns) (samePlaced.trans isPlaced)
    rw [if_neg stops, moved, before placed isPlaced, isCharged, split] at grown
    linear_combination -grown
  · intro owes elem placed ownsElem isPlaced
    rw [sameThread] at ownsElem
    rw [samePlaced] at isPlaced
    obtain rfl := Option.some.inj (owns.symm.trans ownsElem)
    have due := owes thread owns (by rw [isPlaced]; simp)
    rw [if_neg stops, moved, before placed isPlaced, isCharged, split, due]
    ring

/-- A waiting thread whose vruntime is raised. -/
theorem Accounted.raised_iff (accounted : state.Accounted gtid)
    (owns : state.cpu.cfs.gtidToThread gtid = some thread)
    (idle : state.cpu.phase gtid ≠ .running)
    (sameThread : next.cpu.cfs.gtidToThread gtid = state.cpu.cfs.gtidToThread gtid)
    (stays : next.cpu.phase gtid ≠ .running)
    (sameAccounts : next.accounts = state.accounts)
    (moved : (next.cpu.cfs.threads thread).vruntime =
      (state.cpu.cfs.threads thread).vruntime + amount) :
    next.Accounted gtid ↔ (state.accounts.placed gtid ≠ none → amount = 0) := by
  constructor
  · intro after wasPlaced
    obtain ⟨placed, isPlaced⟩ := Option.ne_none_iff_exists'.mp wasPlaced
    have before := accounted thread placed owns isPlaced
    have grown := after thread placed (sameThread.trans owns) (by rw [sameAccounts, isPlaced])
    rw [if_neg idle] at before
    rw [if_neg stays, moved, sameAccounts] at grown
    linear_combination grown - before
  · intro zero elem placed ownsElem isPlaced
    rw [sameThread] at ownsElem
    rw [sameAccounts] at isPlaced
    obtain rfl := Option.some.inj (owns.symm.trans ownsElem)
    have before := accounted thread placed owns isPlaced
    rw [if_neg idle] at before
    rw [if_neg stays, moved, sameAccounts, before, zero (by rw [isPlaced]; simp)]
    ring

end MeteredCpu

end Steps

end Ghost.Bpf
