import Ghost.Biff.Handlers

/-!
# One task at a time

What the kernel, `sw_lookup` and the queue say about one task, and how a step of the system can
change it.
-/

set_option autoImplicit false

namespace Ghost.Biff

open Lib

structure View (Core : Type) where
  thread : Option (Thread Core)
  known : Bool
  /-- How many entries of the task have a barrier, in the queue and in the hands of `biff_pnt`. -/
  copies : BitVec 32 → Nat

section Views

variable {Core Gtid : Type}

/-- The messages that there can be about a task: which barriers one with a handler gives to it,
which ones one that the programs ignore, and whether the task leaves. -/
structure Messages where
  Issues : BitVec 32 → Prop
  Renumbers : BitVec 32 → Prop
  Leaves : Prop

inductive View.Step (messages : Messages) (view : View Core) : View Core → Prop
  | same : Step messages view view
  /-- No message is sent. -/
  | moves {phase phase' : Phase Core} {barrier : BitVec 32} :
      view.thread = some ⟨phase, barrier⟩ → phase'.isRunnable = phase.isRunnable →
      Step messages view ⟨some ⟨phase', barrier⟩, view.known, view.copies⟩
  | stops {phase : Phase Core} {barrier : BitVec 32} (known : Bool) :
      phase.isRunnable = false → messages.Issues barrier →
      Step messages view ⟨some ⟨phase, barrier⟩, known, view.copies⟩
  | enqueued {phase : Phase Core} {barrier : BitVec 32} :
      phase.isRunnable = true → messages.Issues barrier →
      Step messages view ⟨some ⟨phase, barrier⟩, true,
        Function.update view.copies barrier (view.copies barrier + 1)⟩
  /-- The handlers do not know the task. -/
  | unknown {phase : Phase Core} {barrier : BitVec 32} :
      view.known = false → messages.Issues barrier →
      Step messages view ⟨some ⟨phase, barrier⟩, false, view.copies⟩
  | renumbers {phase : Phase Core} {before barrier : BitVec 32} :
      view.thread = some ⟨phase, before⟩ → messages.Renumbers barrier →
      Step messages view ⟨some ⟨phase, barrier⟩, view.known, view.copies⟩
  | leaves : messages.Leaves → Step messages view ⟨none, false, view.copies⟩
  /-- `biff_pnt` drops an entry that is not the thread's. -/
  | drops {barrier : BitVec 32} :
      (∀ thread, view.thread = some thread → thread.barrier ≠ barrier) →
      Step messages view ⟨view.thread, view.known,
        Function.update view.copies barrier (view.copies barrier - 1)⟩
  | latched {barrier : BitVec 32} {cpu : Core} :
      view.thread = some ⟨.runnable false, barrier⟩ → 0 < view.copies barrier →
      Step messages view ⟨some ⟨.latched cpu, barrier⟩, view.known,
        Function.update view.copies barrier (view.copies barrier - 1)⟩

variable [DecidableEq Core] [Fintype Core] [DecidableEq Gtid] {system next : System Core Gtid}
  {item : RqItem Gtid} {gtid : Gtid}

def System.copies (system : System Core Gtid) (item : RqItem Gtid) : Nat :=
  system.maps.globalRq.count item + tally fun cpu => (system.pnts cpu).item = some item

def System.view (system : System Core Gtid) (gtid : Gtid) : View Core :=
  ⟨system.threads gtid, (system.maps.gtidToSwd gtid).isSome,
    fun barrier => system.copies ⟨gtid, barrier⟩⟩

omit [DecidableEq Core] in
private theorem System.copies_append {extra : List (RqItem Gtid)} (pnts : next.pnts = system.pnts)
    (globalRq : next.maps.globalRq = system.maps.globalRq ++ extra) :
    next.copies item = system.copies item + extra.count item := by
  unfold System.copies
  rw [pnts, globalRq, List.count_append]
  omega

/-- `biff_pnt` on one CPU goes on with another entry, or with none. -/
theorem System.copies_setPnt (cpu : Core) (pc : PntPc Gtid) :
    ((system.setPnt cpu pc).copies item : Int) =
      system.copies item - unit ((system.pnts cpu).item = some item) +
        unit (pc.item = some item) := by
  have others : ∀ other, other ≠ cpu → (((system.setPnt cpu pc).pnts other).item = some item ↔
      (system.pnts other).item = some item) := by
    intro other different
    rw [show (system.setPnt cpu pc).pnts other = system.pnts other from
      Function.update_of_ne different _ _]
  have change := tally_change others
  have isPc : (system.setPnt cpu pc).pnts cpu = pc := Function.update_self ..
  simp only [isPc] at change
  unfold System.copies
  push_cast
  rw [change]
  show (system.maps.globalRq.count item : Int) + _ = _
  ring

omit [DecidableEq Core] in
private theorem System.view_congr (threads : next.threads gtid = system.threads gtid)
    (known : next.maps.gtidToSwd gtid = system.maps.gtidToSwd gtid)
    (copies : ∀ barrier, next.copies ⟨gtid, barrier⟩ = system.copies ⟨gtid, barrier⟩) :
    next.view gtid = system.view gtid := by
  unfold System.view
  rw [threads, known, funext copies]

/-! ## Messages -/

/-- What a message about a task leaves alone, and what it leaves. -/
structure System.Sends (system next : System Core Gtid) (gtid : Gtid)
    (thread : Option (Thread Core)) (known : Bool) (extra : List (RqItem Gtid)) : Prop where
  threads : next.threads = Function.update system.threads gtid thread
  pnts : next.pnts = system.pnts
  known : (next.maps.gtidToSwd gtid).isSome = known
  others : ∀ other, other ≠ gtid → next.maps.gtidToSwd other = system.maps.gtidToSwd other
  globalRq : next.maps.globalRq = system.maps.globalRq ++ extra
  own : ∀ item ∈ extra, item.gtid = gtid

section Sends

variable {thread : Option (Thread Core)} {known : Bool} {extra : List (RqItem Gtid)} {other : Gtid}

omit [DecidableEq Core] in
private theorem System.Sends.view_other (sends : system.Sends next gtid thread known extra)
    (different : other ≠ gtid) : next.view other = system.view other := by
  apply System.view_congr
  · rw [sends.threads, Function.update_of_ne different]
  · exact sends.others other different
  · intro barrier
    have absent : extra.count ⟨other, barrier⟩ = 0 := by
      rw [List.count_eq_zero]
      intro member
      exact different (sends.own _ member)
    rw [System.copies_append sends.pnts sends.globalRq, absent, Nat.add_zero]

omit [DecidableEq Core] in
theorem System.Sends.view_self (sends : system.Sends next gtid thread known []) :
    next.view gtid = ⟨thread, known, (system.view gtid).copies⟩ := by
  unfold System.view
  have copies : ∀ barrier, next.copies ⟨gtid, barrier⟩ = system.copies ⟨gtid, barrier⟩ := by
    intro barrier
    rw [System.copies_append sends.pnts sends.globalRq, List.count_nil, Nat.add_zero]
  rw [sends.threads, Function.update_self, sends.known, funext copies]

omit [DecidableEq Core] in
private theorem System.Sends.view_enqueued {barrier : BitVec 32}
    (sends : system.Sends next gtid thread known [⟨gtid, barrier⟩]) :
    next.view gtid = ⟨thread, known, Function.update (system.view gtid).copies barrier
      ((system.view gtid).copies barrier + 1)⟩ := by
  unfold System.view
  have copies : ∀ name, next.copies ⟨gtid, name⟩ =
      Function.update (fun name => system.copies ⟨gtid, name⟩) barrier
        (system.copies ⟨gtid, barrier⟩ + 1) name := by
    intro name
    rw [System.copies_append sends.pnts sends.globalRq]
    by_cases same : name = barrier
    · subst same
      rw [Function.update_self, List.count_singleton_self]
    · rw [Function.update_of_ne same, List.count_singleton, if_neg, Nat.add_zero]
      simp [Ne.symm same]
  rw [sends.threads, Function.update_self, sends.known, funext copies]

omit [Fintype Core] in
theorem System.sends_quiet {seqnum : BitVec 32} {msg : Msg Core Gtid} (quiet : msg.Quiet) :
    system.Sends (system.send gtid thread seqnum msg) gtid thread
      (system.maps.gtidToSwd gtid).isSome [] := by
  obtain ⟨swLookup, globalRq⟩ := @Maps.send_quiet _ _ _ _ system.maps system.now seqnum msg quiet
  have same : ∀ name, (system.send gtid thread seqnum msg).maps.gtidToSwd name =
      system.maps.gtidToSwd name := fun name => Maps.gtidToSwd_congr (congrArg _ swLookup)
  exact ⟨rfl, rfl, by rw [same], fun name _ => same name,
    globalRq.trans (List.append_nil _).symm, fun item impossible => by cases impossible⟩

omit [Fintype Core] in
theorem System.sends_wakes {seqnum : BitVec 32} {msg : Msg Core Gtid} (wakes : msg.Wakes gtid)
    (room : system.maps.globalRq.length < biffMaxGtids) :
    system.Sends (system.send gtid thread seqnum msg) gtid thread
      (system.maps.gtidToSwd gtid).isSome
      (if (system.maps.gtidToSwd gtid).isSome then [⟨gtid, seqnum⟩] else []) := by
  obtain ⟨swLookup, isKnown, isUnknown⟩ :=
    @Maps.send_wakes _ _ _ _ system.maps gtid system.now seqnum msg wakes
  have same : ∀ name, (system.send gtid thread seqnum msg).maps.gtidToSwd name =
      system.maps.gtidToSwd name := fun name => Maps.gtidToSwd_congr (congrArg _ swLookup)
  refine ⟨rfl, rfl, by rw [same], fun name _ => same name, ?_, ?_⟩
  · by_cases known : (system.maps.gtidToSwd gtid).isSome = true
    · rw [if_pos known]
      exact isKnown (Option.isSome_iff_ne_none.mp known) room
    · rw [if_neg known, List.append_nil]
      exact isUnknown fun found => known (Option.isSome_iff_ne_none.mpr found)
  · intro item member
    split at member
    · rw [List.mem_singleton.mp member]
    · cases member

omit [Fintype Core] in
theorem System.sends_forgets {seqnum : BitVec 32} {msg : Msg Core Gtid}
    (forgets : msg.Forgets gtid) :
    system.Sends (system.send gtid thread seqnum msg) gtid thread false [] := by
  obtain ⟨lookup, globalRq⟩ :=
    @Maps.send_forgets _ _ _ _ system.maps gtid system.now seqnum msg forgets
  refine ⟨rfl, rfl, ?_, ?_, globalRq.trans (List.append_nil _).symm,
    fun item impossible => by cases impossible⟩
  · have absent : (system.send gtid thread seqnum msg).maps.swLookup.lookup gtid = none := by
      rw [show (system.send gtid thread seqnum msg).maps.swLookup.lookup gtid = _ from lookup gtid,
        if_pos rfl]
    unfold Maps.gtidToSwd
    rw [absent]
    rfl
  · intro name different
    apply Maps.gtidToSwd_congr
    rw [show (system.send gtid thread seqnum msg).maps.swLookup.lookup name = _ from lookup name,
      if_neg different]

omit [Fintype Core] in
theorem System.sends_new {seqnum : BitVec 32} {parent : Option Gtid} {runnable : Bool}
    {swInfo : TaskSwInfo} (valid : system.maps.Valid)
    (isValid : swInfo.index.toNat < biffMaxGtids)
    (roomy : system.maps.swLookup.length < biffMaxGtids)
    (room : system.maps.globalRq.length < biffMaxGtids)
    (unknown : ¬system.maps.Known gtid) :
    system.Sends (system.send gtid thread seqnum (.taskNew gtid parent runnable swInfo)) gtid thread
      true (if runnable then [⟨gtid, seqnum⟩] else []) := by
  obtain ⟨swLookup, globalRq⟩ := @Maps.send_new _ _ _ _ system.maps gtid system.now seqnum parent
    runnable swInfo valid isValid roomy unknown
  have inserted : (system.send gtid thread seqnum
      (.taskNew gtid parent runnable swInfo)).maps.swLookup =
        (gtid, swInfo) :: system.maps.swLookup := swLookup
  refine ⟨rfl, rfl, ?_, ?_, globalRq room, ?_⟩
  · unfold Maps.gtidToSwd
    rw [inserted, List.lookup_cons_self]
    simp [isValid]
  · intro name different
    apply Maps.gtidToSwd_congr
    rw [inserted, List.lookup_cons, beq_false_of_ne different]
  · intro item member
    split at member
    · rw [List.mem_singleton.mp member]
    · cases member

omit [Fintype Core] in
theorem System.sends_new_known {seqnum : BitVec 32} {parent : Option Gtid} {runnable : Bool}
    {swInfo : TaskSwInfo} (valid : system.maps.Valid) (known : system.maps.Known gtid) :
    system.Sends (system.send gtid thread seqnum (.taskNew gtid parent runnable swInfo)) gtid thread
      true [] := by
  have same : (system.send gtid thread seqnum (.taskNew gtid parent runnable swInfo)).maps =
      system.maps := Maps.send_new_known valid known
  refine ⟨rfl, rfl, ?_, ?_, ?_, fun item impossible => by cases impossible⟩
  · rw [same]
    exact Option.isSome_iff_ne_none.mpr known
  · intro name _
    rw [same]
  · rw [same, List.append_nil]

end Sends

/-! ## Steps -/

/-- The barrier that a message with a handler gives to a task. -/
def System.Issued (system : System Core Gtid) (gtid : Gtid) (barrier : BitVec 32) :
    Action Core Gtid → Prop
  | .joins name _ issued => name = gtid ∧ issued = barrier
  | .discovered name issued =>
      name = gtid ∧ issued = barrier ∧ ¬system.maps.Known gtid
  | .event name event =>
      name = gtid ∧ event ≠ .unhandled ∧
        ∃ thread, system.threads gtid = some thread ∧ thread.barrier + 1 = barrier
  | .switchesTo name _ =>
      name = gtid ∧ ∃ thread, system.threads gtid = some thread ∧ thread.barrier + 1 = barrier
  | _ => False

/-- The barrier that a message without a handler gives to a task. -/
def System.Renumbered (system : System Core Gtid) (gtid : Gtid) (barrier : BitVec 32) :
    Action Core Gtid → Prop
  | .discovered name issued => name = gtid ∧ issued = barrier ∧ system.maps.Known gtid
  | .event name event =>
      name = gtid ∧ event = .unhandled ∧
        ∃ thread, system.threads gtid = some thread ∧ thread.barrier + 1 = barrier
  | _ => False

def System.messages (system : System Core Gtid) (gtid : Gtid) (action : Action Core Gtid) :
    Messages :=
  ⟨(system.Issued gtid · action), (system.Renumbered gtid · action), action = .leaves gtid⟩

/-- Neither the queue nor `sw_lookup` is full. -/
structure System.Roomy (system : System Core Gtid) : Prop where
  globalRq : system.maps.globalRq.length < biffMaxGtids
  swLookup : system.maps.swLookup.length < biffMaxGtids

/-- The handlers know no task that has left. -/
structure System.Sound (system : System Core Gtid) : Prop where
  valid : system.maps.Valid
  present : ∀ gtid, system.maps.Known gtid → system.threads gtid ≠ none

omit [DecidableEq Core] [Fintype Core] [DecidableEq Gtid] in
/-- The kinds of events. -/
theorem Phase.after_cases {phase phase' : Phase Core} {event : Event} {msg : Msg Core Gtid}
    (happens : phase.after gtid event = some (phase', msg)) :
    (event = .unhandled ∧ phase' = phase ∧ msg = .unhandled gtid) ∨
      (event ≠ .unhandled ∧ phase'.isRunnable = true ∧ msg.Wakes gtid) ∨
      event ≠ .unhandled ∧ phase'.isRunnable = false ∧ msg.Quiet := by
  cases event with
  | unhandled =>
      cases phase <;> cases happens <;> exact .inl ⟨rfl, rfl, rfl⟩
  | getsOnCpu cpuSeqnum =>
      cases phase <;> cases happens
      exact .inr (.inr ⟨by simp, rfl, trivial⟩)
  | blocks =>
      cases phase <;> cases happens
      exact .inr (.inr ⟨by simp, rfl, trivial⟩)
  | wakesUp =>
      cases phase <;> cases happens
      exact .inr (.inl ⟨by simp, rfl, rfl⟩)
  | preempted =>
      cases phase <;> cases happens <;> exact .inr (.inl ⟨by simp, rfl, rfl⟩)
  | yields =>
      cases phase <;> cases happens
      exact .inr (.inl ⟨by simp, rfl, rfl⟩)

omit [DecidableEq Core] [Fintype Core] [DecidableEq Gtid] in
theorem Phase.Leaves.forgets {phase : Phase Core} {msg : Msg Core Gtid}
    (leaves : phase.Leaves gtid msg) : msg.Forgets gtid := by
  cases leaves <;> rfl

omit [DecidableEq Core] in
private theorem System.view_setThread_self (thread : Thread Core) :
    (system.setThread gtid thread).view gtid =
      ⟨some thread, (system.view gtid).known, (system.view gtid).copies⟩ := by
  unfold System.view
  rw [show (system.setThread gtid thread).threads gtid = some thread from Function.update_self ..]
  rfl

omit [DecidableEq Core] in
private theorem System.view_setThread_of_ne {target : Gtid} (thread : Thread Core)
    (different : gtid ≠ target) : (system.setThread target thread).view gtid = system.view gtid :=
  System.view_congr (Function.update_of_ne different _ _) rfl fun _ => rfl

omit [DecidableEq Core] in
/-- A blocked thread is given a CPU without a message. -/
theorem System.view_switchedTo {target : Gtid} {other : Thread Core} {cpu : Core}
    {messages : Messages} (isOther : system.threads target = some other)
    (blocked : other.phase = .blocked) :
    (system.view target).Step messages
      ((system.setThread target ⟨.running cpu true, other.barrier⟩).view target) := by
  rw [System.view_setThread_self]
  obtain ⟨phase, barrier⟩ := other
  exact .moves isOther (by rw [show phase = .blocked from blocked]; rfl)

private theorem System.event_view_self {thread : Thread Core} {event : Event} {phase : Phase Core}
    {msg : Msg Core Gtid} (room : system.maps.globalRq.length < biffMaxGtids)
    (isThread : system.threads gtid = some thread)
    (happens : thread.phase.after gtid event = some (phase, msg)) :
    (system.view gtid).Step (system.messages gtid (.event gtid event))
      ((system.send gtid (some ⟨phase, thread.barrier + 1⟩) (thread.barrier + 1) msg).view gtid) := by
  obtain ⟨isUnhandled, rfl, rfl⟩ | ⟨handled, runnable, wakes⟩ | ⟨handled, stopped, quiet⟩ :=
    Phase.after_cases happens
  · have quiet : (Msg.unhandled gtid : Msg Core Gtid).Quiet := trivial
    rw [(System.sends_quiet quiet).view_self]
    exact .renumbers isThread ⟨rfl, isUnhandled, thread, isThread, rfl⟩
  · have issued : system.Issued gtid (thread.barrier + 1) (.event gtid event) :=
      ⟨rfl, handled, thread, isThread, rfl⟩
    have sends := @System.sends_wakes _ _ _ _ system gtid (some ⟨phase, thread.barrier + 1⟩)
      (thread.barrier + 1) msg wakes room
    cases known : (system.maps.gtidToSwd gtid).isSome with
    | true =>
        rw [known, if_pos rfl] at sends
        rw [sends.view_enqueued]
        exact .enqueued runnable issued
    | false =>
        rw [known, if_neg Bool.false_ne_true] at sends
        rw [sends.view_self]
        exact .unknown known issued
  · rw [(System.sends_quiet quiet).view_self]
    exact .stops _ stopped ⟨rfl, handled, thread, isThread, rfl⟩

private theorem System.new_view_self {thread : Thread Core} {parent : Option Gtid}
    {swInfo : TaskSwInfo}
    {messages : Messages} (sound : system.Sound) (roomy : system.Roomy)
    (isValid : swInfo.index.toNat < biffMaxGtids) (unknown : ¬system.maps.Known gtid)
    (issued : messages.Issues thread.barrier) :
    (system.view gtid).Step messages
      ((system.send gtid (some thread) thread.barrier
        (.taskNew gtid parent thread.phase.isRunnable swInfo)).view gtid) := by
  obtain ⟨phase, barrier⟩ := thread
  have sends := @System.sends_new _ _ _ _ system gtid (some ⟨phase, barrier⟩) barrier parent
    phase.isRunnable swInfo sound.valid isValid roomy.swLookup roomy.globalRq unknown
  cases runnable : phase.isRunnable with
  | true =>
      rw [runnable, if_pos rfl] at sends
      rw [sends.view_enqueued]
      exact .enqueued runnable issued
  | false =>
      rw [runnable, if_neg Bool.false_ne_true] at sends
      rw [sends.view_self]
      exact .stops true runnable issued

omit [DecidableEq Core] in
/-- The entry that a CPU has in its hands is counted. -/
theorem System.copies_pos {cpu : Core} (inHand : (system.pnts cpu).item = some item) :
    0 < system.copies item := by
  have counted : 0 < tally fun cpu => (system.pnts cpu).item = some item := tally_pos inHand
  unfold System.copies
  omega

private theorem System.pop_copies {cpu : Core} {popped : RqItem Gtid} {rest : List (RqItem Gtid)}
    (isIdle : system.pnts cpu = .idle) (globalRq : system.maps.globalRq = popped :: rest) :
    ((system.setMaps (system.maps.setGlobalRq rest)).setPnt cpu (.run popped)).copies item =
      system.copies item := by
  have change := @System.copies_setPnt _ _ _ _ _
    (system.setMaps (system.maps.setGlobalRq rest)) item cpu (.run popped)
  have before : unit ((system.pnts cpu).item = some item) = 0 :=
    unit_false (by simp [isIdle, PntPc.item])
  have counts : system.copies item =
      (system.setMaps (system.maps.setGlobalRq rest)).copies item +
        if popped = item then 1 else 0 := by
    unfold System.copies
    rw [globalRq, List.count_cons]
    simp only [beq_iff_eq]
    exact Nat.add_right_comm _ _ _
  rw [show (system.setMaps (system.maps.setGlobalRq rest)).pnts cpu = system.pnts cpu
    from rfl, before] at change
  by_cases isItem : popped = item
  · rw [unit_true (by simp [PntPc.item, isItem])] at change
    rw [if_pos isItem] at counts
    omega
  · rw [unit_false (by simpa [PntPc.item] using isItem)] at change
    rw [if_neg isItem] at counts
    omega

private theorem System.enqueue_copies {cpu : Core} {pushed : RqItem Gtid}
    (room : system.maps.globalRq.length < biffMaxGtids)
    (inHand : system.pnts cpu = .enqueue pushed) :
    ((system.setMaps (system.maps.enqueueTask pushed.gtid pushed.taskBarrier)).setPnt cpu
      .idle).copies item = system.copies item := by
  have change := @System.copies_setPnt _ _ _ _ _
    (system.setMaps (system.maps.enqueueTask pushed.gtid pushed.taskBarrier)) item cpu .idle
  have appended := @System.copies_append _ _ _ _ system
    (system.setMaps (system.maps.enqueueTask pushed.gtid pushed.taskBarrier)) item [pushed] rfl
    (Maps.enqueueTask_globalRq room)
  rw [show (system.setMaps (system.maps.enqueueTask pushed.gtid pushed.taskBarrier)).pnts cpu =
    system.pnts cpu from rfl, inHand] at change
  rw [List.count_singleton] at appended
  simp only [beq_iff_eq] at appended
  have after : unit ((PntPc.idle : PntPc Gtid).item = some item) = 0 :=
    unit_false (by simp [PntPc.item])
  by_cases isItem : pushed = item
  · rw [unit_true (by simp [PntPc.item, isItem])] at change
    rw [if_pos isItem] at appended
    omega
  · rw [unit_false (by simpa [PntPc.item] using isItem)] at change
    rw [if_neg isItem] at appended
    omega

/-- `biff_pnt` is done with its entry. -/
theorem System.drop_copies {cpu : Core} {dropped : RqItem Gtid}
    (inHand : system.pnts cpu = .run dropped) (name : BitVec 32) :
    (system.setPnt cpu .idle).copies ⟨gtid, name⟩ =
      if dropped = ⟨gtid, name⟩ then system.copies ⟨gtid, name⟩ - 1
      else system.copies ⟨gtid, name⟩ := by
  have change := @System.copies_setPnt _ _ _ _ _ system ⟨gtid, name⟩ cpu .idle
  have after : unit ((PntPc.idle : PntPc Gtid).item = some ⟨gtid, name⟩) = 0 :=
    unit_false (by simp [PntPc.item])
  have positive : dropped = ⟨gtid, name⟩ → 0 < system.copies ⟨gtid, name⟩ := by
    intro isItem
    apply System.copies_pos
    rw [inHand, isItem]
    rfl
  rw [inHand, after] at change
  split
  · next isItem =>
      rw [unit_true (by simp [PntPc.item, isItem])] at change
      have counted := positive isItem
      omega
  · next isOther =>
      rw [unit_false (by simpa [PntPc.item] using isOther)] at change
      omega

private theorem System.view_dropped_self {cpu : Core} {dropped : RqItem Gtid}
    (inHand : system.pnts cpu = .run dropped) :
    (system.setPnt cpu .idle).view dropped.gtid =
      ⟨(system.view dropped.gtid).thread, (system.view dropped.gtid).known,
        Function.update (system.view dropped.gtid).copies dropped.taskBarrier
          ((system.view dropped.gtid).copies dropped.taskBarrier - 1)⟩ := by
  have copies : ∀ name, (system.setPnt cpu .idle).copies ⟨dropped.gtid, name⟩ =
      Function.update (fun name => system.copies ⟨dropped.gtid, name⟩) dropped.taskBarrier
        (system.copies dropped - 1) name := by
    intro name
    rw [System.drop_copies inHand]
    by_cases same : name = dropped.taskBarrier
    · subst same
      rw [if_pos rfl, Function.update_self]
    · rw [Function.update_of_ne same, if_neg]
      intro isDropped
      exact same (congrArg RqItem.taskBarrier isDropped).symm
  unfold System.view
  rw [funext copies]
  rfl

private theorem System.view_dropped_of_ne {cpu : Core} {dropped : RqItem Gtid}
    (inHand : system.pnts cpu = .run dropped) (different : gtid ≠ dropped.gtid) :
    (system.setPnt cpu .idle).view gtid = system.view gtid := by
  refine System.view_congr rfl rfl fun name => ?_
  rw [System.drop_copies inHand, if_neg]
  intro isDropped
  exact different (congrArg RqItem.gtid isDropped).symm

omit [DecidableEq Core] in
private theorem System.view_eq_same (threads : next.threads = system.threads)
    (swLookup : next.maps.swLookup = system.maps.swLookup)
    (copies : ∀ item, next.copies item = system.copies item) :
    next.view gtid = system.view gtid := by
  apply System.view_congr (by rw [threads]) (Maps.gtidToSwd_congr (by rw [swLookup]))
  exact fun barrier => copies ⟨gtid, barrier⟩

/-! ## Cases of a step -/

section Cases

variable {name : Gtid} {thread : Thread Core} {cpu : Core} {messages : Messages}

omit [DecidableEq Core] in
private theorem System.Sends.view {other : Option (Thread Core)} {known : Bool}
    {extra : List (RqItem Gtid)} (sends : system.Sends next name other known extra)
    (own : gtid = name → (system.view gtid).Step messages (next.view gtid)) :
    (system.view gtid).Step messages (next.view gtid) := by
  by_cases isTask : gtid = name
  · exact own isTask
  · rw [sends.view_other isTask]
    exact .same

omit [DecidableEq Core] in
private theorem System.setThread_view (own : gtid = name →
      (system.view gtid).Step messages ((system.setThread name thread).view gtid)) :
    (system.view gtid).Step messages ((system.setThread name thread).view gtid) := by
  by_cases isTask : gtid = name
  · exact own isTask
  · rw [System.view_setThread_of_ne _ isTask]
    exact .same

private theorem System.joins_view {parent : Option Gtid} {runnable : Bool} {swInfo : TaskSwInfo}
    {barrier : BitVec 32} (sound : system.Sound) (roomy : system.Roomy)
    (absent : system.threads name = none) (isValid : swInfo.index.toNat < biffMaxGtids) :
    (system.view gtid).Step (system.messages gtid (.joins name runnable barrier))
      ((system.send name (some ⟨if runnable then .runnable false else .blocked, barrier⟩) barrier
        (.taskNew name parent runnable swInfo)).view gtid) := by
  have unknown : ¬system.maps.Known name := fun known => sound.present name known absent
  refine (System.sends_new sound.valid isValid roomy.swLookup roomy.globalRq unknown).view ?_
  intro isTask
  subst isTask
  have added := @System.new_view_self _ _ _ _ _ system gtid
    ⟨if runnable then .runnable false else .blocked, barrier⟩ parent swInfo
    (system.messages gtid (.joins gtid runnable barrier)) sound roomy isValid unknown ⟨rfl, rfl⟩
  cases runnable <;> exact added

private theorem System.discovered_view {parent : Option Gtid} {swInfo : TaskSwInfo}
    {barrier : BitVec 32}
    (sound : system.Sound) (roomy : system.Roomy) (isThread : system.threads name = some thread)
    (isValid : swInfo.index.toNat < biffMaxGtids) :
    (system.view gtid).Step (system.messages gtid (.discovered name barrier))
      ((system.send name (some ⟨thread.phase, barrier⟩) barrier
        (.taskNew name parent thread.phase.isRunnable swInfo)).view gtid) := by
  by_cases known : system.maps.Known name
  · have sends := @System.sends_new_known _ _ _ _ system name (some ⟨thread.phase, barrier⟩)
      barrier parent thread.phase.isRunnable swInfo sound.valid known
    refine sends.view ?_
    intro isTask
    subst isTask
    rw [sends.view_self]
    have isKnown : (system.view gtid).known = true := Option.isSome_iff_ne_none.mpr known
    rw [← isKnown]
    exact .renumbers isThread ⟨rfl, rfl, known⟩
  · refine (System.sends_new sound.valid isValid roomy.swLookup roomy.globalRq known).view ?_
    intro isTask
    subst isTask
    exact System.new_view_self sound roomy isValid known ⟨rfl, rfl, known⟩

private theorem System.event_view {event : Event} {phase : Phase Core} {msg : Msg Core Gtid}
    (roomy : system.Roomy) (isThread : system.threads name = some thread)
    (happens : thread.phase.after name event = some (phase, msg)) :
    (system.view gtid).Step (system.messages gtid (.event name event))
      ((system.send name (some ⟨phase, thread.barrier + 1⟩) (thread.barrier + 1) msg).view gtid) := by
  have own : gtid = name → (system.view gtid).Step (system.messages gtid (.event name event))
      ((system.send name (some ⟨phase, thread.barrier + 1⟩) (thread.barrier + 1) msg).view gtid) := by
    intro isTask
    subst isTask
    exact System.event_view_self roomy.globalRq isThread happens
  obtain ⟨-, -, rfl⟩ | ⟨-, -, wakes⟩ | ⟨-, -, quiet⟩ := Phase.after_cases happens
  · have quiet : (Msg.unhandled name : Msg Core Gtid).Quiet := trivial
    exact (System.sends_quiet quiet).view own
  · exact (System.sends_wakes wakes roomy.globalRq).view own
  · exact (System.sends_quiet quiet).view own

omit [DecidableEq Core] [Fintype Core] [DecidableEq Gtid] in
theorem System.switched_apart {target : Gtid} {other : Thread Core} {fromSwitchto : Bool}
    (isThread : system.threads name = some thread)
    (running : thread.phase = .running cpu fromSwitchto)
    (isOther : system.threads target = some other) (blocked : other.phase = .blocked) :
    name ≠ target := by
  intro same
  subst same
  rw [isThread] at isOther
  cases isOther
  rw [running] at blocked
  cases blocked

private theorem System.switchesTo_view {target : Gtid} {other : Thread Core}
    (isThread : system.threads name = some thread) (running : thread.phase = .running cpu false)
    (isOther : system.threads target = some other) (blocked : other.phase = .blocked) :
    (system.view gtid).Step (system.messages gtid (.switchesTo name target))
      (((system.send name (some ⟨.blocked, thread.barrier + 1⟩) (thread.barrier + 1)
        (.taskSwitchto name)).setThread target ⟨.running cpu true, other.barrier⟩).view gtid) := by
  have apart := System.switched_apart isThread running isOther blocked
  have quiet : (Msg.taskSwitchto name : Msg Core Gtid).Quiet := trivial
  have sends := @System.sends_quiet _ _ _ _ system name
    (some ⟨.blocked, thread.barrier + 1⟩) (thread.barrier + 1) _ quiet
  by_cases isTask : gtid = name
  · subst isTask
    rw [System.view_setThread_of_ne _ apart, sends.view_self]
    exact .stops _ rfl ⟨rfl, thread, isThread, rfl⟩
  · rw [← sends.view_other isTask]
    refine System.setThread_view ?_
    intro isTarget
    subst isTarget
    refine System.view_switchedTo ?_ blocked
    rw [sends.threads, Function.update_of_ne isTask, isOther]

omit [DecidableEq Core] in
private theorem System.switchesOn_view {target : Gtid} {other : Thread Core}
    (isThread : system.threads name = some thread) (running : thread.phase = .running cpu true)
    (isOther : system.threads target = some other) (blocked : other.phase = .blocked) :
    (system.view gtid).Step (system.messages gtid (.switchesTo name target))
      (((system.setThread name ⟨.blocked, thread.barrier⟩).setThread target
        ⟨.running cpu true, other.barrier⟩).view gtid) := by
  have apart := System.switched_apart isThread running isOther blocked
  by_cases isTask : gtid = name
  · subst isTask
    rw [System.view_setThread_of_ne _ apart, System.view_setThread_self]
    obtain ⟨phase, barrier⟩ := thread
    exact .moves isThread (by rw [show phase = .running cpu true from running]; rfl)
  · rw [← System.view_setThread_of_ne ⟨.blocked, thread.barrier⟩ isTask]
    refine System.setThread_view ?_
    intro isTarget
    subst isTarget
    exact System.view_switchedTo ((Function.update_of_ne isTask _ _).trans isOther) blocked

omit [DecidableEq Core] in
private theorem System.getsOffCpu_view (isThread : system.threads name = some thread)
    (onCpu : thread.phase = .runnable true) :
    (system.view gtid).Step messages
      ((system.setThread name ⟨.runnable false, thread.barrier⟩).view gtid) := by
  refine System.setThread_view ?_
  intro isTask
  subst isTask
  rw [System.view_setThread_self]
  obtain ⟨phase, barrier⟩ := thread
  exact .moves isThread (by rw [show phase = .runnable true from onCpu]; rfl)

private theorem System.leaves_view {msg : Msg Core Gtid} (isLast : thread.phase.Leaves name msg) :
    (system.view gtid).Step (system.messages gtid (.leaves name))
      ((system.send name none (thread.barrier + 1) msg).view gtid) := by
  have sends := @System.sends_forgets _ _ _ _ system name none (thread.barrier + 1) msg isLast.forgets
  refine sends.view ?_
  intro isTask
  subst isTask
  rw [sends.view_self]
  exact .leaves rfl

private theorem System.pntRuns_view {latched : RqItem Gtid}
    (inHand : system.pnts cpu = .run latched)
    (isRunnable : system.threads latched.gtid = some ⟨.runnable false, latched.taskBarrier⟩) :
    (system.view gtid).Step messages
      (((system.setThread latched.gtid ⟨.latched cpu, latched.taskBarrier⟩).setPnt cpu
        .idle).view gtid) := by
  by_cases isTask : gtid = latched.gtid
  · subst isTask
    have dropped := @System.view_dropped_self _ _ _ _ _
      (system.setThread latched.gtid ⟨.latched cpu, latched.taskBarrier⟩) cpu latched inHand
    rw [System.view_setThread_self] at dropped
    rw [dropped]
    exact .latched isRunnable (System.copies_pos (by rw [inHand]; rfl))
  · have dropped := @System.view_dropped_of_ne _ _ _ _ _
      (system.setThread latched.gtid ⟨.latched cpu, latched.taskBarrier⟩) gtid cpu latched
      inHand isTask
    rw [System.view_setThread_of_ne _ isTask] at dropped
    rw [dropped]
    exact .same

omit [DecidableEq Core] [Fintype Core] in
/-- The errors after which `biff_pnt` drops its entry say that it is not the thread's. -/
theorem RunError.stale_of_drops {err : RunError} {other : Option (Thread Core)}
    {barrier : BitVec 32} (drops : err.enqueues = false)
    (allowed : runAllowed other barrier (some err)) :
    ∀ found, other = some found → found.barrier ≠ barrier := by
  intro found isFound
  cases err with
  | enoent =>
      rw [show other = none from allowed] at isFound
      cases isFound
  | estale =>
      obtain ⟨thread, isThread, stale⟩ := allowed
      rw [isThread] at isFound
      cases isFound
      exact stale
  | _ => cases drops

private theorem System.pntFails_view {failed : RqItem Gtid} {err : RunError}
    (inHand : system.pnts cpu = .run failed)
    (allowed : runAllowed (system.threads failed.gtid) failed.taskBarrier (some err)) :
    (system.view gtid).Step messages
      ((system.setPnt cpu (.afterRun failed (some err))).view gtid) := by
  cases enqueues : err.enqueues with
  | true =>
      rw [show PntPc.afterRun failed (some err) = .enqueue failed from if_pos enqueues]
      have same : (system.setPnt cpu (.enqueue failed)).view gtid = system.view gtid :=
        System.view_eq_same rfl rfl fun item => by
          have change := @System.copies_setPnt _ _ _ _ _ system item cpu (.enqueue failed)
          have same : unit ((PntPc.run failed).item = some item) =
              unit ((PntPc.enqueue failed).item = some item) := unit_congr Iff.rfl
          rw [inHand] at change
          omega
      rw [same]
      exact .same
  | false =>
      rw [show PntPc.afterRun failed (some err) = .idle from if_neg (Bool.eq_false_iff.mp enqueues)]
      by_cases isTask : gtid = failed.gtid
      · subst isTask
        rw [System.view_dropped_self inHand]
        exact .drops (RunError.stale_of_drops enqueues allowed)
      · rw [System.view_dropped_of_ne inHand isTask]
        exact .same

end Cases

/-- A step of the system is for every task one of the changes of a view. -/
theorem System.Step.view {action : Action Core Gtid} (stepped : system.Step action next)
    (sound : system.Sound) (roomy : system.Roomy) (gtid : Gtid) :
    (system.view gtid).Step (system.messages gtid action) (next.view gtid) := by
  cases stepped with
  | joins absent isValid => exact System.joins_view sound roomy absent isValid
  | discovered isThread isValid => exact System.discovered_view sound roomy isThread isValid
  | event isThread happens => exact System.event_view roomy isThread happens
  | switchesTo isThread running isOther blocked =>
      exact System.switchesTo_view isThread running isOther blocked
  | switchesOn isThread running isOther blocked =>
      exact System.switchesOn_view isThread running isOther blocked
  | getsOffCpu isThread onCpu => exact System.getsOffCpu_view isThread onCpu
  | leaves _ isLast => exact System.leaves_view isLast
  | @cpuMessage cpu available => cases available <;> exact .same
  | cpuTick => exact .same
  | discoveryDone => exact .same
  | @pntPop cpu popped rest _ _ isIdle globalRq =>
      have same : ((system.setMaps (system.maps.setGlobalRq rest)).setPnt cpu
          (.run popped)).view gtid = system.view gtid :=
        System.view_eq_same rfl rfl fun item => System.pop_copies isIdle globalRq
      rw [same]
      exact .same
  | pntRuns inHand isRunnable => exact System.pntRuns_view inHand isRunnable
  | pntFails inHand allowed => exact System.pntFails_view inHand allowed
  | @pntEnqueue cpu pushed inHand =>
      have same : ((system.setMaps (system.maps.enqueueTask pushed.gtid pushed.taskBarrier)).setPnt
          cpu .idle).view gtid = system.view gtid :=
        System.view_eq_same rfl Maps.enqueueTask_swLookup fun item =>
          System.enqueue_copies roomy.globalRq inHand
      rw [same]
      exact .same
  | tick => exact .same

end Views

end Ghost.Biff
