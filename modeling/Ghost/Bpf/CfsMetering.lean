import Ghost.Bpf.CfsAccounting

/-!
# Metering the CFS run queue

What each message and each pick does to a CPU whose accounts are right.
-/

set_option autoImplicit false

namespace Ghost.Bpf

open Lib

/-! ## Leaving the CPU and waking up -/

section Handlers

variable {state : MeteredCpu} {gtid : BitVec 64} {thread : cfsMaxGtids.Elem}

private theorem CfsCpu.setPhase_setPhase (cpu : CfsCpu) (cfs cfs' : Cfs) (phase phase' : Phase) :
    (cpu.setPhase cfs gtid phase).setPhase cfs' gtid phase' = cpu.setPhase cfs' gtid phase' := by
  unfold CfsCpu.setPhase
  dsimp only
  rw [Function.update_idem]

private theorem Cfs.stored_requeues {cfs : Cfs} (owns : cfs.gtidToThread gtid = some thread)
    {store : CfsThread → CfsThread}
    (keepsWeight : (store (cfs.threads thread)).weight = (cfs.threads thread).weight)
    (keepsGtid : (store (cfs.threads thread)).gtid = (cfs.threads thread).gtid)
    (now : BitVec 64) (taskBarrier flags : BitVec 32) :
    cfs.Requeues ((cfs.setThread thread store).enqueueTask now gtid taskBarrier flags) gtid thread
      (flags &&& ENQUEUE_WAKEUP ≠ 0) := by
  have requeues := @Cfs.enqueueTask_requeues gtid thread (cfs.setThread thread store) owns now
    taskBarrier flags
  constructor
  · rw [requeues.ledger, Cfs.ledger_setThread keepsWeight keepsGtid]
  · exact (Cfs.setThread_stores store).then_enqueues requeues.enqueues

private theorem Cfs.handlePutPrev_of_known {cfs : Cfs} (owns : cfs.gtidToThread gtid = some thread)
    (seqnum : BitVec 32) (now later : BitVec 64) :
    cfs.handlePutPrev gtid seqnum now later =
      (cfs.setThread thread fun thread =>
        { thread with ranUntil := now, runnableAt := now }).taskStopped.enqueueTask
          later gtid seqnum 0 := by
  unfold Cfs.handlePutPrev
  rw [owns]

private theorem Cfs.handleBlocked_of_known {cfs : Cfs} (owns : cfs.gtidToThread gtid = some thread)
    (now : BitVec 64) : cfs.handleBlocked gtid now =
      (cfs.setThread thread fun thread => { thread with ranUntil := now }).taskStopped := by
  unfold Cfs.handleBlocked
  rw [owns]

private theorem Cfs.handleWakeup_of_known {cfs : Cfs} (owns : cfs.gtidToThread gtid = some thread)
    (seqnum : BitVec 32) (now later : BitVec 64) :
    cfs.handleWakeup gtid seqnum now later =
      (cfs.setThread thread fun thread => { thread with runnableAt := now }).enqueueTask
        later gtid seqnum ENQUEUE_WAKEUP := by
  unfold Cfs.handleWakeup
  rw [owns]

namespace MeteredCpu

theorem after_eq {event : CfsEvent} {cpu : CfsCpu} {accounts : Accounts}
    (isCpu : state.cpu.handle event = cpu)
    (isAccounts : state.accounts.enter state.cpu event cpu = accounts) :
    state.after event = ⟨cpu, accounts⟩ := by
  unfold after
  rw [isCpu, isAccounts]

private theorem Seated.running_known (seated : state.Seated)
    (runs : state.cpu.phase gtid = .running) :
    ∃ thread, state.cpu.cfs.gtidToThread gtid = some thread := by
  obtain ⟨items, queue⟩ := seated.queue
  exact (queue.running gtid runs).2

/-- A thread that is put back is off the CPU before it is enqueued, so it is renormalised only. -/
theorem InOrder.putPrev (inOrder : state.InOrder) (runs : state.cpu.phase gtid = .running)
    (owns : state.cpu.cfs.gtidToThread gtid = some thread) {store : CfsThread → CfsThread}
    (keeps : (state.cpu.cfs.threads thread).Unmoved (store (state.cpu.cfs.threads thread)))
    (keepsGtid : (store (state.cpu.cfs.threads thread)).gtid = (state.cpu.cfs.threads thread).gtid)
    (seqnum : BitVec 32) {now later : BitVec 64} {event : CfsEvent}
    (isAfter : state.after event =
      ⟨state.cpu.setPhase ((state.cpu.cfs.setThread thread store).taskStopped.enqueueTask later
        gtid seqnum 0) gtid .waiting, state.accounts.stop state.cpu gtid now⟩)
    (charges : state.Charges event = state.Owes gtid now state.cpu.cfs.minVruntime) :
    state.Meters event := by
  have same := state.accounts.stop_sameBut state.cpu gtid now
  obtain ⟨stopped, others⟩ := @Seated.stop _ _ _ _ inOrder.seated inOrder.accounted runs owns
    store keeps keepsGtid .blocked (by decide) (by decide) same
  obtain ⟨items, queue⟩ := stopped.queue
  have blocked : (state.cpu.setPhase (state.cpu.cfs.setThread thread store).taskStopped gtid
      .blocked).phase gtid = .blocked := Function.update_self ..
  have absent : thread ∉ items := queue.not_linked owns (by rw [blocked]; decide)
  have requeues := @Cfs.enqueueTask_requeues gtid thread
    (state.cpu.cfs.setThread thread store).taskStopped owns later seqnum 0
  obtain ⟨requeued, others'⟩ := stopped.requeue others queue owns absent
    (by rw [blocked]; decide) requeues (.refl _ gtid)
  rw [CfsCpu.setPhase_setPhase, ← isAfter] at requeued others'
  refine ⟨requeued, ?_⟩
  rw [accounted_iff_own others', charges, isAfter]
  refine (inOrder.accounted gtid).stopped_iff owns runs ?_ ?_ rfl ?_
  · exact congrArg (fun ledger => ledger.threadOf gtid) requeues.ledger
  · change Function.update state.cpu.phase gtid .waiting gtid ≠ _
    rw [Function.update_self]
    decide
  · have raised := @Cfs.enqueueTask_vruntime
      (state.cpu.cfs.setThread thread store).taskStopped thread gtid owns rfl later seqnum
    refine raised.trans ?_
    change ((state.cpu.cfs.setThread thread store).threads thread).vruntime + _ = _
    rw [Cfs.setThread_self, keeps.vruntime]
    rfl

/-- A thread that was just placed was not charged yet. -/
theorem place_accounted (accounts : Accounts) {cpu : CfsCpu}
    (waits : cpu.phase gtid = .waiting) : Accounted ⟨cpu, accounts.place cpu gtid⟩ gtid := by
  intro thread placed owns isPlaced
  change cpu.cfs.gtidToThread gtid = some thread at owns
  have idle : cpu.phase gtid ≠ .running := by
    rw [waits]
    decide
  unfold Accounts.place at isPlaced ⊢
  rw [owns] at isPlaced ⊢
  dsimp only at isPlaced ⊢
  rw [Function.update_self] at isPlaced ⊢
  rw [if_neg idle, ← Option.some.inj isPlaced]
  simp

private theorem InOrder.preempt (inOrder : state.InOrder) (runs : state.cpu.phase gtid = .running)
    (seqnum : BitVec 32) (now later : BitVec 64) :
    state.Meters (.preempt gtid seqnum now later) := by
  obtain ⟨thread, owns⟩ := inOrder.seated.running_known runs
  refine inOrder.putPrev runs owns ?_ ?_ seqnum
    (after_eq (congrArg (fun cfs => state.cpu.setPhase cfs gtid .waiting)
      (Cfs.handlePutPrev_of_known owns seqnum now later)) rfl) rfl
  · exact ⟨rfl, rfl, rfl⟩
  · rfl

private theorem InOrder.yield (inOrder : state.InOrder) (runs : state.cpu.phase gtid = .running)
    (seqnum : BitVec 32) (now later : BitVec 64) :
    state.Meters (.yield gtid seqnum now later) := by
  obtain ⟨thread, owns⟩ := inOrder.seated.running_known runs
  refine inOrder.putPrev runs owns ?_ ?_ seqnum
    (after_eq (congrArg (fun cfs => state.cpu.setPhase cfs gtid .waiting)
      (Cfs.handlePutPrev_of_known owns seqnum now later)) rfl) rfl
  · exact ⟨rfl, rfl, rfl⟩
  · rfl

private theorem InOrder.blocked (inOrder : state.InOrder) (runs : state.cpu.phase gtid = .running)
    (now : BitVec 64) : state.Meters (.blocked gtid now) := by
  obtain ⟨thread, owns⟩ := inOrder.seated.running_known runs
  have same := state.accounts.stop_sameBut state.cpu gtid now
  obtain ⟨stopped, others⟩ := @Seated.stop _ _ _ _ inOrder.seated inOrder.accounted runs owns
    (fun thread => { thread with ranUntil := now }) ⟨rfl, rfl, rfl⟩ rfl .blocked (by decide)
    (by decide) same
  have isAfter : state.after (.blocked gtid now) =
      ⟨state.cpu.setPhase (state.cpu.cfs.setThread thread fun thread =>
        { thread with ranUntil := now }).taskStopped gtid .blocked,
        state.accounts.stop state.cpu gtid now⟩ :=
    after_eq (congrArg (fun cfs => state.cpu.setPhase cfs gtid .blocked)
      (Cfs.handleBlocked_of_known owns now)) rfl
  rw [← isAfter] at stopped others
  refine ⟨stopped, ?_⟩
  rw [accounted_iff_own others, isAfter]
  refine (inOrder.accounted gtid).stopped_iff owns runs rfl ?_ rfl ?_
  · change Function.update state.cpu.phase gtid .blocked gtid ≠ _
    rw [Function.update_self]
    decide
  · dsimp only [CfsCpu.setPhase, Cfs.taskStopped]
    rw [Cfs.setThread_self]
    exact (add_zero _).symm

/-- A thread that nobody knows is announced, or changes its phase. -/
theorem InOrder.announced (inOrder : state.InOrder)
    (unknown : state.cpu.cfs.gtidToThread gtid = none) {phase : Phase} {idx : BitVec 32}
    (stops : phase ≠ .running)
    (own : ∀ other, other ≠ gtid → state.cpu.phase other ≠ .absent →
      state.cpu.index other ≠ idx) :
    InOrder ⟨⟨state.cpu.cfs, Function.update state.cpu.phase gtid phase,
      Function.update state.cpu.index gtid idx⟩, state.accounts⟩ := by
  obtain ⟨items, queue⟩ := inOrder.seated.queue
  have stopped : state.cpu.phase gtid ≠ .running := queue.not_running unknown
  refine ⟨⟨⟨items, queue.announced unknown stops own⟩, inOrder.seated.paired, ?_,
    inOrder.seated.known⟩, ?_⟩
  · exact inOrder.seated.runs_on stopped phase
  · intro other
    by_cases isGtid : other = gtid
    · intro thread placed owns
      change state.cpu.cfs.gtidToThread other = some thread at owns
      rw [isGtid, unknown] at owns
      cases owns
    · exact (inOrder.accounted other).frame rfl (Function.update_of_ne isGtid ..) rfl rfl rfl
        fun elem _ => CfsThread.Unmoved.follows ⟨rfl, rfl, rfl⟩

private theorem InOrder.rephased (inOrder : state.InOrder)
    (unknown : state.cpu.cfs.gtidToThread gtid = none) {phase : Phase}
    (present : state.cpu.phase gtid ≠ .absent) (stops : phase ≠ .running) :
    InOrder ⟨state.cpu.setPhase state.cpu.cfs gtid phase, state.accounts⟩ := by
  obtain ⟨items, queue⟩ := inOrder.seated.queue
  have announced := inOrder.announced unknown stops (queue.live present)
  rwa [Function.update_eq_self] at announced

private theorem InOrder.wakeup (inOrder : state.InOrder) (blocked : state.cpu.phase gtid = .blocked)
    (seqnum : BitVec 32) (now later : BitVec 64) :
    state.Meters (.wakeup gtid seqnum now later) := by
  obtain ⟨items, queue⟩ := inOrder.seated.queue
  cases owns : state.cpu.cfs.gtidToThread gtid with
  | none =>
      have ignored : state.cpu.cfs.handleWakeup gtid seqnum now later = state.cpu.cfs := by
        unfold Cfs.handleWakeup
        rw [owns]
      have unplaced : state.accounts.place (state.cpu.setPhase state.cpu.cfs gtid .waiting) gtid =
          state.accounts := by
        unfold Accounts.place CfsCpu.setPhase
        rw [owns]
      have isAfter : state.after (.wakeup gtid seqnum now later) =
          ⟨state.cpu.setPhase state.cpu.cfs gtid .waiting, state.accounts⟩ :=
        after_eq (congrArg (fun cfs => state.cpu.setPhase cfs gtid .waiting) ignored) unplaced
      have rephased := @InOrder.rephased state gtid inOrder owns .waiting (by rw [blocked]; decide)
        (by decide)
      rw [← isAfter] at rephased
      exact ⟨rephased.seated, fun _ => trivial, fun _ => rephased.accounted⟩
  | some thread =>
      have requeues := @Cfs.stored_requeues gtid thread state.cpu.cfs owns
        (fun thread => { thread with runnableAt := now }) rfl rfl later seqnum ENQUEUE_WAKEUP
      have isHandled := Cfs.handleWakeup_of_known owns seqnum now later
      rw [← isHandled] at requeues
      have same := state.accounts.place_sameBut (state.cpu.handle (.wakeup gtid seqnum now later))
        gtid
      have absent : thread ∉ items := queue.not_linked owns (by rw [blocked]; decide)
      obtain ⟨requeued, others⟩ := inOrder.seated.requeue (fun other _ => inOrder.accounted other)
        queue owns absent (by rw [blocked]; decide) requeues same
      refine ⟨requeued, fun _ => trivial, fun _ => (accounted_iff_own others).mpr ?_⟩
      exact place_accounted state.accounts (Function.update_self ..)

end MeteredCpu

end Handlers

/-! ## Picking -/

section Picking

variable {gtid : BitVec 64} {thread : cfsMaxGtids.Elem}

namespace CfsCpu

variable {cpu : CfsCpu} {ctx : Cfs.PntCtx} {picked : cfsMaxGtids.Elem × Cfs}

private theorem setPhase_self {phase : Phase} (cfs : Cfs) (isPhase : cpu.phase gtid = phase) :
    cpu.setPhase cfs gtid phase = cpu.withCfs cfs := by
  unfold setPhase withCfs
  rw [← isPhase, Function.update_eq_self]

private theorem of_picks (picks : cpu.picks ctx = some picked) :
    cpu.cfs.keepsOff ctx = false ∧ cpu.cfs.pickNextTask = some picked := by
  unfold CfsCpu.picks at picks
  split at picks
  · cases picks
  · next takes => exact ⟨Bool.not_eq_true _ ▸ takes, picks⟩

private theorem pnt_of_none (nothing : cpu.picks ctx = none) (result : Except Cfs.RunError Unit)
    (cpuSeqnum now later : BitVec 64) : cpu.pnt ctx result cpuSeqnum now later = cpu := by
  unfold CfsCpu.picks at nothing
  unfold pnt
  split
  · rfl
  · next takes =>
      rw [if_neg takes] at nothing
      rw [nothing]

private theorem pnt_ok (picks : cpu.picks ctx = some picked) (cpuSeqnum now later : BitVec 64) :
    cpu.pnt ctx (.ok ()) cpuSeqnum now later =
      cpu.setPhase (picked.2.handleOnCpu (cpu.cfs.threads picked.1).gtid cpuSeqnum now)
        (cpu.cfs.threads picked.1).gtid .running := by
  obtain ⟨takes, picks⟩ := of_picks picks
  unfold pnt
  rw [takes, picks]
  rfl

private theorem pnt_error (picks : cpu.picks ctx = some picked) (err : Cfs.RunError)
    (cpuSeqnum now later : BitVec 64) :
    cpu.pnt ctx (.error err) cpuSeqnum now later =
      cpu.withCfs (picked.2.runFailed (cpu.cfs.threads picked.1).gtid
        (cpu.cfs.threads picked.1).taskBarrier later err) := by
  obtain ⟨takes, picks⟩ := of_picks picks
  unfold pnt
  rw [takes, picks]
  rfl

end CfsCpu

namespace MeteredCpu

variable {state : MeteredCpu} {items : List cfsMaxGtids.Elem}

private theorem Seated.stopped (seated : state.Seated)
    (idle : ∀ other, state.cpu.phase other ≠ .running) :
    state.cpu.cfs.pcpuCurrent = 0 := by
  rw [seated.paired]
  by_contra isSet
  exact idle _ (seated.current isSet)

/-- The thread that is picked is unlinked. -/
theorem InOrder.taken (inOrder : state.InOrder)
    (queue : Queue state.cpu.cfs.ledger state.cpu.phase state.cpu.index items)
    (member : thread ∈ items) :
    InOrder ⟨state.cpu.withCfs
      { state.cpu.cfs with lists := state.cpu.cfs.lists.remove () thread }, state.accounts⟩ := by
  have removed := queue.removed member
  rw [← Cfs.ledger_removed] at removed
  exact ⟨⟨⟨items.erase thread, removed⟩, inOrder.seated.paired, inOrder.seated.current,
    inOrder.seated.known⟩, inOrder.accounted⟩

/-- A thread that was just announced was not charged yet. -/
theorem Accounted.started (accounted : state.Accounted gtid)
    (owns : state.cpu.cfs.gtidToThread gtid = some thread)
    (idle : state.cpu.phase gtid ≠ .running) {cpuSeqnum now : BitVec 64} {next : MeteredCpu}
    (isNext : next = ⟨state.cpu.setPhase ((state.cpu.cfs.setThread thread fun thread =>
      { thread with ranAt := now }).taskStarted gtid cpuSeqnum) gtid .running,
      state.accounts.start gtid now⟩) : next.Accounted gtid := by
  have runs : next.cpu.phase gtid = .running := by
    rw [isNext]
    exact Function.update_self ..
  intro elem placed ownsElem isPlaced
  rw [isNext] at ownsElem isPlaced
  obtain rfl := Option.some.inj (owns.symm.trans ownsElem)
  have before := accounted thread placed owns isPlaced
  rw [if_neg idle, add_zero] at before
  rw [if_pos runs, isNext]
  dsimp only [CfsCpu.setPhase, Cfs.taskStarted, Accounts.start]
  rw [Cfs.setThread_self, Function.update_self]
  dsimp only
  rw [BitVec.sub_self, Cfs.calcDeltaFair_zero, before]
  exact (add_zero _).symm

private theorem InOrder.started (inOrder : state.InOrder)
    (queue : Queue state.cpu.cfs.ledger state.cpu.phase state.cpu.index items)
    (owns : state.cpu.cfs.gtidToThread gtid = some thread) (absent : thread ∉ items)
    (idle : ∀ other, state.cpu.phase other ≠ .running) (cpuSeqnum now : BitVec 64) :
    InOrder ⟨state.cpu.setPhase ((state.cpu.cfs.setThread thread fun thread =>
      { thread with ranAt := now }).taskStarted gtid cpuSeqnum) gtid .running,
      state.accounts.start gtid now⟩ := by
  have started := queue.started owns absent idle
  have sameLedger : ((state.cpu.cfs.setThread thread fun thread =>
      { thread with ranAt := now }).taskStarted gtid cpuSeqnum).ledger =
      state.cpu.cfs.ledger.started gtid := by
    rw [Cfs.ledger_taskStarted, Cfs.ledger_setThread rfl rfl]
  rw [← sameLedger] at started
  refine ⟨⟨⟨items, started⟩, rfl, fun _ => Function.update_self .., inOrder.seated.known⟩,
    (accounted_iff_own ?_).mpr ((inOrder.accounted gtid).started owns (idle gtid) rfl)⟩
  intro other different
  have same := state.accounts.start_sameBut gtid now
  refine (inOrder.accounted other).frame rfl (Function.update_of_ne different ..)
    (same.placed other different) (same.charges other different)
    (same.startedAt other different) ?_
  intro elem ownsOther
  have apart : elem ≠ thread := queue.threads_ne different ownsOther owns
  dsimp only [CfsCpu.setPhase, Cfs.taskStarted]
  rw [Cfs.setThread_of_ne _ apart]
  exact CfsThread.Unmoved.follows ⟨rfl, rfl, rfl⟩

private theorem InOrder.refused (inOrder : state.InOrder)
    (queue : Queue state.cpu.cfs.ledger state.cpu.phase state.cpu.index items)
    (owns : state.cpu.cfs.gtidToThread gtid = some thread) (absent : thread ∉ items)
    (waits : state.cpu.phase gtid = .waiting) (stopped : state.cpu.cfs.pcpuCurrent = 0)
    (taskBarrier : BitVec 32) (later : BitVec 64) {next : MeteredCpu}
    (isNext : next = ⟨state.cpu.withCfs (state.cpu.cfs.enqueueTask later gtid taskBarrier 0),
      state.accounts⟩) :
    next.Seated ∧ ((∀ other, next.Accounted other) ↔
      (state.accounts.placed gtid ≠ none → state.cpu.cfs.minVruntime = 0)) := by
  have idle : state.cpu.phase gtid ≠ .running := by
    rw [waits]
    decide
  have requeues := Cfs.enqueueTask_requeues owns later taskBarrier 0
  obtain ⟨requeued, others⟩ := inOrder.seated.requeue (fun other _ => inOrder.accounted other)
    queue owns absent idle requeues (.refl _ gtid)
  rw [CfsCpu.setPhase_self _ waits, ← isNext] at requeued others
  refine ⟨requeued, ?_⟩
  rw [accounted_iff_own others, isNext]
  exact (inOrder.accounted gtid).raised_iff owns idle
    (congrArg (fun ledger => ledger.threadOf gtid) requeues.ledger) idle rfl
    (Cfs.enqueueTask_vruntime owns stopped later taskBarrier)

/-- A thread that was picked waits, and nothing links it. -/
structure Taken (state : MeteredCpu) (picked : cfsMaxGtids.Elem × Cfs)
    (items : List cfsMaxGtids.Elem) : Prop where
  inOrder : InOrder ⟨state.cpu.withCfs picked.2, state.accounts⟩
  queue : Queue picked.2.ledger state.cpu.phase state.cpu.index items
  owns : picked.2.gtidToThread (state.cpu.cfs.threads picked.1).gtid = some picked.1
  absent : picked.1 ∉ items
  waits : state.cpu.phase (state.cpu.cfs.threads picked.1).gtid = .waiting
  sameMinVruntime : picked.2.minVruntime = state.cpu.cfs.minVruntime

variable {ctx : Cfs.PntCtx} {picked : cfsMaxGtids.Elem × Cfs}

private theorem InOrder.takes (inOrder : state.InOrder)
    (picks : state.cpu.cfs.pickNextTask = some picked) : ∃ items, state.Taken picked items := by
  obtain ⟨items, queue⟩ := inOrder.seated.queue
  obtain ⟨member, isAfter⟩ := queue.pickNextTask picks
  obtain ⟨waits, owns⟩ := queue.waiting picked.1 member
  have taken := inOrder.taken queue member
  rw [← isAfter] at taken
  refine ⟨items.erase picked.1, taken, ?_, ?_, (queue.linked.nodup ()).not_mem_erase, waits, ?_⟩
  · rw [isAfter, Cfs.ledger_removed]
    exact queue.removed member
  · rw [isAfter]
    exact owns
  · rw [isAfter]

private theorem InOrder.pnt_none (inOrder : state.InOrder) (picks : state.cpu.picks ctx = none)
    (result : Except Cfs.RunError Unit) (cpuSeqnum now later : BitVec 64) :
    state.Meters (.pnt ctx result cpuSeqnum now later) := by
  have sameCpu := CfsCpu.pnt_of_none picks result cpuSeqnum now later
  have vacuous : state.PutsBack ctx := by
    intro picked isPicked
    rw [picks] at isPicked
    cases isPicked
  refine inOrder.meters_of_eq (after_eq sameCpu ?_) ?_
  · cases result with
    | ok =>
        unfold Accounts.enter
        dsimp only
        rw [picks]
    | error => rfl
  · cases result with
    | ok => trivial
    | error err =>
        cases err with
        | ENOENT => trivial
        | ESTALE => trivial
        | EBUSY => exact vacuous
        | other => exact vacuous

private theorem Taken.pnt_ok (taken : state.Taken picked items)
    (picks : state.cpu.picks ctx = some picked)
    (idle : ∀ other, state.cpu.phase other ≠ .running) (cpuSeqnum now later : BitVec 64) :
    state.Meters (.pnt ctx (.ok ()) cpuSeqnum now later) := by
  have announces : picked.2.handleOnCpu (state.cpu.cfs.threads picked.1).gtid cpuSeqnum now =
      (picked.2.setThread picked.1 fun thread => { thread with ranAt := now }).taskStarted
        (state.cpu.cfs.threads picked.1).gtid cpuSeqnum := by
    unfold Cfs.handleOnCpu
    rw [taken.owns]
  have isNext : state.after (.pnt ctx (.ok ()) cpuSeqnum now later) =
      ⟨state.cpu.setPhase ((picked.2.setThread picked.1 fun thread =>
        { thread with ranAt := now }).taskStarted (state.cpu.cfs.threads picked.1).gtid
          cpuSeqnum) (state.cpu.cfs.threads picked.1).gtid .running,
        state.accounts.start (state.cpu.cfs.threads picked.1).gtid now⟩ := by
    apply after_eq
    · rw [← announces]
      exact CfsCpu.pnt_ok picks cpuSeqnum now later
    · unfold Accounts.enter
      dsimp only
      rw [picks]
  have inOrder' : (state.after (.pnt ctx (.ok ()) cpuSeqnum now later)).InOrder := by
    rw [isNext]
    exact taken.inOrder.started taken.queue taken.owns taken.absent idle cpuSeqnum now
  exact ⟨inOrder'.seated, fun _ => trivial, fun _ => inOrder'.accounted⟩

/-- A thread that is not run stays unlinked, or it is put back. -/
theorem Taken.pnt_error (taken : state.Taken picked items)
    (picks : state.cpu.picks ctx = some picked)
    (idle : ∀ other, state.cpu.phase other ≠ .running) (err : Cfs.RunError)
    (cpuSeqnum now later : BitVec 64) :
    state.Meters (.pnt ctx (.error err) cpuSeqnum now later) := by
  have isNext : state.after (.pnt ctx (.error err) cpuSeqnum now later) =
      ⟨state.cpu.withCfs (picked.2.runFailed (state.cpu.cfs.threads picked.1).gtid
        (state.cpu.cfs.threads picked.1).taskBarrier later err), state.accounts⟩ :=
    after_eq (CfsCpu.pnt_error picks err cpuSeqnum now later) rfl
  have dropped : picked.2.runFailed (state.cpu.cfs.threads picked.1).gtid
      (state.cpu.cfs.threads picked.1).taskBarrier later err = picked.2 →
      (state.after (.pnt ctx (.error err) cpuSeqnum now later)).InOrder := by
    intro isDropped
    rw [isNext, isDropped]
    exact taken.inOrder
  have putsBack : (state.accounts.placed (state.cpu.cfs.threads picked.1).gtid ≠ none →
      picked.2.minVruntime = 0) ↔ state.PutsBack ctx := by
    rw [taken.sameMinVruntime]
    unfold PutsBack
    rw [picks]
    simp
  have refused : ∀ taskBarrier, picked.2.runFailed (state.cpu.cfs.threads picked.1).gtid
      (state.cpu.cfs.threads picked.1).taskBarrier later err = picked.2.enqueueTask later
        (state.cpu.cfs.threads picked.1).gtid taskBarrier 0 →
      (state.after (.pnt ctx (.error err) cpuSeqnum now later)).Seated ∧
        ((∀ other, (state.after (.pnt ctx (.error err) cpuSeqnum now later)).Accounted other) ↔
          state.PutsBack ctx) := by
    intro taskBarrier isRefused
    rw [isRefused] at isNext
    rw [← putsBack]
    exact taken.inOrder.refused taken.queue taken.owns taken.absent taken.waits
      (taken.inOrder.seated.stopped idle) taskBarrier later isNext
  cases err with
  | ENOENT =>
      have inOrder' := dropped rfl
      exact ⟨inOrder'.seated, fun _ => trivial, fun _ => inOrder'.accounted⟩
  | ESTALE =>
      have inOrder' := dropped rfl
      exact ⟨inOrder'.seated, fun _ => trivial, fun _ => inOrder'.accounted⟩
  | EBUSY =>
      obtain ⟨seated, accounted_iff⟩ := refused _ rfl
      exact ⟨seated, accounted_iff⟩
  | other =>
      obtain ⟨seated, accounted_iff⟩ := refused _ rfl
      exact ⟨seated, accounted_iff⟩

private theorem InOrder.pnt (inOrder : state.InOrder) {result : Except Cfs.RunError Unit}
    {cpuSeqnum now later : BitVec 64}
    (sends : state.cpu.Sends (.pnt ctx result cpuSeqnum now later)) :
    state.Meters (.pnt ctx result cpuSeqnum now later) := by
  cases picks : state.cpu.picks ctx with
  | none => exact inOrder.pnt_none picks result cpuSeqnum now later
  | some picked =>
      obtain ⟨takes, isPicked⟩ := CfsCpu.of_picks picks
      have idle := CfsCpu.idle_of_sends sends takes
      obtain ⟨items, taken⟩ := inOrder.takes isPicked
      cases result with
      | ok => exact taken.pnt_ok picks idle cpuSeqnum now later
      | error err => exact taken.pnt_error picks idle err cpuSeqnum now later

end MeteredCpu

end Picking

/-! ## Announcing -/

section Announcing

variable {state : MeteredCpu} {gtid : BitVec 64}

private theorem Ledger.threadOf_learned {ledger : Ledger} {idx : BitVec 32} (runnable : Bool)
    (other : BitVec 64) : (ledger.learned gtid idx runnable).threadOf other =
      (ledger.mapped gtid (some idx)).threadOf other := by
  unfold Ledger.learned
  dsimp only
  split
  · rfl
  · cases runnable <;> rfl

private theorem Ledger.current_learned {ledger : Ledger} {idx : BitVec 32} (runnable : Bool) :
    (ledger.learned gtid idx runnable).current = ledger.current := by
  unfold Ledger.learned
  dsimp only
  split
  · rfl
  · cases runnable with
    | false => rfl
    | true => simp only [if_true, Ledger.enqueued, Ledger.inserted, Ledger.counted, Ledger.loaded,
        Ledger.named, Ledger.mapped]

namespace MeteredCpu

/-- The current thread is known before another one is. -/
theorem Seated.getCurrent_mapped (seated : state.Seated)
    (unknown : state.cpu.cfs.gtidToThread gtid = none) {after : Cfs}
    (sameCurrent : after.pcpuCurrent = state.cpu.cfs.pcpuCurrent)
    (sameThread : ∀ other, other ≠ gtid →
      after.gtidToThread other = state.cpu.cfs.gtidToThread other) :
    after.getCurrent = state.cpu.cfs.getCurrent := by
  obtain ⟨items, queue⟩ := seated.queue
  unfold Cfs.getCurrent
  rw [sameCurrent]
  by_cases isZero : state.cpu.cfs.pcpuCurrent = 0
  · rw [if_pos isZero, if_pos isZero]
  · rw [if_neg isZero, if_neg isZero]
    apply sameThread
    intro isGtid
    rw [seated.paired] at isZero isGtid
    exact queue.not_running unknown (isGtid ▸ seated.current isZero)

/-- What the announcement of a thread leaves to the others. -/
theorem Seated.learns (seated : state.Seated) (unmapped : state.cpu.cfs.swLookup gtid = none)
    (idx seqnum : BitVec 32) (runnable : Bool) (now later : BitVec 64) {cfs' : Cfs}
    (isNew : state.cpu.cfs.handleNew gtid idx seqnum runnable false now later = cfs') :
    cfs'.pcpuCurrent = state.cpu.cfs.pcpuCurrent ∧
    ∀ elem, (state.cpu.cfs.ledger.mapped gtid (some idx)).threadOf gtid ≠ some elem →
      (state.cpu.cfs.getCurrent ≠ some elem →
        (state.cpu.cfs.threads elem).Unmoved (cfs'.threads elem)) ∧
      (state.cpu.cfs.getCurrent = some elem →
        (state.cpu.cfs.threads elem).Charged (cfs'.threads elem)) := by
  obtain ⟨after, isAfter⟩ : ∃ after : Cfs, after = { state.cpu.cfs with
    swLookup := Function.update state.cpu.cfs.swLookup gtid (some idx) } := ⟨_, rfl⟩
  have sameLedger : state.cpu.cfs.ledger.mapped gtid (some idx) = after.ledger := by
    rw [isAfter]
    rfl
  rw [sameLedger]
  have sameCurrent : after.getCurrent = state.cpu.cfs.getCurrent := by
    apply seated.getCurrent_mapped (Cfs.threadOf_of_unmapped unmapped)
    · rw [isAfter]
    · intro other different
      change after.ledger.threadOf other = _
      rw [← sameLedger]
      exact Ledger.threadOf_mapped_of_ne different (some idx)
  cases owns : after.gtidToThread gtid with
  | none =>
      have isSame := Cfs.handleNew_unindexed unmapped isAfter owns seqnum runnable now later
      rw [isNew] at isSame
      rw [isSame, isAfter]
      refine ⟨rfl, fun elem _ => ⟨fun _ => ⟨rfl, rfl, rfl⟩, fun _ => ?_⟩⟩
      exact CfsThread.Unmoved.charged ⟨rfl, rfl, rfl⟩
  | some thread =>
      have enqueues := Cfs.handleNew_enqueues unmapped isAfter owns sameCurrent seqnum runnable
        now later
      rw [isNew] at enqueues
      refine ⟨enqueues.pcpuCurrent, ?_⟩
      intro elem apart
      have different : elem ≠ thread := fun same => apart (same ▸ owns)
      exact ⟨enqueues.others elem different, enqueues.charged elem different⟩

private theorem InOrder.learned (inOrder : state.InOrder)
    (unmapped : state.cpu.cfs.swLookup gtid = none)
    (present : state.cpu.phase gtid ≠ .absent) (runnable : Bool)
    (waits : runnable = true → state.cpu.phase gtid = .waiting) (seqnum : BitVec 32)
    (now later : BitVec 64) :
    InOrder ⟨state.cpu.withCfs (state.cpu.cfs.handleNew gtid (state.cpu.index gtid) seqnum runnable
      false now later), state.accounts⟩ := by
  obtain ⟨items, queue⟩ := inOrder.seated.queue
  have unknown : state.cpu.cfs.gtidToThread gtid = none := Cfs.threadOf_of_unmapped unmapped
  have unplaced : state.accounts.placed gtid = none := by
    by_contra isPlaced
    exact inOrder.seated.known gtid isPlaced unknown
  have isLedger := @Cfs.ledger_handleNew state.cpu.cfs gtid now unmapped (state.cpu.index gtid)
    seqnum runnable later
  obtain ⟨items', learned⟩ := queue.learned unknown present runnable waits
  rw [← isLedger] at learned
  generalize isNew : state.cpu.cfs.handleNew gtid (state.cpu.index gtid) seqnum runnable false now
    later = cfs' at isLedger learned ⊢
  obtain ⟨samePcpu, effects⟩ := inOrder.seated.learns unmapped _ seqnum runnable now later isNew
  have sameCurrent : cfs'.current = state.cpu.cfs.current :=
    (congrArg Ledger.current isLedger).trans (Ledger.current_learned runnable)
  have sameThread : ∀ other, other ≠ gtid →
      cfs'.gtidToThread other = state.cpu.cfs.gtidToThread other := by
    intro other different
    change cfs'.ledger.threadOf other = _
    rw [isLedger, Ledger.threadOf_learned]
    exact Ledger.threadOf_mapped_of_ne different _
  refine ⟨⟨⟨items', learned⟩, samePcpu.trans (inOrder.seated.paired.trans sameCurrent.symm), ?_,
    ?_⟩, ?_⟩
  · intro isSet
    change cfs'.current ≠ 0 at isSet
    change state.cpu.phase cfs'.current = _
    rw [sameCurrent] at isSet ⊢
    exact inOrder.seated.current isSet
  · intro other isPlaced
    have different : other ≠ gtid := fun same => isPlaced (same ▸ unplaced)
    change cfs'.gtidToThread other ≠ none
    rw [sameThread other different]
    exact inOrder.seated.known other isPlaced
  · intro other
    by_cases isGtid : other = gtid
    · intro thread placed _ isPlaced
      change state.accounts.placed other = some placed at isPlaced
      rw [isGtid, unplaced] at isPlaced
      cases isPlaced
    · refine (inOrder.accounted other).frame (sameThread other isGtid) rfl rfl rfl rfl ?_
      intro elem ownsOther
      have mapped := queue.mapped_new unknown present
      have apart : (state.cpu.cfs.ledger.mapped gtid (some (state.cpu.index gtid))).threadOf gtid ≠
          some elem := by
        intro owns
        exact isGtid (mapped.owner_unique
          ((Ledger.threadOf_mapped_of_ne isGtid _).trans ownsOther) owns)
      exact inOrder.seated.follows ownsOther (effects elem apart).1 (effects elem apart).2

private theorem InOrder.new (inOrder : state.InOrder) {idx seqnum : BitVec 32}
    {runnable full : Bool}
    {now later : BitVec 64}
    (sends : state.cpu.Sends (.new gtid idx seqnum runnable full now later)) :
    state.Meters (.new gtid idx seqnum runnable full now later) := by
  obtain ⟨items, queue⟩ := inOrder.seated.queue
  suffices inOrder' : (state.after (.new gtid idx seqnum runnable full now later)).InOrder from
    ⟨inOrder'.seated, fun _ => trivial, fun _ => inOrder'.accounted⟩
  have mayLearn := state.cpu.cfs.handleNew_cases gtid idx seqnum runnable full now later
  rcases sends with ⟨absent, own⟩ | ⟨present, rfl, isRunnable⟩
  · have unknown : state.cpu.cfs.gtidToThread gtid = none := queue.unknown_of_absent absent
    have isAfter : state.after (.new gtid idx seqnum runnable full now later) =
        ⟨⟨state.cpu.cfs.handleNew gtid idx seqnum runnable full now later,
          Function.update state.cpu.phase gtid (if runnable then .waiting else .blocked),
          Function.update state.cpu.index gtid idx⟩, state.accounts⟩ :=
      after_eq (if_pos absent) rfl
    have announced := @InOrder.announced _ _ inOrder unknown
      (if runnable then .waiting else .blocked) idx (by cases runnable <;> decide)
      fun other _ => own other
    rw [isAfter]
    rcases mayLearn with ignored | ⟨rfl, unmapped⟩
    · rwa [ignored]
    · have isPhase : Function.update state.cpu.phase gtid (if runnable then .waiting else .blocked)
          gtid = if runnable then .waiting else .blocked := Function.update_self ..
      have learned := announced.learned unmapped
        (isPhase.trans_ne (by cases runnable <;> decide)) runnable
        (fun isTrue => isPhase.trans (if_pos isTrue)) seqnum now later
      dsimp only [CfsCpu.withCfs] at learned
      rwa [Function.update_self] at learned
  · have isAfter : state.after (.new gtid (state.cpu.index gtid) seqnum runnable full now later) =
        ⟨state.cpu.withCfs (state.cpu.cfs.handleNew gtid (state.cpu.index gtid) seqnum runnable
          full now later), state.accounts⟩ :=
      after_eq (if_neg present) rfl
    rw [isAfter]
    rcases mayLearn with ignored | ⟨rfl, unmapped⟩
    · rw [ignored]
      exact inOrder
    · apply inOrder.learned unmapped present runnable
      intro isTrue
      exact queue.waiting_of_unknown (Cfs.threadOf_of_unmapped unmapped) present
        (isRunnable.mp isTrue)

theorem InOrder.meters (inOrder : state.InOrder) {event : CfsEvent} (stays : event.Stays)
    (sends : state.cpu.Sends event) : state.Meters event := by
  cases event with
  | new gtid idx seqnum runnable full now later => exact inOrder.new sends
  | wakeup gtid seqnum now later => exact inOrder.wakeup sends seqnum now later
  | preempt gtid seqnum now later => exact inOrder.preempt sends seqnum now later
  | yield gtid seqnum now later => exact inOrder.yield sends seqnum now later
  | blocked gtid now => exact inOrder.blocked sends now
  | dead gtid => exact stays.elim
  | departed gtid wasCurrent => exact stays.elim
  | pnt ctx result cpuSeqnum now later => exact inOrder.pnt sends

end MeteredCpu

end Announcing

end Ghost.Bpf
