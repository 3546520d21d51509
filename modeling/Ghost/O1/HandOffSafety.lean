import Ghost.Lib.Handover
import Ghost.O1.Seqnums

/-!
# Advancing a task that has been handed off

The agents in parallel behave like an office in which tasks are handed over: the
sequence number of a task is the mark of its last message, and the agent that
handles a wakeup marks the task only after another agent can handle messages about
it.
-/

set_option autoImplicit false

namespace Ghost.O1

open Lib

def MsgKind.isNew : MsgKind → Bool
  | .taskNew .. => true
  | _ => false

/-! ## Messages that are handled at once -/

/-- What handling a message does to the sequence numbers. -/
inductive Msg.Outcome (msg : Msg) (before after : TaskPtr → Option Nat) : Prop
  | ignored : (msg.kind.isNew = false → before msg.ptr = none) → after = before →
      Outcome msg before after
  | arrived : before msg.ptr = none → after = Function.update before msg.ptr (some msg.seqnum) →
      Outcome msg before after
  | advanced (behind : Nat) : msg.kind.isNew = false → before msg.ptr = some behind →
      behind < msg.seqnum → after = Function.update before msg.ptr (some msg.seqnum) →
      Outcome msg before after
  | freed : msg.kind.isNew = false → after = Function.update before msg.ptr none →
      Outcome msg before after

namespace Msg

variable {msg : Msg} {cpus : List CpuId} {scheduler next : O1Scheduler} {now : Int}
variable {associated : Bool}

private theorem handler_seqnums (updates : msg.kind.updateSeqnum = true)
    (handled : msg.handler cpus scheduler now associated = .ok next) :
    next.heap.seqnums = scheduler.heap.seqnums := by
  obtain ⟨ptr, seqnum, kind⟩ := msg
  cases kind with
  | taskWakeup deferrable => exact O1Scheduler.taskRunnable_seqnums handled
  | taskYield payload => exact O1Scheduler.taskYield_seqnums handled
  | taskBlocked payload => exact O1Scheduler.taskBlocked_seqnums handled
  | taskPreempt payload => exact O1Scheduler.taskPreempted_seqnums handled
  | taskSwitchto => exact O1Scheduler.taskSwitchto_seqnums handled
  | taskPriorityChanged nice => exact O1Scheduler.taskPriorityChanged_seqnums handled
  | _ => cases updates

private theorem known_of_accepted (updates : msg.kind.updateSeqnum = true)
    (accepted : msg.accepted scheduler = true) : ∃ task, scheduler.heap.tasks msg.ptr = some task := by
  obtain ⟨ptr, seqnum, kind⟩ := msg
  cases kind with
  | taskNew => cases updates
  | _ => exact Option.isSome_iff_exists.mp accepted

private theorem dispatch_outcome
    (dispatched : msg.dispatch cpus scheduler now associated = .ok next) :
    msg.Outcome scheduler.heap.seqnums next.heap.seqnums := by
  unfold dispatch at dispatched
  split at dispatched
  · rename_i accepted
    simp only [bind_eq_ok] at dispatched
    obtain ⟨done, handled, dispatched⟩ := dispatched
    cases updates : msg.kind.updateSeqnum with
    | true =>
        rw [if_pos updates] at dispatched
        have kept := handler_seqnums updates handled
        obtain ⟨behind, isBehind, older⟩ := O1Scheduler.advance_ok_iff.mp ⟨next, dispatched⟩
        have marked := O1Scheduler.advance_seqnums dispatched
        rw [kept] at isBehind marked
        apply Outcome.advanced behind _ isBehind older marked
        cases kind : msg.kind with
        | taskNew => rw [kind] at updates; cases updates
        | _ => rfl
    | false =>
        rw [updates, if_neg Bool.false_ne_true] at dispatched
        cases dispatched
        obtain ⟨ptr, seqnum, kind⟩ := msg
        cases kind with
        | taskNew gtid nice runnable =>
            have unknown : scheduler.heap.tasks ptr = none := Option.isNone_iff_eq_none.mp accepted
            have unmarked : scheduler.heap.seqnums ptr = none := by rw [Heap.seqnums, unknown]; rfl
            exact .arrived unmarked (O1Scheduler.taskNew_seqnums handled)
        | taskDeparted payload => exact .freed rfl (O1Scheduler.taskDeparted_seqnums handled)
        | taskDead => exact .freed rfl (O1Scheduler.taskDead_seqnums handled)
        | _ => cases updates
  · rename_i rejected
    cases dispatched
    refine .ignored ?_ rfl
    intro old
    have unknown : scheduler.heap.tasks msg.ptr = none := by
      unfold accepted at rejected
      cases kind : msg.kind with
      | taskNew => rw [kind] at old; cases old
      | _ => simpa [kind] using rejected
    rw [Heap.seqnums, unknown]
    rfl

/-! ## Single accesses -/

private theorem associate_seqnums {cpu : CpuId}
    (done : msg.associate scheduler cpu associated = .ok next) :
    next.heap.seqnums = scheduler.heap.seqnums ∧ associated = true := by
  simp only [associate, bind_eq_ok, check_eq_ok, Except.ok.injEq] at done
  obtain ⟨task, -, -, -, -, -, -, fresh, rfl⟩ := done
  exact ⟨rfl, fresh⟩

private theorem place_seqnums {cpu : CpuId} (done : msg.place scheduler cpu = .ok next) :
    next.heap.seqnums = scheduler.heap.seqnums := by
  simp only [place, bind_eq_ok, Heap.read_eq_ok, Except.ok.injEq] at done
  obtain ⟨task, allocated, rfl⟩ := done
  exact Heap.seqnums_keep allocated (Heap.put_tasks _) rfl

private theorem publish_seqnums {cpu : CpuId} (done : msg.publish scheduler cpu = .ok next) :
    next.heap.seqnums = scheduler.heap.seqnums := by
  simp only [publish, bind_eq_ok, Except.ok.injEq] at done
  obtain ⟨queued, queueing, rfl⟩ := done
  have same := O1Scheduler.enqueueOn_seqnums queueing
  exact same

/-- A new task is marked as soon as its message is begun, a task that wakes up is
not. -/
theorem enter_seqnums (migrates : msg.migrates scheduler = true)
    (done : msg.enter scheduler = .ok next) :
    (msg.kind.isNew = true ∧ msg.kind.updateSeqnum = false ∧
      scheduler.heap.seqnums msg.ptr = none ∧
      next.heap.seqnums = Function.update scheduler.heap.seqnums msg.ptr (some msg.seqnum)) ∨
    (msg.kind.isNew = false ∧ msg.kind.updateSeqnum = true ∧
      scheduler.heap.seqnums msg.ptr ≠ none ∧ next.heap.seqnums = scheduler.heap.seqnums) := by
  obtain ⟨ptr, seqnum, kind⟩ := msg
  cases kind with
  | taskNew gtid nice runnable =>
      have unknown : scheduler.heap.tasks ptr = none :=
        Option.isNone_iff_eq_none.mp (Bool.and_eq_true_iff.mp migrates).2
      simp only [enter, bind_eq_ok, Except.ok.injEq] at done
      obtain ⟨task, -, rfl⟩ := done
      refine .inl ⟨rfl, rfl, by simp [Heap.seqnums, unknown], ?_⟩
      exact O1Scheduler.arrive_seqnums scheduler ptr _ _
  | taskWakeup deferrable =>
      simp only [enter, bind_eq_ok, Heap.read_eq_ok, Except.ok.injEq] at done
      obtain ⟨task, allocated, -, -, rfl⟩ := done
      refine .inr ⟨rfl, rfl, by simp [Heap.seqnums, allocated], ?_⟩
      exact Heap.seqnums_keep allocated (Heap.put_tasks _) rfl
  | _ => cases migrates

end Msg

/-! ## The agents as an office -/

def Msg.letter (msg : Msg) : Letter TaskPtr := ⟨msg.ptr, msg.seqnum⟩

/-- The task is associated with the channel of its new CPU. -/
def Pc.associated : Pc → Bool
  | .assignCpu => false
  | .associateTask _ => false
  | _ => true

def openLetter (doing : Msg × Pc) : OpenLetter TaskPtr :=
  ⟨doing.1.letter, doing.1.kind.updateSeqnum, doing.2.associated⟩

namespace System

def office (system : System) : Office TaskPtr CpuId where
  marks := system.scheduler.heap.seqnums
  latest := system.latest
  route := system.channelOf
  boxes := List.map Msg.letter ∘ system.channels
  busy := Option.map openLetter ∘ system.doing

/-- An agent has associated the task with another channel, and its `Advance` is
still to come. -/
def HandingOff (system : System) (ptr : TaskPtr) : Prop :=
  ∃ agent msg pc, system.doing agent = some (msg, pc) ∧ msg.ptr = ptr ∧
    msg.kind.updateSeqnum = true ∧ pc.associated = true

/-- The message that an agent begins with, if the action is of that kind. -/
def begun (system : System) : Action → Option Msg
  | .handle agent _ => (system.channels agent).head?
  | .begin_ agent => (system.channels agent).head?
  | _ => none

/-- Nobody begins with a message about a task that is being handed off. -/
def Quiet (system : System) (action : Action) : Prop :=
  ∀ msg, system.begun action = some msg → msg.kind.isNew = false → ¬ system.HandingOff msg.ptr

variable {system next : System} {cpus : List CpuId} {agent : CpuId} {msg : Msg}

private theorem busy_of_doing {pc : Pc} (doing : system.doing agent = some (msg, pc)) :
    system.office.busy agent = some ⟨msg.letter, msg.kind.updateSeqnum, pc.associated⟩ :=
  congrArg (Option.map openLetter) doing

private theorem idle_of_doing (doing : system.doing agent = none) :
    system.office.busy agent = none :=
  congrArg (Option.map openLetter) doing

private theorem box_of_channel {rest : List Msg} (channel : system.channels agent = msg :: rest) :
    system.office.boxes agent = msg.letter :: rest.map Msg.letter :=
  congrArg (List.map Msg.letter) channel

private theorem undisturbed_of_quiet {ptr : TaskPtr} (quiet : ¬ system.HandingOff ptr) :
    system.office.Undisturbed ptr := by
  intro agent task busy late routed samePtr
  obtain ⟨⟨msg, pc⟩, doing, rfl⟩ := Option.map_eq_some_iff.mp busy
  exact quiet ⟨agent, msg, pc, doing, samePtr, late, routed⟩

/-! ## Accesses -/

private theorem access_office {pc : Pc} (doing : system.doing agent = some (msg, pc))
    (accessed : system.access cpus agent msg pc = .ok next) :
    next.office = system.office ∨ Office.Step system.office next.office := by
  have busy := busy_of_doing doing
  have stays : ∀ (pc' : Pc) (scheduler : O1Scheduler), pc'.associated = pc.associated →
      scheduler.heap.seqnums = system.scheduler.heap.seqnums →
      (system.moveTo agent msg pc' scheduler).office = system.office := by
    intro pc' scheduler sameSide kept
    have same : Function.update system.office.busy agent
        (some ⟨msg.letter, msg.kind.updateSeqnum, pc'.associated⟩) = system.office.busy := by
      rw [sameSide, ← busy, Function.update_eq_self]
    unfold office moveTo
    rw [kept, Function.comp_update]
    exact congrArg (Office.mk _ _ _ _) same
  cases pc with
  | assignCpu =>
      simp only [access, bind_eq_ok, Except.ok.injEq] at accessed
      obtain ⟨⟨cpu, scheduler⟩, assigned, rfl⟩ := accessed
      exact .inl (stays _ _ rfl (O1Scheduler.assignCpu_seqnums assigned))
  | associateTask cpu =>
      simp only [access, bind_eq_ok, Except.ok.injEq] at accessed
      obtain ⟨scheduler, associated, rfl⟩ := accessed
      obtain ⟨kept, fresh⟩ := Msg.associate_seqnums associated
      have step := Office.Step.route cpu busy (of_decide_eq_true fresh)
      right
      unfold office moveTo
      rw [kept, Function.comp_update]
      exact step
  | setCpu cpu =>
      simp only [access, bind_eq_ok, Except.ok.injEq] at accessed
      obtain ⟨scheduler, placed, rfl⟩ := accessed
      exact .inl (stays _ _ rfl (Msg.place_seqnums placed))
  | enqueue cpu =>
      simp only [access, bind_eq_ok, Except.ok.injEq] at accessed
      obtain ⟨scheduler, published, rfl⟩ := accessed
      exact .inl (stays _ _ rfl (Msg.publish_seqnums published))
  | advance =>
      simp only [access, bind_eq_ok, Except.ok.injEq] at accessed
      obtain ⟨scheduler, finished, rfl⟩ := accessed
      right
      unfold Msg.finish at finished
      cases updates : msg.kind.updateSeqnum with
      | true =>
          rw [updates] at busy
          rw [if_pos updates] at finished
          have step := Office.Step.mark busy
          unfold office
          rw [O1Scheduler.advance_seqnums finished, Function.comp_update]
          exact step
      | false =>
          rw [updates] at busy
          rw [updates, if_neg Bool.false_ne_true] at finished
          cases finished
          have step := Office.Step.close busy
          unfold office
          rw [Function.comp_update]
          exact step

/-! ## Actions -/

private theorem handle_inv {now : Int}
    (performed : system.perform cpus (.handle agent now) = some (.ok next)) :
    ∃ msg rest scheduler, system.doing agent = none ∧ system.channels agent = msg :: rest ∧
      msg.dispatch cpus system.scheduler now (system.fresh msg) = .ok scheduler ∧
      next = { system with
        scheduler := scheduler, channels := Function.update system.channels agent rest } := by
  unfold perform at performed
  dsimp only at performed
  split at performed
  · rename_i msg rest idle channel
    split at performed
    · cases performed
    · simp only [Option.some.injEq, bind_eq_ok, Except.ok.injEq] at performed
      obtain ⟨scheduler, dispatched, rfl⟩ := performed
      exact ⟨msg, rest, scheduler, idle, channel, dispatched, rfl⟩
  · cases performed

/-- Quiet agents in parallel refine the office. -/
theorem perform_office {action : Action} (quiet : system.Quiet action)
    (performed : system.perform cpus action = some (.ok next)) :
    next.office = system.office ∨ Office.Step system.office next.office := by
  cases action with
  | send msg =>
      unfold perform at performed
      dsimp only at performed
      split at performed
      · rename_i newer
        cases performed
        have step := @Office.Step.send _ _ _ _ system.office msg.letter newer
        right
        unfold office
        rw [Function.comp_update, List.map_append]
        exact step
      · cases performed
  | handle agent now =>
      obtain ⟨msg, rest, scheduler, idle, channel, dispatched, rfl⟩ := handle_inv performed
      have box := box_of_channel channel
      have undisturbed : msg.kind.isNew = false → system.office.Undisturbed msg.ptr := by
        intro old
        apply undisturbed_of_quiet
        exact quiet msg (congrArg List.head? channel) old
      right
      unfold office
      rw [Function.comp_update]
      cases Msg.dispatch_outcome dispatched with
      | ignored _ kept =>
          rw [kept]
          exact .drop box
      | arrived unknown marked =>
          rw [marked]
          exact .arrive box unknown
      | advanced behind old isBehind older marked =>
          rw [marked]
          exact .take _ (idle_of_doing idle) box (undisturbed old) (.inr rfl)
      | freed old marked =>
          rw [marked]
          exact .take _ (idle_of_doing idle) box (undisturbed old) (.inl rfl)
  | begin_ agent =>
      unfold perform at performed
      dsimp only at performed
      split at performed
      · rename_i msg rest idle channel
        split at performed
        · rename_i migrates
          simp only [Option.some.injEq, bind_eq_ok, Except.ok.injEq] at performed
          obtain ⟨scheduler, entered, rfl⟩ := performed
          have box := box_of_channel channel
          right
          unfold office moveTo
          rw [Function.comp_update, Function.comp_update]
          rcases Msg.enter_seqnums migrates entered with
            ⟨-, marked, unknown, written⟩ | ⟨old, late, known, kept⟩
          · have step := Office.Step.openMarked box unknown
            rw [written, Option.map_some, openLetter, marked]
            exact step
          · have undisturbed : system.office.Undisturbed msg.ptr := by
              apply undisturbed_of_quiet
              exact quiet msg (congrArg List.head? channel) old
            have step := Office.Step.openLate (idle_of_doing idle) box undisturbed known
            rw [kept, Option.map_some, openLetter, late]
            exact step
        · cases performed
      · cases performed
  | access agent =>
      unfold perform at performed
      dsimp only at performed
      split at performed
      · rename_i msg pc doing
        exact access_office doing (Option.some.inj performed)
      · cases performed
  | cpuTick agent now later =>
      unfold perform at performed
      dsimp only at performed
      split at performed
      · simp only [Option.some.injEq, bind_eq_ok, Except.ok.injEq] at performed
        obtain ⟨scheduler, ticked, rfl⟩ := performed
        left
        unfold office
        rw [O1Scheduler.cpuTick_seqnums ticked]
      · cases performed
  | o1Schedule agent agentBarrier prioBoost started now committed =>
      unfold perform at performed
      dsimp only at performed
      split at performed
      · simp only [Option.some.injEq, bind_eq_ok, Except.ok.injEq] at performed
        obtain ⟨scheduler, scheduled, rfl⟩ := performed
        left
        unfold office
        rw [O1Scheduler.o1Schedule_seqnums scheduled]
      · cases performed

private theorem init_orderly (first : CpuId) (rest : List CpuId) :
    (init first rest).office.Orderly := by
  constructor
  case home => exact fun agent letter among => absurd among List.not_mem_nil
  case sorted => exact fun agent => .nil
  case sent => exact fun agent letter among => absurd among List.not_mem_nil
  case ahead => exact fun agent letter among => absurd among List.not_mem_nil
  case marked => exact fun key mark isMark => nomatch isMark
  case due => exact fun agent task busy => nomatch busy
  case own => exact fun agent task busy => nomatch busy
  case pending => exact fun agent task busy => nomatch busy
  case alone => exact fun agent agent' task task' busy => nomatch busy

/-- Every `Advance` that is still to come can be made now. -/
def AdvancesPending (system : System) : Prop :=
  ∀ agent msg pc, system.doing agent = some (msg, pc) → msg.kind.updateSeqnum = true →
    ∃ next, system.scheduler.advance msg.ptr msg.seqnum = .ok next

private theorem advancesPending_of_orderly (orderly : system.office.Orderly) :
    system.AdvancesPending := by
  intro agent msg pc doing late
  obtain ⟨mark, isMark, behind⟩ := orderly.pending agent _ (busy_of_doing doing) late
  exact O1Scheduler.advance_ok_iff.mpr ⟨mark, isMark, behind⟩

/-- A message that is handled in spite of a hand-off of its task makes the
`Advance` fail with which the hand-off ends. -/
theorem quiet_of_advancesPending (orderly : system.office.Orderly) {now : Int}
    (performed : system.perform cpus (.handle agent now) = some (.ok next))
    (pending : next.AdvancesPending) : system.Quiet (.handle agent now) := by
  intro msg isMsg old found
  obtain ⟨other, first, pc, doing, samePtr, late, -⟩ := found
  obtain ⟨head, rest, scheduler, -, channel, dispatched, rfl⟩ := handle_inv performed
  obtain rfl : head = msg := Option.some.inj ((congrArg List.head? channel).symm.trans isMsg)
  have busy := busy_of_doing doing
  have among : head.letter ∈ system.office.boxes agent :=
    box_of_channel channel ▸ List.mem_cons_self
  have older : first.seqnum < head.seqnum :=
    (orderly.due other _ busy).first agent head.letter among samePtr.symm
  obtain ⟨behind, isBehind, -⟩ := orderly.pending other _ busy late
  have known : system.scheduler.heap.seqnums head.ptr = some behind := samePtr ▸ isBehind
  obtain ⟨mark, isMark, ahead⟩ := O1Scheduler.advance_ok_iff.mp (pending other first pc doing late)
  rw [samePtr] at isMark
  cases Msg.dispatch_outcome dispatched with
  | ignored unknown _ => cases known.symm.trans (unknown old)
  | arrived unknown _ => cases known.symm.trans unknown
  | advanced _ _ _ _ marked =>
      rw [marked, Function.update_self] at isMark
      cases isMark
      exact absurd ahead older.not_gt
  | freed _ freed =>
      rw [freed, Function.update_self] at isMark
      cases isMark

end System

/-! ## Runs -/

/-- The interleavings without a message in the middle of the hand-off of its task. -/
def quietRuns (first : CpuId) (rest : List CpuId) : Machine System Action :=
  (systems first rest).restrict System.Quiet

private theorem quietRuns_orderly {first : CpuId} {rest : List CpuId} {system : System}
    (reachable : (quietRuns first rest).Reachable system) : system.office.Orderly := by
  apply reachable.invariant fun system => system.office.Orderly
  · intro system starts
    have isInit : system = .init first rest := starts
    rw [isInit]
    exact System.init_orderly first rest
  · intro system action next orderly found
    obtain ⟨quiet, performed⟩ := found
    rcases System.perform_office quiet performed with same | moved
    · rwa [same]
    · exact orderly.step moved

/-- In a quiet run every `Advance` goes through: neither does its `CHECK_GT` fail,
nor is its task freed. Sequence numbers do not decrease. And no more can be
allowed, because a message that is handled during the hand-off of its task makes
the `Advance` at the end of the hand-off fail. -/
theorem hand_off_safe_of_quiet (first : CpuId) (rest : List CpuId) (system : System)
    (reachable : (quietRuns first rest).Reachable system) :
    system.AdvancesPending ∧
    (∀ agent msg queue now handled, system.channels agent = msg :: queue →
      msg.accepted system.scheduler = true → msg.kind.updateSeqnum = true →
      msg.handler (first :: rest) system.scheduler now (system.fresh msg) = .ok handled →
      ∃ next, handled.advance msg.ptr msg.seqnum = .ok next) ∧
    (∀ action next, (quietRuns first rest).step system action next → ∀ ptr before after,
      system.scheduler.heap.seqnums ptr = some before →
      next.scheduler.heap.seqnums ptr = some after → before ≤ after) ∧
    ∀ agent now next, (systems first rest).step system (.handle agent now) next →
      (system.Quiet (.handle agent now) ↔ next.AdvancesPending) := by
  have orderly := quietRuns_orderly reachable
  refine ⟨System.advancesPending_of_orderly orderly, ?_, ?_, ?_⟩
  · intro agent msg queue now handled channel accepted updates done
    have among : msg.letter ∈ system.office.boxes agent :=
      System.box_of_channel channel ▸ List.mem_cons_self
    rw [O1Scheduler.advance_ok_iff, Msg.handler_seqnums updates done]
    obtain ⟨task, known⟩ := Msg.known_of_accepted updates accepted
    have isMark : system.scheduler.heap.seqnums msg.ptr = some task.seqnum := by
      rw [Heap.seqnums, known]
      rfl
    exact ⟨task.seqnum, isMark, orderly.ahead agent msg.letter among _ isMark⟩
  · intro action next found ptr before after was becomes
    obtain ⟨quiet, performed⟩ := found
    rcases System.perform_office quiet performed with same | moved
    · have kept : next.scheduler.heap.seqnums = system.scheduler.heap.seqnums :=
        congrArg Office.marks same
      rw [kept, was] at becomes
      exact (Option.some.inj becomes).le
    · exact orderly.step_marks moved was becomes
  · intro agent now next performed
    constructor
    · intro quiet
      have later := reachable.step ⟨quiet, performed⟩
      exact System.advancesPending_of_orderly (quietRuns_orderly later)
    · exact System.quiet_of_advancesPending orderly performed

/-- One action, if it can be taken and does not fault. -/
def System.replay (cpus : List CpuId) (system : System) (action : Action) : Except Unit System :=
  match system.perform cpus action with
  | some (.ok next) => .ok next
  | _ => .error ()

private theorem System.perform_of_replay {cpus : List CpuId} {system next : System}
    {action : Action}
    (replayed : system.replay cpus action = .ok next) :
    system.perform cpus action = some (.ok next) := by
  unfold replay at replayed
  split at replayed
  · rename_i performed
    rw [performed, Except.ok.inj replayed]
  · cases replayed

/-- A task arrives blocked and wakes up. The agent of the default channel has
placed it, and its `Advance` comes next. -/
def wakeupActions : List Action :=
  [.send ⟨1, 1, .taskNew 101 0 false⟩, .handle firstCpu 0, .send ⟨1, 2, .taskWakeup false⟩,
    .begin_ firstCpu, .access firstCpu, .access firstCpu, .access firstCpu, .access firstCpu]

def secondCpu : CpuId := ⟨1, by decide⟩

/-- On two CPUs, of which the first has a task already. The agent of the second CPU schedules the
task that wakes up before the agent of the first one advances it, and does not yet look at a change
of its priority. -/
def parallelActions : List Action :=
  [.send ⟨2, 1, .taskNew 102 0 true⟩, .begin_ firstCpu, .access firstCpu, .access firstCpu,
    .access firstCpu, .access firstCpu, .access firstCpu] ++ wakeupActions ++
  [.send ⟨1, 3, .taskPriorityChanged 5⟩, .o1Schedule secondCpu 0 false 0 0 true]

def wakingUp : System :=
  (parallelActions.foldlM (System.replay [firstCpu, secondCpu])
    (.init firstCpu [secondCpu])).toOption.getD (.init firstCpu [secondCpu])

set_option maxRecDepth 2000 in
theorem wakingUp_reachable : (quietRuns firstCpu [secondCpu]).Reachable wakingUp := by
  have quiet : ∀ (system : System) (action : Action), system.begun action = none →
      system.Quiet action := by
    intro system action unbegun msg isMsg
    cases unbegun.symm.trans isMsg
  have idle : ∀ (system : System) (action : Action), system.doing firstCpu = none →
      (∀ agent, agent ≠ firstCpu → system.doing agent = none) → system.Quiet action := by
    intro system action first others msg _ _ handing
    obtain ⟨agent, _, _, doing, -⟩ := handing
    by_cases isFirst : agent = firstCpu
    · cases first.symm.trans (isFirst ▸ doing)
    · cases (others agent isFirst).symm.trans doing
  refine ⟨.init firstCpu [secondCpu], parallelActions, rfl, ?_⟩
  refine .cons ⟨quiet _ _ rfl, rfl⟩ (.cons ⟨idle _ _ rfl fun _ _ => rfl, rfl⟩ ?_)
  refine .cons ⟨quiet _ _ rfl, rfl⟩ (.cons ⟨quiet _ _ rfl, rfl⟩ ?_)
  refine .cons ⟨quiet _ _ rfl, rfl⟩ (.cons ⟨quiet _ _ rfl, rfl⟩ ?_)
  refine .cons ⟨quiet _ _ rfl, rfl⟩ (.cons ⟨quiet _ _ rfl, rfl⟩ ?_)
  refine .cons ⟨idle _ _ rfl fun agent other => ?_, rfl⟩ (.cons ⟨quiet _ _ rfl, rfl⟩ ?_)
  · repeat first
      | rfl
      | refine (Function.update_of_ne other _ _).trans ?_
  refine .cons ⟨idle _ _ rfl fun agent other => ?_, rfl⟩ (.cons ⟨quiet _ _ rfl, rfl⟩ ?_)
  · repeat first
      | rfl
      | refine (Function.update_of_ne other _ _).trans ?_
  refine .cons ⟨quiet _ _ rfl, rfl⟩ (.cons ⟨quiet _ _ rfl, rfl⟩ ?_)
  refine .cons ⟨quiet _ _ rfl, rfl⟩ (.cons ⟨quiet _ _ rfl, rfl⟩ ?_)
  exact .cons ⟨quiet _ _ rfl, rfl⟩ (.nil _)

set_option maxRecDepth 2000 in
theorem hand_off_safe_of_quiet_wakeup :
    (wakingUp.scheduler.cpuStates secondCpu).current = some 1 ∧
      wakingUp.channels secondCpu = [⟨1, 3, .taskPriorityChanged 5⟩] ∧
      ∃ next, wakingUp.scheduler.advance 1 2 = .ok next :=
  ⟨rfl, rfl, (hand_off_safe_of_quiet firstCpu [secondCpu] wakingUp wakingUp_reachable).1 firstCpu
    ⟨1, 2, .taskWakeup false⟩ .advance rfl rfl⟩

/-- The same on two CPUs, of which the first has a task already. Before the agent
of the first CPU advances the task, the kernel sends one more message, and the
agent of the second CPU handles it. -/
def disturbedBy (kind : MsgKind) : List Action :=
  [.send ⟨2, 1, .taskNew 102 0 true⟩, .begin_ firstCpu, .access firstCpu, .access firstCpu,
    .access firstCpu, .access firstCpu, .access firstCpu] ++ wakeupActions ++
  [.send ⟨1, 3, kind⟩, .handle secondCpu 0]

def disturbed (kind : MsgKind) : System :=
  ((disturbedBy kind).foldlM (System.replay [firstCpu, secondCpu])
    (.init firstCpu [secondCpu])).toOption.getD (.init firstCpu [secondCpu])

/-- If the priority of the task has changed, then its sequence number has passed
the one of the wakeup, and if the task has departed, then it is freed. -/
theorem hand_off_unsafe :
    ((systems firstCpu [secondCpu]).Reachable (disturbed (.taskPriorityChanged 5)) ∧
      (disturbed (.taskPriorityChanged 5)).doing firstCpu =
        some (⟨1, 2, .taskWakeup false⟩, .advance) ∧
      (disturbed (.taskPriorityChanged 5)).scheduler.advance 1 2 = .error .check) ∧
    (systems firstCpu [secondCpu]).Reachable (disturbed (.taskDeparted ⟨false, firstCpu⟩)) ∧
      (disturbed (.taskDeparted ⟨false, firstCpu⟩)).doing firstCpu =
        some (⟨1, 2, .taskWakeup false⟩, .advance) ∧
      (disturbed (.taskDeparted ⟨false, firstCpu⟩)).scheduler.advance 1 2 =
        .error .undefinedBehaviour := by
  have reachable : ∀ kind, (disturbedBy kind).foldlM (System.replay [firstCpu, secondCpu])
      (.init firstCpu [secondCpu]) = .ok (disturbed kind) →
      (systems firstCpu [secondCpu]).Reachable (disturbed kind) := by
    intro kind replayed
    refine ⟨.init firstCpu [secondCpu], disturbedBy kind, rfl, ?_⟩
    exact Machine.Run.of_foldlM (fun _ _ _ => System.perform_of_replay) replayed
  refine ⟨⟨reachable _ rfl, rfl, rfl⟩, reachable _ rfl, rfl, rfl⟩

end Ghost.O1
