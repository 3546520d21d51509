import Ghost.Bpf.PntRingSteps

/-!
# PNT ring safety

What holds in every interleaving of the producers, the consumers and the agent.
-/

set_option autoImplicit false

namespace Ghost.Bpf.Pnt

open Lib Txn

/-! ## Every interleaving -/

section Interleavings

variable {Producer : Type} {system next : System Producer}
  {status status' : Nat → Status Producer} {shared' : Shared}

structure Good (system : System Producer) (status : Nat → Status Producer) : Prop where
  layout : Layout system.shared status
  logs : Logs system.shared status
  producers : ∀ producer, ProducerAt system.shared status producer (system.producers producer)
  consumers : ∀ cpu, ConsumerAt system.shared status cpu (system.consumers cpu)
  agent : AgentAt system.shared status system.agent

theorem Good.initial (starts : system.Initial) : Good system fun _ => .unborn := by
  obtain ⟨prodIdx, consIdx, slots, txns, published, claims, runs, reapings, tracking, unscheduled,
    errorsReaped, producers, consumers, agent⟩ := starts
  have reports : system.shared.reports = [] := by simp [Shared.reports, unscheduled, errorsReaped]
  constructor
  · constructor
    · simp [prodIdx, consIdx]
    · simp [prodIdx]
    · simp [prodIdx, txns]
    · simp [prodIdx]
    · simp [prodIdx]
    · intro idx _ _
      exact slots _
    · simp [prodIdx]
    · simp [txns]
    · simp [txns]
    · simp [consIdx]
    · simp
  · constructor
    · simp [published]
    · simp [claims]
    · simp [claims]
    · simp [runs]
    · simp [runs]
    · simp [runs]
    · simp [Status.HasResult]
    · simp
    · simp [tracking]
    · simp [Status.back]
    · simp [reports]
    · simp [reports]
    · simp [unscheduled]
  · intro producer
    rw [producers producer]
    trivial
  · intro cpu
    rw [consumers cpu]
    trivial
  · rw [agent]
    trivial

/-! ### Steps -/

private theorem Good.consumer {cpu : Cpu} {pc : ConsumerPc} (good : Good system status)
    (effect : Effect (.consumer cpu) system.shared status shared' status')
    (same : SameRecords system.shared shared') (place : ConsumerAt shared' status' cpu pc) :
    Good { system with
      shared := shared'
      consumers := Function.update system.consumers cpu pc } status' := by
  refine ⟨effect.layout, effect.logs, ?_, ?_, ?_⟩
  · intro producer
    exact (good.producers producer).stable effect nofun
  · intro other
    by_cases isSelf : other = cpu
    · subst isSelf
      simpa only [Function.update_self] using place
    · simp only [Function.update_of_ne isSelf]
      apply (good.consumers other).stable effect
      intro isParty
      cases isParty
      exact isSelf rfl
  · apply good.agent.mono
    · intro idx tracked
      rwa [same.tracking]
    · exact finished_stable effect nofun

private theorem Good.agentStep {pc : AgentPc} (good : Good system status)
    (effect : Effect .agent system.shared status shared' status')
    (place : AgentAt shared' status' pc) :
    Good { system with shared := shared', agent := pc } status' := by
  refine ⟨effect.layout, effect.logs, ?_, ?_, place⟩
  · intro producer
    exact (good.producers producer).stable effect nofun
  · intro cpu
    exact (good.consumers cpu).stable effect nofun

private theorem System.call_eq_some {idx : Nat} {pc : AgentPc}
    (called : system.call idx pc = some next) :
    system.shared.tracking idx = .tracked ∧ next = { system with agent := pc } := by
  unfold System.call at called
  split at called
  · split at called
    case isTrue tracked => exact ⟨tracked, (Option.some.inj called).symm⟩
    case isFalse => cases called
  · cases called

section Machine

variable [DecidableEq Producer] {inBpf : Producer → Bool}

private theorem Good.producer {producer : Producer} {pc : ProducerPc} (good : Good system status)
    (effect : Effect (.producer producer) system.shared status shared' status')
    (same : SameRecords system.shared shared') (place : ProducerAt shared' status' producer pc) :
    Good { system with
      shared := shared'
      producers := Function.update system.producers producer pc } status' := by
  refine ⟨effect.layout, effect.logs, ?_, ?_, ?_⟩
  · intro other
    by_cases isSelf : other = producer
    · subst isSelf
      simpa only [Function.update_self] using place
    · simp only [Function.update_of_ne isSelf]
      apply (good.producers other).stable effect
      intro isParty
      cases isParty
      exact isSelf rfl
  · intro cpu
    exact (good.consumers cpu).stable effect nofun
  · apply good.agent.mono
    · intro idx tracked
      rwa [same.tracking]
    · exact finished_stable effect nofun

theorem Good.step {action : Action Producer} (good : Good system status)
    (moved : (latchedRings inBpf).step system action next) :
    (∃ status', Good next status') ∧ Told system.shared next.shared := by
  obtain ⟨latchedOnly, performed⟩ := moved
  have stays : ∀ party : Party Producer, Effect party system.shared status system.shared status :=
    fun _ => .refl good.layout good.logs
  change system.perform inBpf action = some next at performed
  cases action with
  | schedule producer task =>
      simp only [System.perform] at performed
      split at performed
      · cases performed
        exact ⟨⟨status, good.producer (stays _) ⟨rfl, rfl, rfl⟩ trivial⟩, .refl _⟩
      · cases performed
  | producer producer =>
      obtain ⟨outcome, accessed, rfl⟩ := Option.map_eq_some_iff.mp performed
      obtain ⟨status', effect, same, place⟩ :=
        (good.producers producer).access good.layout good.logs accessed
      exact ⟨⟨status', good.producer effect same place⟩, same.told⟩
  | latch cpu =>
      simp only [System.perform] at performed
      split at performed
      · cases performed
        exact ⟨⟨status, good.consumer (stays _) ⟨rfl, rfl, rfl⟩ trivial⟩, .refl _⟩
      · cases performed
  | consumer cpu result =>
      obtain ⟨outcome, accessed, rfl⟩ := Option.map_eq_some_iff.mp performed
      obtain ⟨status', effect, same, place⟩ :=
        (good.consumers cpu).access good.layout good.logs accessed
      exact ⟨⟨status', good.consumer effect same place⟩, same.told⟩
  | track idx =>
      simp only [System.perform] at performed
      split at performed
      case isTrue known =>
        cases performed
        have effect := (stays .agent).report (good.logs.track known.1 known.2)
        refine ⟨⟨status, good.agentStep effect (good.agent.mono ?_ id)⟩, ⟨fun _ => id, fun _ => id⟩⟩
        intro other tracked
        by_cases same : other = idx
        · rw [same]
          exact Function.update_self ..
        · exact (Function.update_of_ne same ..).trans tracked
      case isFalse => cases performed
  | setTaskPtr idx =>
      simp only [System.perform] at performed
      split at performed
      case isTrue tracked =>
        cases performed
        have filled := good.logs.filled_of_tracked tracked
        refine ⟨⟨status, good.agentStep ?_ (good.agent.mono (fun _ => id) id)⟩,
          ⟨fun _ => id, fun _ => id⟩⟩
        exact touch_effect good.layout good.logs filled rfl rfl rfl
      case isFalse => cases performed
  | unschedule idx =>
      obtain ⟨tracked, rfl⟩ := System.call_eq_some performed
      exact ⟨⟨status, good.agentStep (stays _) tracked⟩, .refl _⟩
  | reapErrors idx =>
      obtain ⟨tracked, rfl⟩ := System.call_eq_some performed
      exact ⟨⟨status, good.agentStep (stays _) tracked⟩, .refl _⟩
  | reapSlot idx =>
      obtain ⟨tracked, rfl⟩ := System.call_eq_some performed
      have complete := latchedOnly idx rfl
      rw [good.layout.word_of_filled (good.logs.filled_of_tracked tracked),
        Status.word_eq_complete] at complete
      exact ⟨⟨status, good.agentStep (stays _) ⟨tracked, complete⟩⟩, .refl _⟩
  | agent =>
      obtain ⟨outcome, accessed, rfl⟩ := Option.map_eq_some_iff.mp performed
      obtain ⟨status', effect, told, place⟩ :=
        good.agent.access good.layout good.logs accessed
      exact ⟨⟨status', good.agentStep effect place⟩, told⟩

theorem Good.run {actions : List (Action Producer)} {later : System Producer}
    (good : Good system status) (run : (latchedRings inBpf).Run system actions later) :
    (∃ status', Good later status') ∧ Told system.shared later.shared := by
  induction run generalizing status with
  | nil => exact ⟨⟨status, good⟩, .refl _⟩
  | cons moved _ ih =>
      obtain ⟨⟨_, good'⟩, told⟩ := good.step moved
      obtain ⟨goodLater, toldLater⟩ := ih good'
      exact ⟨goodLater, told.trans toldLater⟩

private theorem exists_good (reachable : (latchedRings inBpf).Reachable system) :
    ∃ status, Good system status := by
  obtain ⟨first, actions, starts, run⟩ := reachable
  exact ((Good.initial starts).run run).1

/-! ### What holds throughout -/

/-- The producer is about to store into a slot, other than to its state. -/
def ProducerPc.Overwrites : ProducerPc → Nat → Prop
  | .storeGtid _ prodIdx, idx => prodIdx = idx
  | .storeTaskBarrier _ prodIdx, idx => prodIdx = idx
  | .storeTaskPtr _ prodIdx, idx => prodIdx = idx
  | _, _ => False

omit [DecidableEq Producer] in
private theorem Good.overwrites {producer : Producer} {idx : Nat} (good : Good system status)
    (overwrites : (system.producers producer).Overwrites idx) :
    (system.shared.slot idx).txnState = reaped ∧
      (nrSlots ≤ idx → idx - nrSlots ∈ system.shared.reapings) := by
  have place := good.producers producer
  obtain ⟨stored, was⟩ : ∃ stored, status idx = .filling producer stored := by
    cases pc : system.producers producer with
    | storeGtid task prodIdx =>
        rw [pc] at place overwrites
        cases overwrites
        exact ⟨_, place.1⟩
    | storeTaskBarrier task prodIdx =>
        rw [pc] at place overwrites
        cases overwrites
        exact ⟨_, place.1⟩
    | storeTaskPtr task prodIdx =>
        rw [pc] at place overwrites
        cases overwrites
        exact ⟨_, place.1⟩
    | _ =>
        rw [pc] at overwrites
        exact overwrites.elim
  obtain ⟨lower, upper⟩ := good.layout.current_of_filling was
  constructor
  · rw [good.layout.word idx lower upper, was]
    rfl
  · intro later
    apply good.logs.reapings
    apply good.layout.old
    simp only [nrSlots] at later ⊢
    omega

/-- The ring is never over-full, slots are overwritten only when reaped, a transaction is
claimed and run once, with its own task, and the agent gets back exactly the ones that are
never latched, each once. The indexes are numbers: fewer than `2 ^ 64` transactions are assumed. -/
theorem pnt_ring_safe (inBpf : Producer → Bool) (system later : System Producer)
    (actions : List (Action Producer)) (reachable : (latchedRings inBpf).Reachable system)
    (run : (latchedRings inBpf).Run system actions later) :
    (system.shared.consIdx ≤ system.shared.prodIdx ∧
      system.shared.prodIdx ≤ system.shared.consIdx + nrSlots) ∧
    (∀ producer idx, (system.producers producer).Overwrites idx →
      (system.shared.slot idx).txnState = reaped ∧
        (nrSlots ≤ idx → idx - nrSlots ∈ system.shared.reapings)) ∧
    (system.shared.claims.map fun claim => claim.1).Nodup ∧
    (system.shared.runs.map fun run => run.idx).Nodup ∧
    (∀ run ∈ system.shared.runs, ∃ task, system.shared.txns[run.idx]? = some task ∧
      run.gtid = task.gtid ∧ run.taskBarrier = task.taskBarrier) ∧
    (∀ idx returned, (idx, returned) ∈ system.shared.unscheduled →
      (returned = true ↔ ¬ later.shared.Latched idx)) ∧
    ∀ idx ∈ system.shared.reports, later.shared.reports.count idx = 1 ∧
      (idx, false) ∉ later.shared.unscheduled := by
  obtain ⟨status, good⟩ := exists_good reachable
  obtain ⟨⟨status', goodLater⟩, told⟩ := good.run run
  refine ⟨⟨good.layout.cons_le, good.layout.prod_le⟩, fun _ _ => good.overwrites,
    good.logs.claimsOnce, good.logs.runsOnce, good.logs.task, ?_, ?_⟩
  · intro idx returned member
    have still := told.unscheduled _ member
    cases returned with
    | true =>
        have reported := Shared.mem_reports_of_unscheduled still
        simpa using (goodLater.logs.reports idx reported).2.2
    | false => simpa using goodLater.logs.latched idx still
  · intro idx reported
    have still := told.reports reported
    constructor
    · exact List.count_eq_one_of_mem goodLater.logs.reportsOnce still
    · intro returned
      exact (goodLater.logs.reports idx still).2.2 (goodLater.logs.latched idx returned)

end Machine

end Interleavings

/-! ## Runs -/

def emptyRing : System Unit where
  shared := {
    prodIdx := 0
    consIdx := 0
    slots := fun _ => ⟨reaped, 0, 0, 0, false⟩
    txns := []
    published := []
    claims := []
    runs := []
    reapings := []
    tracking := fun _ => .unknown
    unscheduled := []
    errorsReaped := [] }
  producers := fun _ => .idle
  consumers := fun _ => .idle
  agent := .idle

theorem emptyRing_initial : emptyRing.Initial :=
  ⟨rfl, rfl, fun _ => rfl, rfl, rfl, rfl, rfl, rfl, fun _ => rfl, rfl, rfl, fun _ => rfl,
    fun _ => rfl, rfl⟩

def cpuZero : Cpu := ⟨0, by decide⟩

def scheduleSteps (gtid : Nat) : List (Action Unit) :=
  .schedule () ⟨gtid, gtid, true⟩ :: List.replicate 8 (.producer ())

def consumerSteps (n : Nat) : List (Action Unit) := List.replicate n (.consumer cpuZero .ok)

/-- The first of two tasks is latched, and the agent takes the second back. -/
def takenBack : List (Action Unit) :=
  List.flatten [scheduleSteps 100, scheduleSteps 101, [.track 0, .track 1, .latch cpuZero],
    consumerSteps 10, [.unschedule 1, .agent, .agent, .unschedule 0, .agent, .agent]]

def afterTakenBack : System Unit :=
  (takenBack.foldlM (System.perform fun _ => false) emptyRing).getD emptyRing

/-- The CPU comes to the slot of the second task. -/
def passedOver : List (Action Unit) := .latch cpuZero :: consumerSteps 9

def afterPassedOver : System Unit :=
  (passedOver.foldlM (System.perform fun _ => false) afterTakenBack).getD afterTakenBack

theorem pnt_ring_safe_passedOver :
    afterTakenBack.shared.unscheduled = [(0, false), (1, true)] ∧
      afterPassedOver.shared.consIdx = 2 ∧ afterPassedOver.shared.Latched 0 ∧
      ¬ afterPassedOver.shared.Latched 1 := by
  have front : (pntRings fun _ : Unit => false).Run emptyRing takenBack afterTakenBack :=
    Machine.Run.of_foldlM_some (fun _ _ _ performed => performed) rfl
  have back : (pntRings fun _ : Unit => false).Run afterTakenBack passedOver afterPassedOver :=
    Machine.Run.of_foldlM_some (fun _ _ _ performed => performed) rfl
  have reachable : (latchedRings fun _ : Unit => false).Reachable afterTakenBack := by
    refine ⟨emptyRing, takenBack, emptyRing_initial, front.restrict ?_⟩
    intro action member _ idx isReap
    subst isReap
    simp [takenBack, scheduleSteps, consumerSteps] at member
  have run : (latchedRings fun _ : Unit => false).Run afterTakenBack passedOver
      afterPassedOver := by
    apply back.restrict
    intro action member _ idx isReap
    subst isReap
    simp [passedOver, consumerSteps] at member
  obtain ⟨_, _, _, _, _, unscheduled, _⟩ := pnt_ring_safe _ _ _ _ reachable run
  have told : afterTakenBack.shared.unscheduled = [(0, false), (1, true)] := rfl
  have first := unscheduled 0 false (by rw [told]; decide)
  have second := unscheduled 1 true (by rw [told]; decide)
  refine ⟨told, rfl, ?_, second.mp rfl⟩
  by_contra never
  exact absurd (first.mpr never) (by decide)

/-- The agent reaps the slot of a task that a CPU has claimed, and the slot is used again
before the CPU has read it. -/
def reapedClaimed : List (Action Unit) :=
  List.flatten [scheduleSteps 100, [.track 0, .latch cpuZero], consumerSteps 6,
    [.reapSlot 0, .agent], (List.range 64).flatMap fun i => scheduleSteps (101 + i),
    [.track 64], consumerSteps 3, [.unschedule 64, .agent, .agent]]

private theorem reapedClaimed_outcome :
    (reapedClaimed.foldlM (System.perform fun _ => false) emptyRing).any
      (fun system => decide (system.shared.unscheduled = [(64, true)] ∧
        (system.shared.txns.map fun task => task.gtid).Nodup ∧
        system.shared.txns[64]? = some ⟨164, 164, true⟩ ∧
        system.shared.runs = [⟨0, cpuZero, 164, 164, .ok⟩])) = true := by
  decide +kernel

/-- The task is put on a CPU although `pnt_unschedule_ring_slot` has returned true for it. -/
theorem pnt_ring_reap_claimed :
    ∃ system, (pntRings fun _ : Unit => false).Reachable system ∧
      (64, true) ∈ system.shared.unscheduled ∧
      (system.shared.txns.map fun task => task.gtid).Nodup ∧
      ∃ task ∈ system.shared.txns[64]?, ∃ run ∈ system.shared.runs, run.gtid = task.gtid ∧
        run.taskBarrier = task.taskBarrier ∧ run.result = .ok := by
  obtain ⟨system, run, holds⟩ :
      ∃ system, (pntRings fun _ : Unit => false).Run emptyRing reapedClaimed system ∧ _ :=
    Machine.Run.exists_of_any (fun _ _ _ performed => performed) reapedClaimed_outcome
  obtain ⟨unscheduled, distinct, task, runs⟩ := of_decide_eq_true holds
  refine ⟨system, ⟨emptyRing, reapedClaimed, emptyRing_initial, run⟩, ?_, distinct, _, task, ?_⟩
  · rw [unscheduled]
    exact List.mem_cons_self
  · refine ⟨⟨0, cpuZero, 164, 164, .ok⟩, ?_, rfl, rfl, rfl⟩
    rw [runs]
    exact List.mem_cons_self

end Ghost.Bpf.Pnt
