import Ghost.Bpf.PntRingLogs

/-!
# Steps on a ring

What each party may assume where it stands, that no step of another party takes it away,
and that its own steps keep the layout and the logs.
-/

set_option autoImplicit false

namespace Ghost.Bpf.Pnt

open Lib Txn

/-! ## Where the parties stand -/

section Places

variable {Producer : Type} (shared : Shared) (status : Nat → Status Producer)

/-- The transaction that a producer fills in. -/
def Fills (producer : Producer) (task : Task) (idx stored : Nat) : Prop :=
  status idx = .filling producer stored ∧ shared.txns[idx]? = some task

/-- What was read of the indexes may be stale, and matters only while they have not moved. -/
def ProducerAt (producer : Producer) : ProducerPc → Prop
  | .idle => True
  | .loadProd _ _ => True
  | .loadCons _ _ prodIdx => prodIdx ≤ shared.prodIdx
  | .loadState _ _ prodIdx => prodIdx ≤ shared.prodIdx ∧
      (shared.prodIdx = prodIdx → prodIdx < shared.consIdx + 64)
  | .casProd _ _ prodIdx => prodIdx ≤ shared.prodIdx ∧
      (shared.prodIdx = prodIdx → prodIdx < shared.consIdx + 64 ∧
        (64 ≤ prodIdx → status (prodIdx - 64) = .reaped))
  | .storeGtid task prodIdx => Fills shared status producer task prodIdx 0
  | .storeTaskBarrier task prodIdx => Fills shared status producer task prodIdx 1
  | .storeTaskPtr task prodIdx => Fills shared status producer task prodIdx 2
  | .storeReady task prodIdx => Fills shared status producer task prodIdx 2

def ConsumerAt (cpu : Cpu) : ConsumerPc → Prop
  | .idle => True
  | .loadCons _ => True
  | .loadProd _ consIdx => consIdx ≤ shared.consIdx
  | .loadState _ consIdx => consIdx ≤ shared.consIdx ∧
      (shared.consIdx = consIdx → consIdx < shared.prodIdx)
  | .casCons _ consIdx => consIdx ≤ shared.consIdx ∧
      (shared.consIdx = consIdx → (status consIdx).Waiting)
  | .casState _ consIdx =>
      status consIdx = .ready (some cpu) ∨ status consIdx = .aborted (some cpu)
  | .loadAborted _ consIdx => status consIdx = .aborted (some cpu)
  | .storeReaped _ consIdx => status consIdx = .aborted (some cpu)
  | .storeCpu _ consIdx => status consIdx = .claimed cpu
  | .loadGtid _ consIdx => status consIdx = .claimed cpu
  | .loadTaskBarrier _ consIdx gtid => status consIdx = .claimed cpu ∧
      ∃ task, shared.txns[consIdx]? = some task ∧ gtid = task.gtid
  | .run _ consIdx gtid taskBarrier => status consIdx = .claimed cpu ∧
      ∃ task, shared.txns[consIdx]? = some task ∧ gtid = task.gtid ∧
        taskBarrier = task.taskBarrier
  | .storeResult _ consIdx result => status consIdx = .ran cpu result

/-- The agent is about to reap a transaction that could not be latched. -/
def Failed (idx : Nat) : Prop :=
  shared.tracking idx = .tracked ∧ ∃ result, result ≠ .ok ∧ status idx = .finished result

def AgentAt : AgentPc → Prop
  | .idle => True
  | .unscheduleLoad idx => shared.tracking idx = .tracked
  | .unscheduleCas idx => shared.tracking idx = .tracked
  | .unscheduleSpin idx => shared.tracking idx = .tracked
  | .unscheduleReap idx => Failed shared status idx
  | .errorsLoad idx => shared.tracking idx = .tracked
  | .errorsTaskPtr idx => Failed shared status idx
  | .errorsReap idx => Failed shared status idx
  | .reap idx => shared.tracking idx = .tracked ∧ status idx = .finished .ok

end Places

/-! ## Steps of the other parties -/

/-- The agent's own records stay as they are. -/
structure SameRecords (shared shared' : Shared) : Prop where
  tracking : shared'.tracking = shared.tracking
  unscheduled : shared'.unscheduled = shared.unscheduled
  errorsReaped : shared'.errorsReaped = shared.errorsReaped

/-- What the agent was told stays told. -/
structure Told (shared shared' : Shared) : Prop where
  unscheduled : ∀ outcome ∈ shared.unscheduled, outcome ∈ shared'.unscheduled
  errorsReaped : ∀ idx ∈ shared.errorsReaped, idx ∈ shared'.errorsReaped

theorem Told.refl (shared : Shared) : Told shared shared :=
  ⟨fun _ => id, fun _ => id⟩

theorem Told.trans {first second third : Shared} (front : Told first second)
    (back : Told second third) : Told first third where
  unscheduled outcome member := back.unscheduled outcome (front.unscheduled outcome member)
  errorsReaped idx member := back.errorsReaped idx (front.errorsReaped idx member)

theorem Told.reports {shared shared' : Shared} {idx : Nat} (told : Told shared shared')
    (reported : idx ∈ shared.reports) : idx ∈ shared'.reports := by
  obtain unscheduled | failed := List.mem_append.mp reported
  · obtain ⟨outcome, member, rfl⟩ := List.mem_map.mp unscheduled
    obtain ⟨returned, isTrue⟩ := List.mem_filter.mp member
    apply List.mem_append_left
    exact List.mem_map.mpr
      ⟨outcome, List.mem_filter.mpr ⟨told.unscheduled outcome returned, isTrue⟩, rfl⟩
  · exact List.mem_append_right _ (told.errorsReaped idx failed)

theorem SameRecords.told {shared shared' : Shared} (same : SameRecords shared shared') :
    Told shared shared' := by
  constructor
  · intro outcome member
    rwa [same.unscheduled]
  · intro idx member
    rwa [same.errorsReaped]

section Effects

variable {Producer : Type}

/-- What one access of a party may do. -/
structure Effect (party : Party Producer) (shared : Shared) (status : Nat → Status Producer)
    (shared' : Shared) (status' : Nat → Status Producer) : Prop where
  prod_le : shared.prodIdx ≤ shared'.prodIdx
  cons_le : shared.consIdx ≤ shared'.consIdx
  txns : ∀ (idx : Nat) (task : Task), shared.txns[idx]? = some task → shared'.txns[idx]? = some task
  next : ∀ idx, Status.Next party (status idx) (status' idx)
  layout : Layout shared' status'
  logs : Logs shared' status'

variable {party : Party Producer} {shared shared' : Shared} {status status' : Nat → Status Producer}

theorem Effect.refl (layout : Layout shared status) (logs : Logs shared status) :
    Effect party shared status shared status where
  prod_le := Nat.le_refl _
  cons_le := Nat.le_refl _
  txns _ _ found := found
  next _ := .stay _
  layout := layout
  logs := logs

private theorem Effect.move {idx : Nat} {old new : Status Producer}
    (prodIdx : shared'.prodIdx = shared.prodIdx) (consIdx : shared'.consIdx = shared.consIdx)
    (txns : shared'.txns = shared.txns) (was : status idx = old)
    (moved : Status.Next party old new)
    (layout : Layout shared' (Function.update status idx new))
    (logs : Logs shared' (Function.update status idx new)) :
    Effect party shared status shared' (Function.update status idx new) where
  prod_le := prodIdx.ge
  cons_le := consIdx.ge
  txns idx task found := by rw [txns, found]
  next := moved.update was
  layout := layout
  logs := logs

theorem Effect.report {tracking : Nat → Tracking} {unscheduled : List (Nat × Bool)}
    {errorsReaped : List Nat} (effect : Effect party shared status shared' status')
    (logs : Logs { shared' with
      tracking := tracking
      unscheduled := unscheduled
      errorsReaped := errorsReaped } status') :
    Effect party shared status { shared' with
      tracking := tracking
      unscheduled := unscheduled
      errorsReaped := errorsReaped } status' where
  prod_le := effect.prod_le
  cons_le := effect.cons_le
  txns := effect.txns
  next := effect.next
  layout := { effect.layout with }
  logs := logs

section Stable

variable (effect : Effect party shared status shared' status')
include effect

private theorem Fills.stable {producer : Producer} {task : Task} {idx stored : Nat}
    (other : party ≠ .producer producer) (fills : Fills shared status producer task idx stored) :
    Fills shared' status' producer task idx stored := by
  have moved := effect.next idx
  rw [fills.1] at moved
  exact ⟨moved.of_filling other, effect.txns idx task fills.2⟩

theorem ProducerAt.stable {producer : Producer} {pc : ProducerPc}
    (other : party ≠ .producer producer) (place : ProducerAt shared status producer pc) :
    ProducerAt shared' status' producer pc := by
  have prod_le := effect.prod_le
  have cons_le := effect.cons_le
  cases pc with
  | idle => trivial
  | loadProd _ _ => trivial
  | loadCons _ _ prodIdx => exact Nat.le_trans place prod_le
  | loadState _ _ prodIdx =>
      obtain ⟨behind, room⟩ := place
      refine ⟨Nat.le_trans behind prod_le, ?_⟩
      intro same
      have roomThen := room (by omega)
      omega
  | casProd _ _ prodIdx =>
      obtain ⟨behind, room⟩ := place
      refine ⟨Nat.le_trans behind prod_le, ?_⟩
      intro same
      obtain ⟨roomThen, free⟩ := room (by omega)
      refine ⟨by omega, ?_⟩
      intro later
      have moved := effect.next (prodIdx - 64)
      rw [free later] at moved
      exact moved.of_reaped
  | storeGtid task prodIdx => exact Fills.stable effect other place
  | storeTaskBarrier task prodIdx => exact Fills.stable effect other place
  | storeTaskPtr task prodIdx => exact Fills.stable effect other place
  | storeReady task prodIdx => exact Fills.stable effect other place

private theorem waiting_stable {idx : Nat} (waiting : (status idx).Waiting)
    (ahead : shared'.consIdx ≤ idx) : (status' idx).Waiting := by
  have started : (status idx).started = true := by
    obtain was | was := waiting <;> rw [was] <;> rfl
  have started' := (effect.next idx).started started
  obtain unborn | ⟨producer, stored, filling⟩ | now := effect.layout.unconsumed idx ahead
  · rw [unborn] at started'
    cases started'
  · rw [filling] at started'
    cases started'
  · exact now

theorem ConsumerAt.stable {cpu : Cpu} {pc : ConsumerPc} (other : party ≠ .consumer cpu)
    (place : ConsumerAt shared status cpu pc) : ConsumerAt shared' status' cpu pc := by
  have prod_le := effect.prod_le
  have cons_le := effect.cons_le
  have aborted : ∀ {idx : Nat}, status idx = .aborted (some cpu) →
      status' idx = .aborted (some cpu) := by
    intro idx was
    have moved := effect.next idx
    rw [was] at moved
    exact moved.of_aborted other
  have claimed : ∀ {idx : Nat}, status idx = .claimed cpu → status' idx = .claimed cpu := by
    intro idx was
    have moved := effect.next idx
    rw [was] at moved
    exact moved.of_claimed other
  cases pc with
  | idle => trivial
  | loadCons _ => trivial
  | loadProd _ consIdx => exact Nat.le_trans place cons_le
  | loadState _ consIdx =>
      obtain ⟨behind, born⟩ := place
      refine ⟨Nat.le_trans behind cons_le, ?_⟩
      intro same
      have bornThen := born (by omega)
      omega
  | casCons _ consIdx =>
      obtain ⟨behind, waiting⟩ := place
      refine ⟨Nat.le_trans behind cons_le, ?_⟩
      intro same
      exact waiting_stable effect (waiting (by omega)) same.le
  | casState _ consIdx =>
      have moved := effect.next consIdx
      obtain was | was := place
      · rw [was] at moved
        exact moved.of_taken other
      · exact .inr (aborted was)
  | loadAborted _ consIdx => exact aborted place
  | storeReaped _ consIdx => exact aborted place
  | storeCpu _ consIdx => exact claimed place
  | loadGtid _ consIdx => exact claimed place
  | loadTaskBarrier _ consIdx gtid =>
      obtain ⟨was, task, found, same⟩ := place
      exact ⟨claimed was, task, effect.txns consIdx task found, same⟩
  | run _ consIdx gtid taskBarrier =>
      obtain ⟨was, task, found, same⟩ := place
      exact ⟨claimed was, task, effect.txns consIdx task found, same⟩
  | storeResult _ consIdx result =>
      have moved := effect.next consIdx
      rw [show status consIdx = .ran cpu result from place] at moved
      exact moved.of_ran other

theorem finished_stable {idx : Nat} {result : RunResult} (other : party ≠ .agent)
    (was : status idx = .finished result) : status' idx = .finished result := by
  have moved := effect.next idx
  rw [was] at moved
  exact moved.of_finished other

end Stable

theorem AgentAt.mono {pc : AgentPc}
    (tracking : ∀ idx, shared.tracking idx = .tracked → shared'.tracking idx = .tracked)
    (finished : ∀ {idx result}, status idx = .finished result → status' idx = .finished result)
    (place : AgentAt shared status pc) : AgentAt shared' status' pc := by
  have failed : ∀ {idx : Nat}, Failed shared status idx → Failed shared' status' idx := by
    intro idx before
    obtain ⟨tracked, result, error, was⟩ := before
    exact ⟨tracking idx tracked, result, error, finished was⟩
  cases pc with
  | idle => trivial
  | unscheduleLoad idx => exact tracking idx place
  | unscheduleCas idx => exact tracking idx place
  | unscheduleSpin idx => exact tracking idx place
  | unscheduleReap idx => exact failed place
  | errorsLoad idx => exact tracking idx place
  | errorsTaskPtr idx => exact failed place
  | errorsReap idx => exact failed place
  | reap idx => exact ⟨tracking idx place.1, finished place.2⟩

end Effects

/-! ## Steps of the producers -/

section ProducerSteps

variable {Producer : Type} {producer : Producer} {shared shared' : Shared}
  {status : Nat → Status Producer}

private theorem Fills.store {task : Task} {idx stored stored' : Nat}
    (layout : Layout shared status) (logs : Logs shared status)
    (fills : Fills shared status producer task idx stored) (slot : Slot)
    (moved : Status.Next (.producer producer) (.filling producer stored)
      (.filling producer stored'))
    (word : slot.txnState = (shared.slot idx).txnState)
    (gtid : 1 ≤ stored' → slot.gtid = task.gtid)
    (taskBarrier : 2 ≤ stored' → slot.taskBarrier = task.taskBarrier) :
    ∃ status', Effect (.producer producer) shared status (shared.setSlot idx slot) status' ∧
      Fills (shared.setSlot idx slot) status' producer task idx stored' := by
  obtain ⟨was, found⟩ := fills
  obtain ⟨lower, upper⟩ := layout.current_of_filling was
  have shown := layout.word idx lower upper
  have unique : ∀ other, shared.txns[idx]? = some other → other = task := by
    intro other found'
    rw [found] at found'
    exact (Option.some.inj found').symm
  refine ⟨Function.update status idx (.filling producer stored'), ?_, Function.update_self ..,
    found⟩
  refine Effect.move rfl rfl rfl was moved ?_ ?_
  · refine layout.fill was rfl rfl rfl rfl ?_ ?_ ?_ ?_
    · rw [word, shown, was]
      rfl
    · intro other found' some
      rw [unique other found']
      exact gtid some
    · intro other found' both
      rw [unique other found']
      exact taskBarrier both
    · exact .inl ⟨producer, stored', rfl⟩
  · exact (logs.quiet was moved (fun _ => id) rfl).setSlot idx slot

/-- The release store that hands the slot to the consumers. -/
theorem Fills.publish {task : Task} {idx : Nat} (layout : Layout shared status)
    (logs : Logs shared status) (fills : Fills shared status producer task idx 2) :
    Effect (.producer producer) shared status
      { shared.setTxnState idx State.ready with published := idx :: shared.published }
      (Function.update status idx (.ready none)) := by
  obtain ⟨was, found⟩ := fills
  have moved : Status.Next (.producer producer) (.filling producer 2) (.ready none) :=
    .publish producer 2
  have stored : (status idx).stored = 2 := by rw [was]; rfl
  refine Effect.move rfl rfl rfl was moved ?_ ?_
  · refine layout.fill was rfl rfl rfl rfl rfl ?_ ?_ ?_
    · intro task found' _
      exact layout.gtid idx task found' (by omega)
    · intro task found' _
      exact layout.taskBarrier idx task found' (by omega)
    · exact .inr (.inl rfl)
  · apply ((logs.quiet was moved (fun _ => id) rfl).setSlot idx _).publish
    rw [Function.update_self]
    rfl

theorem ProducerAt.access {inBpf : Bool} {pc pc' : ProducerPc} (layout : Layout shared status)
    (logs : Logs shared status) (place : ProducerAt shared status producer pc)
    (moved : producerAccess inBpf shared pc = some (shared', pc')) :
    ∃ status', Effect (.producer producer) shared status shared' status' ∧
      SameRecords shared shared' ∧ ProducerAt shared' status' producer pc' := by
  cases pc with
  | idle => cases moved
  | loadProd i task =>
      cases moved
      refine ⟨status, .refl layout logs, ⟨rfl, rfl, rfl⟩, ?_⟩
      split
      · trivial
      · exact Nat.le_refl _
  | loadCons i task prodIdx =>
      cases moved
      refine ⟨status, .refl layout logs, ⟨rfl, rfl, rfl⟩, ?_⟩
      split
      case isTrue => trivial
      case isFalse room =>
        refine ⟨place, ?_⟩
        intro same
        have bound := layout.prod_le
        simp only [ringFull, nrSlots] at room
        omega
  | loadState i task prodIdx =>
      obtain ⟨behind, room⟩ := place
      cases moved
      refine ⟨status, .refl layout logs, ⟨rfl, rfl, rfl⟩, ?_⟩
      split
      case isTrue => trivial
      case isFalse free =>
        refine ⟨behind, ?_⟩
        intro same
        refine ⟨room same, ?_⟩
        subst same
        exact layout.reaped_of_free (room rfl) (not_not.mp free)
  | casProd i task prodIdx =>
      obtain ⟨_, room⟩ := place
      simp only [producerAccess] at moved
      split at moved
      case isTrue same =>
        cases moved
        subst same
        obtain ⟨roomThen, free⟩ := room rfl
        have unborn : status shared.prodIdx = .unborn :=
          (layout.unborn shared.prodIdx).mpr (Nat.le_refl _)
        have next : Status.Next (.producer producer) .unborn (.filling producer 0) :=
          .produce producer
        refine ⟨Function.update status shared.prodIdx (.filling producer 0), ?_, ⟨rfl, rfl, rfl⟩,
          Function.update_self .., ?_⟩
        · constructor
          · exact Nat.le_succ _
          · exact Nat.le_refl _
          · intro idx found lookup
            have bound := (List.getElem?_eq_some_iff.mp lookup).1
            exact (List.getElem?_append_left bound).trans lookup
          · exact next.update unborn
          · exact layout.produce roomThen free
          · exact (logs.quiet unborn next (fun _ => id) rfl).setIndexes _ _ [task]
        · change (shared.txns ++ [task])[shared.prodIdx]? = some task
          rw [← layout.length, List.getElem?_concat_length]
      case isFalse =>
        cases moved
        exact ⟨status, .refl layout logs, ⟨rfl, rfl, rfl⟩, trivial⟩
  | storeGtid task prodIdx =>
      cases moved
      obtain ⟨status', effect, fills⟩ := Fills.store layout logs place
        { shared.slot prodIdx with gtid := task.gtid } (.fill producer 0) rfl (fun _ => rfl) (by omega)
      exact ⟨status', effect, ⟨rfl, rfl, rfl⟩, fills⟩
  | storeTaskBarrier task prodIdx =>
      cases moved
      have stored : (status prodIdx).stored = 1 := by rw [place.1]; rfl
      obtain ⟨status', effect, fills⟩ := Fills.store layout logs place
        { shared.slot prodIdx with taskBarrier := task.taskBarrier } (.fill producer 1) rfl
        (fun _ => layout.gtid prodIdx task place.2 stored.ge) (fun _ => rfl)
      exact ⟨status', effect, ⟨rfl, rfl, rfl⟩, fills⟩
  | storeTaskPtr task prodIdx =>
      cases moved
      have stored : (status prodIdx).stored = 2 := by rw [place.1]; rfl
      obtain ⟨status', effect, fills⟩ := Fills.store layout logs place
        { shared.slot prodIdx with taskPtr := task.taskPtr } (.stay _) rfl
        (fun _ => layout.gtid prodIdx task place.2 (by omega))
        (fun _ => layout.taskBarrier prodIdx task place.2 stored.ge)
      exact ⟨status', effect, ⟨rfl, rfl, rfl⟩, fills⟩
  | storeReady task prodIdx =>
      cases moved
      exact ⟨_, Fills.publish layout logs place, ⟨rfl, rfl, rfl⟩, trivial⟩

end ProducerSteps

/-! ## Steps of the consumers -/

section ConsumerSteps

variable {Producer : Type} {cpu : Cpu} {shared shared' : Shared} {status : Nat → Status Producer}
  {idx : Nat}

private theorem consume_effect (layout : Layout shared status) (logs : Logs shared status)
    (waiting : (status shared.consIdx).Waiting) :
    ∃ status', Effect (.consumer cpu) shared status
        { shared with consIdx := shared.consIdx + 1 } status' ∧
      (status' shared.consIdx = .ready (some cpu) ∨
        status' shared.consIdx = .aborted (some cpu)) := by
  have filled : (status shared.consIdx).filled = true := by
    obtain was | was := waiting <;> rw [was] <;> rfl
  have born := (layout.current_of_filled filled).1
  have same : shared.txns = shared.txns ++ [] := (List.append_nil _).symm
  obtain ⟨new, moved, word, taken, logs', now⟩ : ∃ new,
      (∀ other, Status.Next (.consumer cpu) (status other)
        (Function.update status shared.consIdx new other)) ∧
      new.word = (status shared.consIdx).word ∧ new.filled = true ∧
      Logs shared (Function.update status shared.consIdx new) ∧
      (new = .ready (some cpu) ∨ new = .aborted (some cpu)) := by
    obtain was | was := waiting
    · refine ⟨.ready (some cpu), (Status.Next.take cpu).update was, ?_, rfl,
        logs.quiet was (.take cpu) (fun _ => id) rfl, .inl rfl⟩
      rw [was]
      rfl
    · refine ⟨.aborted (some cpu), (Status.Next.takeAborted cpu).update was, ?_, rfl,
        logs.move was (.takeAborted cpu) (fun _ => False.elim) nofun ?_, .inr rfl⟩
      · rw [was]
        rfl
      · intro kept
        have unreturned := logs.held _ kept
        rw [was] at unreturned
        cases unreturned
  refine ⟨Function.update status shared.consIdx new, ?_, ?_⟩
  · constructor
    · exact Nat.le_refl _
    · exact Nat.le_succ _
    · intro other task found
      exact found
    · exact moved
    · exact layout.consume born word filled taken
    · have grown := logs'.setIndexes shared.prodIdx (shared.consIdx + 1) []
      rwa [← same] at grown
  · rw [Function.update_self]
    exact now

private theorem claim_effect (layout : Layout shared status) (logs : Logs shared status)
    (was : status idx = .ready (some cpu)) :
    Effect (.consumer cpu) shared status
      { shared.setTxnState idx cpu.val with claims := (idx, cpu) :: shared.claims }
      (Function.update status idx (.claimed cpu)) := by
  have first := logs.notMem_claims was
  refine Effect.move rfl rfl rfl was (.claim cpu) ?_ ?_
  · refine layout.move was rfl rfl rfl rfl rfl rfl rfl rfl (.inl rfl) ?_
    simp [Status.Waiting]
  · apply ((logs.quiet was (.claim cpu) (fun _ => id) rfl).setSlot idx _).claim first
    rw [Function.update_self]
    rfl

private theorem reapAborted_effect (layout : Layout shared status) (logs : Logs shared status)
    (was : status idx = .aborted (some cpu)) :
    Effect (.consumer cpu) shared status (shared.reapSlot idx)
      (Function.update status idx .reaped) := by
  refine Effect.move rfl rfl rfl was (.reapAborted cpu) ?_ ?_
  · refine layout.move was rfl rfl rfl rfl rfl rfl rfl rfl (.inr rfl) ?_
    simp [Status.Waiting]
  · apply logs.reapSlot.move was (.reapAborted cpu)
    · intro result
      exact False.elim
    · intro _
      exact List.mem_cons_self
    · intro kept
      have back := logs.held idx kept
      rw [was] at back
      cases back

/-- A store that no one reads. -/
theorem touch_effect {party : Party Producer} {slot : Slot} (layout : Layout shared status)
    (logs : Logs shared status) (filled : (status idx).filled = true)
    (word : slot.txnState = (shared.slot idx).txnState)
    (gtid : slot.gtid = (shared.slot idx).gtid)
    (taskBarrier : slot.taskBarrier = (shared.slot idx).taskBarrier) :
    Effect party shared status (shared.setSlot idx slot) status := by
  have layout' : Layout (shared.setSlot idx slot) (Function.update status idx (status idx)) := by
    refine layout.move rfl filled rfl rfl rfl rfl ?_ gtid taskBarrier (.inl filled) id
    rw [word]
    exact layout.word_of_filled filled
  rw [Function.update_eq_self] at layout'
  constructor
  · exact Nat.le_refl _
  · exact Nat.le_refl _
  · intro other task found
    exact found
  · intro other
    exact .stay _
  · exact layout'
  · exact logs.setSlot idx slot

private theorem run_effect {result : RunResult} {task : Task} (layout : Layout shared status)
    (logs : Logs shared status) (was : status idx = .claimed cpu)
    (found : shared.txns[idx]? = some task) :
    Effect (.consumer cpu) shared status
      { shared with runs := ⟨idx, cpu, task.gtid, task.taskBarrier, result⟩ :: shared.runs }
      (Function.update status idx (.ran cpu result)) := by
  have filled : (status idx).filled = true := by rw [was]; rfl
  have shown := layout.word_of_filled filled
  refine Effect.move rfl rfl rfl was (.run cpu result) ?_ (logs.run was found)
  refine layout.move was rfl (Function.update_eq_self _ _).symm rfl rfl rfl ?_ rfl rfl
    (.inl rfl) ?_
  · rw [was] at shown
    exact shown
  · simp [Status.Waiting]

private theorem finish_effect {result : RunResult} (layout : Layout shared status)
    (logs : Logs shared status) (was : status idx = .ran cpu result) :
    Effect (.consumer cpu) shared status (shared.setTxnState idx result.txnState)
      (Function.update status idx (.finished result)) := by
  refine Effect.move rfl rfl rfl was (.finish cpu result) ?_ (Logs.setSlot ?_ idx _)
  · refine layout.move was rfl rfl rfl rfl rfl rfl rfl rfl (.inl rfl) ?_
    simp [Status.Waiting]
  · apply logs.move was (.finish cpu result)
    · intro returned has
      apply logs.result
      rw [was]
      exact has
    · intro now
      cases now
    · intro _
      rfl

theorem ConsumerAt.access {pc pc' : ConsumerPc} {result : RunResult}
    (layout : Layout shared status) (logs : Logs shared status)
    (place : ConsumerAt shared status cpu pc)
    (moved : consumerAccess cpu result shared pc = some (shared', pc')) :
    ∃ status', Effect (.consumer cpu) shared status shared' status' ∧
      SameRecords shared shared' ∧ ConsumerAt shared' status' cpu pc' := by
  have known : ∀ {idx : Nat}, status idx = .claimed cpu → ∃ task,
      shared.txns[idx]? = some task ∧ (shared.slot idx).gtid = task.gtid ∧
      (shared.slot idx).taskBarrier = task.taskBarrier := by
    intro idx was
    have stored : (status idx).stored = 2 := by rw [was]; rfl
    have bound : idx < shared.prodIdx := (layout.current_of_filled (by rw [was]; rfl)).1
    rw [← layout.length] at bound
    refine ⟨_, List.getElem?_eq_getElem bound, ?_, ?_⟩
    · exact layout.gtid idx _ (List.getElem?_eq_getElem bound) (by omega)
    · exact layout.taskBarrier idx _ (List.getElem?_eq_getElem bound) (by omega)
  cases pc with
  | idle => cases moved
  | loadCons i =>
      cases moved
      refine ⟨status, .refl layout logs, ⟨rfl, rfl, rfl⟩, ?_⟩
      split
      · trivial
      · exact Nat.le_refl _
  | loadProd i consIdx =>
      cases moved
      refine ⟨status, .refl layout logs, ⟨rfl, rfl, rfl⟩, ?_⟩
      split
      case isTrue => trivial
      case isFalse apart =>
        refine ⟨place, ?_⟩
        intro same
        have bound := layout.cons_le
        omega
  | loadState i consIdx =>
      obtain ⟨behind, born⟩ := place
      cases moved
      refine ⟨status, .refl layout logs, ⟨rfl, rfl, rfl⟩, ?_⟩
      split
      case isFalse => trivial
      case isTrue loaded =>
        refine ⟨behind, ?_⟩
        intro same
        subst same
        have bound := layout.prod_le
        rw [layout.word _ (born rfl) bound, Status.word_eq_ready, Status.word_eq_aborted] at loaded
        apply layout.waiting_of_filled _ (Nat.le_refl _)
        obtain ⟨taker, was⟩ | ⟨taker, was⟩ := loaded
        · rw [was]
          rfl
        · rw [was]
          rfl
  | casCons i consIdx =>
      obtain ⟨_, waiting⟩ := place
      simp only [consumerAccess] at moved
      split at moved
      case isTrue same =>
        cases moved
        subst same
        obtain ⟨status', effect, taken⟩ := consume_effect layout logs (waiting rfl)
        exact ⟨status', effect, ⟨rfl, rfl, rfl⟩, taken⟩
      case isFalse =>
        cases moved
        exact ⟨status, .refl layout logs, ⟨rfl, rfl, rfl⟩, trivial⟩
  | casState i consIdx =>
      have filled : (status consIdx).filled = true := by
        obtain was | was := place <;> rw [was] <;> rfl
      have shown := layout.word_of_filled filled
      simp only [consumerAccess] at moved
      obtain was | was := place
      · rw [was] at shown
        rw [if_pos (by exact shown)] at moved
        cases moved
        exact ⟨_, claim_effect layout logs was, ⟨rfl, rfl, rfl⟩, Function.update_self ..⟩
      · rw [was] at shown
        rw [if_neg (by simp only [shown, Status.word]; decide)] at moved
        cases moved
        exact ⟨status, .refl layout logs, ⟨rfl, rfl, rfl⟩, was⟩
  | loadAborted i consIdx =>
      cases moved
      exact ⟨status, .refl layout logs, ⟨rfl, rfl, rfl⟩, place⟩
  | storeReaped i consIdx =>
      cases moved
      exact ⟨_, reapAborted_effect layout logs place, ⟨rfl, rfl, rfl⟩, trivial⟩
  | storeCpu i consIdx =>
      cases moved
      have filled : (status consIdx).filled = true := by
        rw [show status consIdx = .claimed cpu from place]
        rfl
      exact ⟨status, touch_effect layout logs filled rfl rfl rfl, ⟨rfl, rfl, rfl⟩, place⟩
  | loadGtid i consIdx =>
      cases moved
      obtain ⟨task, found, gtid, _⟩ := known place
      exact ⟨status, .refl layout logs, ⟨rfl, rfl, rfl⟩, place, task, found, gtid⟩
  | loadTaskBarrier i consIdx gtid =>
      obtain ⟨was, task, found, same⟩ := place
      cases moved
      obtain ⟨task', found', _, taskBarrier⟩ := known was
      rw [found] at found'
      cases found'
      exact ⟨status, .refl layout logs, ⟨rfl, rfl, rfl⟩, was, task, found, same, taskBarrier⟩
  | run i consIdx gtid taskBarrier =>
      obtain ⟨was, task, found, rfl, rfl⟩ := place
      cases moved
      exact ⟨_, run_effect layout logs was found, ⟨rfl, rfl, rfl⟩, Function.update_self ..⟩
  | storeResult i consIdx returned =>
      cases moved
      refine ⟨_, finish_effect layout logs place, ⟨rfl, rfl, rfl⟩, ?_⟩
      split
      · trivial
      · trivial

end ConsumerSteps

/-! ## Steps of the agent -/

section AgentSteps

variable {Producer : Type} {shared shared' : Shared} {status : Nat → Status Producer} {idx : Nat}

private theorem abort_effect {taker : Option Cpu} (layout : Layout shared status)
    (logs : Logs shared status) (tracked : shared.tracking idx = .tracked)
    (was : status idx = .ready taker) :
    Effect .agent shared status
      { (shared.setTxnState idx State.aborted).track idx .dropped with
        unscheduled := (idx, true) :: shared.unscheduled }
      (Function.update status idx (.aborted taker)) := by
  have first := logs.notMem_reports tracked
  have never := logs.not_latched_of_ready was
  have dropped : (shared.track idx .dropped).tracking idx = .dropped := Function.update_self ..
  refine Effect.move rfl rfl rfl was (.abort taker) ?_ ?_
  · refine layout.move was rfl rfl rfl rfl rfl rfl rfl rfl (.inl rfl) ?_
    intro waiting
    simp only [Status.Waiting, Status.ready.injEq, reduceCtorEq, or_false] at waiting
    rw [waiting]
    exact .inr rfl
  · have logs' : Logs (shared.track idx .dropped) (Function.update status idx (.aborted taker)) := by
      apply logs.drop.move was (.abort taker)
      · intro result
        exact False.elim
      · intro now
        cases now
      · intro kept
        exact absurd dropped kept
    have back : (Function.update status idx (Status.aborted taker) idx).back = true := by
      rw [Function.update_self]
      rfl
    exact (logs'.unscheduled dropped back never first).setSlot idx _

private theorem reap_effect {result : RunResult} (layout : Layout shared status)
    (logs : Logs shared status) (was : status idx = .finished result) :
    Effect .agent shared status ((shared.reapSlot idx).track idx .dropped)
      (Function.update status idx .reaped) := by
  refine Effect.move rfl rfl rfl was (.reap result) ?_ ?_
  · refine layout.move was rfl rfl rfl rfl rfl rfl rfl rfl (.inr rfl) ?_
    simp [Status.Waiting]
  · apply logs.reapSlot.drop.move was (.reap result)
    · intro result
      exact False.elim
    · intro _
      exact List.mem_cons_self
    · intro kept
      exact absurd (Function.update_self ..) kept

private theorem Failed.reap (layout : Layout shared status) (logs : Logs shared status)
    (failed : Failed shared status idx) :
    Effect .agent shared status ((shared.reapSlot idx).track idx .dropped)
        (Function.update status idx .reaped) ∧
      ((shared.reapSlot idx).track idx .dropped).tracking idx = .dropped ∧
      (Function.update status idx .reaped idx).back = true ∧
      ¬ ((shared.reapSlot idx).track idx .dropped).Latched idx ∧
      idx ∉ ((shared.reapSlot idx).track idx .dropped).reports := by
  obtain ⟨tracked, result, error, was⟩ := failed
  refine ⟨reap_effect layout logs was, Function.update_self .., ?_,
    logs.not_latched_of_finished was error, logs.notMem_reports tracked⟩
  rw [Function.update_self]
  rfl

private theorem failed_of_word (layout : Layout shared status) (logs : Logs shared status)
    (tracked : shared.tracking idx = .tracked) (negative : ¬ 0 ≤ (shared.slot idx).txnState)
    (incomplete : (shared.slot idx).txnState ≠ State.complete) : Failed shared status idx := by
  have filled := logs.filled_of_tracked tracked
  have shown := layout.word_of_filled filled
  rw [shown, Int.not_le, Status.word_neg] at negative
  rw [shown, ne_eq, Status.word_eq_complete] at incomplete
  refine ⟨tracked, ?_⟩
  obtain ⟨taker, was⟩ | ⟨result, was⟩ := negative
  · have kept := logs.held idx (by rw [tracked]; exact nofun)
    rw [was] at kept
    cases kept
  · refine ⟨result, ?_, was⟩
    intro succeeded
    rw [succeeded] at was
    exact incomplete was

theorem AgentAt.access {pc pc' : AgentPc} (layout : Layout shared status)
    (logs : Logs shared status) (place : AgentAt shared status pc)
    (moved : agentAccess shared pc = some (shared', pc')) :
    ∃ status', Effect .agent shared status shared' status' ∧ Told shared shared' ∧
      AgentAt shared' status' pc' := by
  cases pc with
  | idle => cases moved
  | unscheduleLoad idx =>
      cases moved
      refine ⟨status, .refl layout logs, .refl shared, ?_⟩
      split
      · exact place
      · exact place
  | unscheduleCas idx =>
      simp only [agentAccess] at moved
      split at moved
      case isTrue ready =>
        cases moved
        rw [layout.word_of_filled (logs.filled_of_tracked place), Status.word_eq_ready] at ready
        obtain ⟨taker, was⟩ := ready
        exact ⟨_, abort_effect layout logs place was,
          ⟨fun _ => List.mem_cons_of_mem _, fun _ => id⟩, trivial⟩
      case isFalse =>
        cases moved
        exact ⟨status, .refl layout logs, .refl shared, place⟩
  | unscheduleSpin idx =>
      simp only [agentAccess] at moved
      split at moved
      case isTrue =>
        cases moved
        exact ⟨status, .refl layout logs, .refl shared, place⟩
      case isFalse negative =>
        split at moved
        case isTrue complete =>
          cases moved
          rw [layout.word_of_filled (logs.filled_of_tracked place),
            Status.word_eq_complete] at complete
          have latched := logs.latched_of_finished complete
          exact ⟨status, (Effect.refl layout logs).report (logs.stillLatched latched),
            ⟨fun _ => List.mem_cons_of_mem _, fun _ => id⟩, trivial⟩
        case isFalse incomplete =>
          cases moved
          exact ⟨status, .refl layout logs, .refl shared, failed_of_word layout logs place negative incomplete⟩
  | unscheduleReap idx =>
      obtain ⟨effect, dropped, back, never, first⟩ := place.reap layout logs
      cases moved
      exact ⟨_, effect.report (effect.logs.unscheduled dropped back never first),
        ⟨fun _ => List.mem_cons_of_mem _, fun _ => id⟩, trivial⟩
  | errorsLoad idx =>
      cases moved
      refine ⟨status, .refl layout logs, .refl shared, ?_⟩
      split
      case isTrue => trivial
      case isFalse other =>
        simp only [not_or] at other
        exact failed_of_word layout logs place other.2.2.2.2 other.1
  | errorsTaskPtr idx =>
      cases moved
      refine ⟨status, .refl layout logs, .refl shared, ?_⟩
      split
      · exact place
      · trivial
  | errorsReap idx =>
      obtain ⟨effect, dropped, back, never, first⟩ := place.reap layout logs
      cases moved
      exact ⟨_, effect.report (effect.logs.errorsReaped dropped back never first),
        ⟨fun _ => id, fun _ => List.mem_cons_of_mem _⟩, trivial⟩
  | reap idx =>
      obtain ⟨tracked, was⟩ := place
      cases moved
      exact ⟨_, reap_effect layout logs was, ⟨fun _ => id, fun _ => id⟩, trivial⟩

end AgentSteps

end Ghost.Bpf.Pnt
