import Ghost.Txn.RunRequest
import Mathlib.Logic.Function.Basic

/-!
# PNT rings

One ring of `pntring.bpf.h` with the functions of `pntring_funcs.bpf.h`, access by
access: any number of producers, in the agent and in BPF, any number of CPUs that latch
tasks, and the agent thread that unschedules and reaps. The indexes have 64 bits. They
are numbers here: fewer than `2 ^ 64` transactions are assumed.
-/

set_option autoImplicit false

namespace Ghost.Bpf.Pnt

open Lib Txn

/-! ## The ring -/

/-- `NR_PNT_RING_SLOTS`. -/
def nrSlots : Nat := 64

/-- `pnt_ring_get_slot`. -/
def slotOf (idx : Nat) : Fin 64 := Fin.ofNat 64 idx

/-- `prod_idx - cons_idx` is the number of slots. -/
def ringFull (prodIdx consIdx : Nat) : Prop := prodIdx = consIdx + nrSlots

instance (prodIdx consIdx : Nat) : Decidable (ringFull prodIdx consIdx) :=
  inferInstanceAs (Decidable (_ = _))

/-- `GHOST_TXN_REAPED`. -/
def reaped : Int := State.ready - 1

/-- The ids of CPUs, which claim a transaction as its state. -/
abbrev Cpu : Type := Fin (2 ^ 31 - 2)

/-- `struct pnt_ring_slot`. -/
structure Slot where
  txnState : Int
  gtid : Nat
  taskBarrier : Nat
  cpu : Nat
  /-- Whether `task_ptr` is set. -/
  taskPtr : Bool

/-- What a producer puts into a slot. -/
structure Task where
  gtid : Nat
  taskBarrier : Nat
  taskPtr : Bool
  deriving DecidableEq

/-- What `bpf_ghost_run_gtid` returns. -/
inductive RunResult where
  | ok
  | estale
  | ebusy
  | enoent
  | erange
  | enospc
  | otherError
  deriving DecidableEq

def RunResult.txnState : RunResult → Int
  | .ok => State.complete
  | .estale => State.targetStale
  | .ebusy => INT_MIN + 5
  | .enoent => State.targetNotFound
  | .erange => INT_MIN + 7
  | .enospc => State.cpuUnavail
  | .otherError => INT_MIN + 11

/-- One call of `bpf_ghost_run_gtid`, by the transaction that was claimed for it. -/
structure Run where
  idx : Nat
  cpu : Cpu
  gtid : Nat
  taskBarrier : Nat
  result : RunResult
  deriving DecidableEq

/-- What the agent knows of a transaction. -/
inductive Tracking where
  | unknown
  /-- Its slot is in the agent's hands and unreaped. -/
  | tracked
  | dropped
  deriving DecidableEq

/-- The ring, and what has happened to the transactions so far. A transaction is named by
the value of `prod_idx` that its producer took. -/
structure Shared where
  prodIdx : Nat
  consIdx : Nat
  slots : Fin 64 → Slot
  txns : List Task
  published : List Nat
  claims : List (Nat × Cpu)
  runs : List Run
  reapings : List Nat
  tracking : Nat → Tracking
  /-- The results of `pnt_unschedule_ring_slot`. -/
  unscheduled : List (Nat × Bool)
  /-- The errors that `pnt_ring_reap_errors` has returned. -/
  errorsReaped : List Nat

namespace Shared

def slot (shared : Shared) (idx : Nat) : Slot := shared.slots (slotOf idx)

def setSlot (shared : Shared) (idx : Nat) (slot : Slot) : Shared :=
  { shared with slots := Function.update shared.slots (slotOf idx) slot }

def setTxnState (shared : Shared) (idx : Nat) (state : Int) : Shared :=
  shared.setSlot idx { shared.slot idx with txnState := state }

/-- `pnt_ring_reap_slot`. -/
def reapSlot (shared : Shared) (idx : Nat) : Shared :=
  { shared.setTxnState idx reaped with reapings := idx :: shared.reapings }

def track (shared : Shared) (idx : Nat) (tracking : Tracking) : Shared :=
  { shared with tracking := Function.update shared.tracking idx tracking }

end Shared

/-! ## Producers -/

/-- `PNT_NR_RING_RETRY`. -/
def nrRingRetry : Nat := 5

/-- Where `pnt_push_task_to_ring` or `pnt_schedule_onto_ring` stands. -/
inductive ProducerPc where
  | idle
  | loadProd (i : Nat) (task : Task)
  | loadCons (i : Nat) (task : Task) (prodIdx : Nat)
  | loadState (i : Nat) (task : Task) (prodIdx : Nat)
  | casProd (i : Nat) (task : Task) (prodIdx : Nat)
  | storeGtid (task : Task) (prodIdx : Nat)
  | storeTaskBarrier (task : Task) (prodIdx : Nat)
  | storeTaskPtr (task : Task) (prodIdx : Nat)
  | storeReady (task : Task) (prodIdx : Nat)

/-- One access of a producer. In BPF the loop is bounded. -/
def producerAccess (inBpf : Bool) (shared : Shared) :
    ProducerPc → Option (Shared × ProducerPc)
  | .idle => none
  | .loadProd i task =>
      some (shared, if inBpf ∧ nrRingRetry ≤ i then .idle else .loadCons i task shared.prodIdx)
  | .loadCons i task prodIdx =>
      some (shared,
        if ringFull prodIdx shared.consIdx then .idle else .loadState i task prodIdx)
  | .loadState i task prodIdx =>
      some (shared,
        if (shared.slot prodIdx).txnState ≠ reaped then .idle else .casProd i task prodIdx)
  | .casProd i task prodIdx =>
      if shared.prodIdx = prodIdx then
        some ({ shared with prodIdx := prodIdx + 1, txns := shared.txns ++ [task] },
          .storeGtid task prodIdx)
      else some (shared, .loadProd (i + 1) task)
  | .storeGtid task prodIdx =>
      some (shared.setSlot prodIdx { shared.slot prodIdx with gtid := task.gtid },
        .storeTaskBarrier task prodIdx)
  | .storeTaskBarrier task prodIdx =>
      some (shared.setSlot prodIdx { shared.slot prodIdx with taskBarrier := task.taskBarrier },
        .storeTaskPtr task prodIdx)
  | .storeTaskPtr task prodIdx =>
      some (shared.setSlot prodIdx { shared.slot prodIdx with taskPtr := task.taskPtr },
        .storeReady task prodIdx)
  | .storeReady _ prodIdx =>
      some ({ shared.setTxnState prodIdx State.ready with
        published := prodIdx :: shared.published }, .idle)

/-! ## Consumers -/

/-- Where `pnt_latch_task_from_ring` stands, in its `i`-th round. -/
inductive ConsumerPc where
  | idle
  | loadCons (i : Nat)
  | loadProd (i consIdx : Nat)
  | loadState (i consIdx : Nat)
  | casCons (i consIdx : Nat)
  | casState (i consIdx : Nat)
  | loadAborted (i consIdx : Nat)
  | storeReaped (i consIdx : Nat)
  | storeCpu (i consIdx : Nat)
  | loadGtid (i consIdx : Nat)
  | loadTaskBarrier (i consIdx gtid : Nat)
  | run (i consIdx gtid taskBarrier : Nat)
  | storeResult (i consIdx : Nat) (result : RunResult)

/-- One access of a consumer. The state is loaded again only to print one that is
neither ready nor aborted. -/
def consumerAccess (cpu : Cpu) (result : RunResult) (shared : Shared) :
    ConsumerPc → Option (Shared × ConsumerPc)
  | .idle => none
  | .loadCons i =>
      some (shared, if nrRingRetry ≤ i then .idle else .loadProd i shared.consIdx)
  | .loadProd i consIdx =>
      some (shared, if shared.prodIdx = consIdx then .idle else .loadState i consIdx)
  | .loadState i consIdx =>
      some (shared,
        if (shared.slot consIdx).txnState = State.ready ∨
            (shared.slot consIdx).txnState = State.aborted then .casCons i consIdx
        else .idle)
  | .casCons i consIdx =>
      if shared.consIdx = consIdx then
        some ({ shared with consIdx := consIdx + 1 }, .casState i consIdx)
      else some (shared, .loadCons (i + 1))
  | .casState i consIdx =>
      if (shared.slot consIdx).txnState = State.ready then
        some ({ shared.setTxnState consIdx cpu.val with
          claims := (consIdx, cpu) :: shared.claims }, .storeCpu i consIdx)
      else some (shared, .loadAborted i consIdx)
  | .loadAborted i consIdx => some (shared, .storeReaped i consIdx)
  | .storeReaped i consIdx => some (shared.reapSlot consIdx, .loadCons (i + 1))
  | .storeCpu i consIdx =>
      some (shared.setSlot consIdx { shared.slot consIdx with cpu := cpu.val },
        .loadGtid i consIdx)
  | .loadGtid i consIdx => some (shared, .loadTaskBarrier i consIdx (shared.slot consIdx).gtid)
  | .loadTaskBarrier i consIdx gtid =>
      some (shared, .run i consIdx gtid (shared.slot consIdx).taskBarrier)
  | .run i consIdx gtid taskBarrier =>
      some ({ shared with runs := ⟨consIdx, cpu, gtid, taskBarrier, result⟩ :: shared.runs },
        .storeResult i consIdx result)
  | .storeResult i consIdx result =>
      some (shared.setTxnState consIdx result.txnState,
        if result = .ok then .idle else .loadCons (i + 1))

/-! ## The agent -/

inductive AgentPc where
  | idle
  /-- `pnt_unschedule_ring_slot`. -/
  | unscheduleLoad (idx : Nat)
  | unscheduleCas (idx : Nat)
  | unscheduleSpin (idx : Nat)
  | unscheduleReap (idx : Nat)
  /-- `pnt_ring_reap_errors`. -/
  | errorsLoad (idx : Nat)
  | errorsTaskPtr (idx : Nat)
  | errorsReap (idx : Nat)
  /-- `pnt_ring_reap_slot`. -/
  | reap (idx : Nat)

/-- One access of the agent to the slot of a transaction that it tracks. -/
def agentAccess (shared : Shared) : AgentPc → Option (Shared × AgentPc)
  | .idle => none
  | .unscheduleLoad idx =>
      some (shared, if (shared.slot idx).txnState = State.ready then .unscheduleCas idx
        else .unscheduleSpin idx)
  | .unscheduleCas idx =>
      if (shared.slot idx).txnState = State.ready then
        some ({ (shared.setTxnState idx State.aborted).track idx .dropped with
          unscheduled := (idx, true) :: shared.unscheduled }, .idle)
      else some (shared, .unscheduleSpin idx)
  | .unscheduleSpin idx =>
      if 0 ≤ (shared.slot idx).txnState then some (shared, .unscheduleSpin idx)
      else if (shared.slot idx).txnState = State.complete then
        some ({ shared with unscheduled := (idx, false) :: shared.unscheduled }, .idle)
      else some (shared, .unscheduleReap idx)
  | .unscheduleReap idx =>
      some ({ (shared.reapSlot idx).track idx .dropped with
        unscheduled := (idx, true) :: shared.unscheduled }, .idle)
  | .errorsLoad idx =>
      some (shared,
        if (shared.slot idx).txnState = State.complete ∨
            (shared.slot idx).txnState = State.aborted ∨ (shared.slot idx).txnState = reaped ∨
            (shared.slot idx).txnState = State.ready ∨ 0 ≤ (shared.slot idx).txnState then .idle
        else .errorsTaskPtr idx)
  | .errorsTaskPtr idx =>
      some (shared, if (shared.slot idx).taskPtr then .errorsReap idx else .idle)
  | .errorsReap idx =>
      some ({ (shared.reapSlot idx).track idx .dropped with
        errorsReaped := idx :: shared.errorsReaped }, .idle)
  | .reap idx => some ((shared.reapSlot idx).track idx .dropped, .idle)

/-! ## The system -/

structure System (Producer : Type) where
  shared : Shared
  producers : Producer → ProducerPc
  consumers : Cpu → ConsumerPc
  agent : AgentPc

inductive Action (Producer : Type) where
  | schedule (producer : Producer) (task : Task)
  | producer (producer : Producer)
  | latch (cpu : Cpu)
  | consumer (cpu : Cpu) (result : RunResult)
  /-- The agent learns of a transaction. -/
  | track (idx : Nat)
  /-- The agent sets `task_ptr` of a slot that it tracks. -/
  | setTaskPtr (idx : Nat)
  | unschedule (idx : Nat)
  | reapErrors (idx : Nat)
  | reapSlot (idx : Nat)
  | agent

section Machine

variable {Producer : Type} [DecidableEq Producer]

/-- The agent calls one of its functions, on a slot that it tracks. -/
def System.call (system : System Producer) (idx : Nat) (pc : AgentPc) :
    Option (System Producer) :=
  match system.agent with
  | .idle => if system.shared.tracking idx = .tracked then some { system with agent := pc } else none
  | _ => none

def System.perform (inBpf : Producer → Bool) (system : System Producer) :
    Action Producer → Option (System Producer)
  | .schedule producer task =>
      match system.producers producer with
      | .idle =>
          some { system with
            producers := Function.update system.producers producer (.loadProd 0 task) }
      | _ => none
  | .producer producer =>
      (producerAccess (inBpf producer) system.shared (system.producers producer)).map
        fun outcome => { system with
          shared := outcome.1
          producers := Function.update system.producers producer outcome.2 }
  | .latch cpu =>
      match system.consumers cpu with
      | .idle =>
          some { system with consumers := Function.update system.consumers cpu (.loadCons 0) }
      | _ => none
  | .consumer cpu result =>
      (consumerAccess cpu result system.shared (system.consumers cpu)).map
        fun outcome => { system with
          shared := outcome.1
          consumers := Function.update system.consumers cpu outcome.2 }
  | .track idx =>
      if idx ∈ system.shared.published ∧ system.shared.tracking idx = .unknown then
        some { system with shared := system.shared.track idx .tracked }
      else none
  | .setTaskPtr idx =>
      if system.shared.tracking idx = .tracked then
        some { system with
          shared := system.shared.setSlot idx { system.shared.slot idx with taskPtr := true } }
      else none
  | .unschedule idx => system.call idx (.unscheduleLoad idx)
  | .reapErrors idx => system.call idx (.errorsLoad idx)
  | .reapSlot idx => system.call idx (.reap idx)
  | .agent =>
      (agentAccess system.shared system.agent).map
        fun outcome => { system with shared := outcome.1, agent := outcome.2 }

/-- All slots are reaped. -/
def System.Initial (system : System Producer) : Prop :=
  system.shared.prodIdx = 0 ∧ system.shared.consIdx = 0 ∧
    (∀ slot, (system.shared.slots slot).txnState = reaped) ∧ system.shared.txns = [] ∧
    system.shared.published = [] ∧ system.shared.claims = [] ∧ system.shared.runs = [] ∧
    system.shared.reapings = [] ∧ (∀ idx, system.shared.tracking idx = .unknown) ∧
    system.shared.unscheduled = [] ∧ system.shared.errorsReaped = [] ∧
    (∀ producer, system.producers producer = .idle) ∧
    (∀ cpu, system.consumers cpu = .idle) ∧ system.agent = .idle

/-- All interleavings. -/
def pntRings (inBpf : Producer → Bool) : Machine (System Producer) (Action Producer) where
  initial := System.Initial
  step system action next := system.perform inBpf action = some next

/-- `pnt_ring_reap_slot` is called for latched tasks only. -/
def latchedRings (inBpf : Producer → Bool) : Machine (System Producer) (Action Producer) :=
  (pntRings inBpf).restrict fun system action => ∀ idx, action = .reapSlot idx →
    (system.shared.slot idx).txnState = State.complete

end Machine

end Ghost.Bpf.Pnt
