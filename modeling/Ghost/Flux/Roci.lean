import Ghost.Bpf.ArrListProperties
import Ghost.Flux.Holding

/-!
# Roci's CPUs

`roci_flux.bpf.c`: the locked sections of `roci_request_for_cpus`,
`__roci_cpu_returned` and `roci_pick_next_task`, and the callbacks around them.
-/

set_option autoImplicit false

namespace Ghost.Flux

open Lib Bpf

/-- The ids of roci's two children. -/
structure RociIds where
  primaryId : Nat
  idleId : Nat
  distinct : idleId ≠ primaryId
  /-- `FLUX_SCHED_NONE` is 0. -/
  primary_ne_none : primaryId ≠ 0
  idle_ne_none : idleId ≠ 0

inductive RociList where
  | primaryCpus
  | idleCpus
  deriving DecidableEq

/-- The lists, through `roci.link` of the CPUs, and `preempt_pending` of each CPU. -/
structure Roci (size : ArrSize) where
  lists : ArrLists size RociList
  preemptPending : size.Elem → Bool

namespace Roci

variable {size : ArrSize}

/-- One round of the loop of `roci_request_for_cpus`, with the victim to preempt. -/
def requestForCpus (roci : Roci size) : Option size.Elem × Roci size :=
  let victim := (roci.lists.popFirst .idleCpus).1
  (victim,
    { lists := (roci.lists.popFirst .idleCpus).2
      preemptPending := victim.elim roci.preemptPending fun victim =>
        Function.update roci.preemptPending victim true })

variable (ids : RociIds)

def childList (childId : Nat) : RociList :=
  if childId = ids.primaryId then .primaryCpus else .idleCpus

/-- `__roci_cpu_returned`. -/
def returned (roci : Roci size) (childId : Nat) (cpu : size.Elem) : Roci size :=
  if roci.preemptPending cpu then
    { roci with preemptPending := Function.update roci.preemptPending cpu false }
  else { roci with lists := roci.lists.remove (childList ids childId) cpu }

def cpuReturned (roci : Roci size) (childId : Nat) (cpu : size.Elem) : Roci size :=
  roci.returned ids childId cpu

/-- The request for CPUs that follows is a step of its own. -/
def cpuPreempted (roci : Roci size) (childId : Nat) (cpu : size.Elem) : Roci size :=
  if childId = 0 then roci else roci.returned ids childId cpu

def cpuPreemptionCompleted (roci : Roci size) (childId : Nat) (cpu : size.Elem) : Roci size :=
  if childId = 0 then roci else roci.returned ids childId cpu

/-- The callback for a CPU that comes back from a child. -/
def comesBack (roci : Roci size) (childId : Nat) (cpu : size.Elem) : Return → Roci size
  | .returned => roci.cpuReturned ids childId cpu
  | .preempted => roci.cpuPreempted ids childId cpu
  | .preemptionCompleted => roci.cpuPreemptionCompleted ids childId cpu

/-- `roci_pick_next_task`, with the child that is granted the CPU. Whether primary needs
CPUs is read from counters that any CPU may be changing. -/
def pickNextTask (roci : Roci size) (cpu : size.Elem) (needed : Bool) : Nat × Roci size :=
  let childId := if needed then ids.primaryId else ids.idleId
  let list := if needed then RociList.primaryCpus else .idleCpus
  (childId, { roci with lists := roci.lists.insertHead list cpu })

end Roci

/-! ## The CPUs -/

structure RociSystem (size : ArrSize) where
  roci : Roci size
  holding : size.Elem → Holding

inductive RociAction (size : ArrSize) where
  | move (cpu : size.Elem) (movement : Movement)
  /-- A round of `roci_request_for_cpus`, on any CPU. -/
  | request
  | pick (cpu : size.Elem) (needed : Bool)
  /-- The callback of a return. -/
  | account (cpu : size.Elem)

section Machine

variable {size : ArrSize} (ids : RociIds)

def RociSystem.perform (system : RociSystem size) :
    RociAction size → Option (RociSystem size)
  | .move cpu movement =>
      ((system.holding cpu).move movement).map fun holding =>
        { system with holding := Function.update system.holding cpu holding }
  | .request => some { system with roci := system.roci.requestForCpus.2 }
  | .pick cpu needed =>
      if system.holding cpu = .here then
        some { roci := (system.roci.pickNextTask ids cpu needed).2
               holding := Function.update system.holding cpu
                 (.granting (system.roci.pickNextTask ids cpu needed).1) }
      else none
  | .account cpu =>
      (system.holding cpu).returning?.map fun back =>
        { roci := system.roci.comesBack ids back.1 cpu back.2
          holding := Function.update system.holding cpu back.2.after }

def RociSystem.Initial (system : RociSystem size) : Prop :=
  (∀ list, system.roci.lists.heads list = ⟨0#32, 0#32⟩) ∧
    ∀ cpu, system.roci.preemptPending cpu = false ∧ system.holding cpu = .away

/-- All interleavings of the sections and of what flux does between them. -/
def rociCpus (ids : RociIds) : Machine (RociSystem size) (RociAction size) where
  initial := RociSystem.Initial
  step system action next := system.perform ids action = some next

end Machine

end Ghost.Flux
