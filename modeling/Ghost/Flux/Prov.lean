import Ghost.Bpf.ArrListProperties
import Ghost.Flux.Holding

/-!
# Prov's CPUs

`prov_flux.bpf.c`: the locked sections of the requests, of `__prov_cpu_returned` and of
`prov_pick_next_task`, and the callbacks around them. The debug statistics and the
limits on how often a child may poke are left out: a request may come at any time.
-/

set_option autoImplicit false

namespace Ghost.Flux

open Lib Bpf

/-- The ids of prov's three children. -/
structure ProvIds where
  prioId : Nat
  nextId : Nat
  lastId : Nat
  next_ne_prio : nextId ≠ prioId
  last_ne_prio : lastId ≠ prioId
  last_ne_next : lastId ≠ nextId
  /-- `FLUX_SCHED_NONE` is 0. -/
  prio_ne_none : prioId ≠ 0
  next_ne_none : nextId ≠ 0
  last_ne_none : lastId ≠ 0

inductive ProvList where
  | nextsCpus
  | lastsCpus
  deriving DecidableEq

/-- What userspace configures. -/
structure ProvConfig (size : ArrSize) where
  ids : ProvIds
  /-- `prov.priority` of each CPU, which does not change at runtime. -/
  priority : size.Elem → Bool

/-- The lists of the children through `prov.child_link`, `priority_cpus` through
`prov.prio_link`, and the fields of each CPU. -/
structure Prov (size : ArrSize) where
  childLists : ArrLists size ProvList
  priorityCpus : ArrLists size Unit
  owningChild : size.Elem → Nat
  preemptPending : size.Elem → Bool

namespace Prov

variable {size : ArrSize} (config : ProvConfig size)

/-- `__remove_from_child_list`. -/
def removeFromChildList (prov : Prov size) (cpu : size.Elem) (list : ProvList) : Prov size :=
  { prov with
    childLists := prov.childLists.remove list cpu
    priorityCpus :=
      if config.priority cpu then prov.priorityCpus.remove () cpu else prov.priorityCpus }

def setPreemptPending (prov : Prov size) (cpu : size.Elem) (pending : Bool) : Prov size :=
  { prov with preemptPending := Function.update prov.preemptPending cpu pending }

def setOwningChild (prov : Prov size) (cpu : size.Elem) (child : Nat) : Prov size :=
  { prov with owningChild := Function.update prov.owningChild cpu child }

/-- The victim that `__prio_request_for_cpus` chooses. -/
def prioVictim (prov : Prov size) : Option size.Elem :=
  (prov.priorityCpus.first ()).or
    ((prov.childLists.first .lastsCpus).or (prov.childLists.first .nextsCpus))

/-- One round of the loop of `__prio_request_for_cpus`. -/
def prioRequestForCpus (prov : Prov size) : Prov size :=
  prov.prioVictim.elim prov fun victim =>
    let list := if prov.owningChild victim = config.ids.nextId then ProvList.nextsCpus
      else .lastsCpus
    (prov.removeFromChildList config victim list).setPreemptPending victim true

/-- One round of the loop of `__next_request_for_cpus`. -/
def nextRequestForCpus (prov : Prov size) : Prov size :=
  (prov.childLists.first .lastsCpus).elim prov fun victim =>
    (prov.removeFromChildList config victim .lastsCpus).setPreemptPending victim true

/-- The list of a child, if it has one. -/
def childList (ids : ProvIds) (childId : Nat) : Option ProvList :=
  if childId = ids.nextId then some .nextsCpus
  else if childId = ids.lastId then some .lastsCpus
  else none

/-- `__prov_cpu_returned`. -/
def returned (prov : Prov size) (childId : Nat) (cpu : size.Elem) : Prov size :=
  let cleared := prov.setOwningChild cpu 0
  if prov.preemptPending cpu then cleared.setPreemptPending cpu false
  else (childList config.ids childId).elim cleared (cleared.removeFromChildList config cpu)

def cpuReturned (prov : Prov size) (childId : Nat) (cpu : size.Elem) : Prov size :=
  prov.returned config childId cpu

/-- The request for CPUs that follows is a step of its own. -/
def cpuPreempted (prov : Prov size) (childId : Nat) (cpu : size.Elem) : Prov size :=
  if childId = 0 then prov else prov.returned config childId cpu

def cpuPreemptionCompleted (prov : Prov size) (childId : Nat) (cpu : size.Elem) : Prov size :=
  if childId = 0 then prov else prov.returned config childId cpu

def comesBack (prov : Prov size) (childId : Nat) (cpu : size.Elem) : Return → Prov size
  | .returned => prov.cpuReturned config childId cpu
  | .preempted => prov.cpuPreempted config childId cpu
  | .preemptionCompleted => prov.cpuPreemptionCompleted config childId cpu

/-- What the children need, read from counters that any CPU may be changing. -/
structure Needs where
  prio : Bool
  next : Bool
  last : Bool

/-- `give_to_prio`. -/
def giveToPrio (prov : Prov size) (cpu : size.Elem) (needs : Needs) : Bool :=
  needs.prio && (config.priority cpu || prov.priorityCpus.empty ())

def grantNext (prov : Prov size) (cpu : size.Elem) : Prov size :=
  { prov with
    childLists := prov.childLists.insertHead .nextsCpus cpu
    priorityCpus :=
      if config.priority cpu then prov.priorityCpus.insertTail () cpu else prov.priorityCpus
    owningChild := Function.update prov.owningChild cpu config.ids.nextId }

def grantLast (prov : Prov size) (cpu : size.Elem) : Prov size :=
  { prov with
    childLists := prov.childLists.insertHead .lastsCpus cpu
    priorityCpus :=
      if config.priority cpu then prov.priorityCpus.insertHead () cpu else prov.priorityCpus
    owningChild := Function.update prov.owningChild cpu config.ids.lastId }

/-- `prov_pick_next_task`, with where the CPU goes: to the grantee, or up if nobody
needs it. -/
def pickNextTask (prov : Prov size) (cpu : size.Elem) (needs : Needs) : Holding × Prov size :=
  if prov.giveToPrio config cpu needs then
    (.granting config.ids.prioId, prov.setOwningChild cpu config.ids.prioId)
  else if needs.next then (.granting config.ids.nextId, prov.grantNext config cpu)
  else if needs.last then (.granting config.ids.lastId, prov.grantLast config cpu)
  else (.away, prov.setOwningChild cpu 0)

end Prov

/-! ## The CPUs -/

structure ProvSystem (size : ArrSize) where
  prov : Prov size
  holding : size.Elem → Holding

inductive ProvAction (size : ArrSize) where
  | move (cpu : size.Elem) (movement : Movement)
  | prioRequest
  | nextRequest
  | pick (cpu : size.Elem) (needs : Prov.Needs)
  /-- The callback of a return. -/
  | account (cpu : size.Elem)

section Machine

variable {size : ArrSize} (config : ProvConfig size)

def ProvSystem.perform (system : ProvSystem size) :
    ProvAction size → Option (ProvSystem size)
  | .move cpu movement =>
      ((system.holding cpu).move movement).map fun holding =>
        { system with holding := Function.update system.holding cpu holding }
  | .prioRequest => some { system with prov := system.prov.prioRequestForCpus config }
  | .nextRequest => some { system with prov := system.prov.nextRequestForCpus config }
  | .pick cpu needs =>
      if system.holding cpu = .here then
        some { prov := (system.prov.pickNextTask config cpu needs).2
               holding := Function.update system.holding cpu
                 (system.prov.pickNextTask config cpu needs).1 }
      else none
  | .account cpu =>
      (system.holding cpu).returning?.map fun back =>
        { prov := system.prov.comesBack config back.1 cpu back.2
          holding := Function.update system.holding cpu back.2.after }

def ProvSystem.Initial (system : ProvSystem size) : Prop :=
  (∀ list, system.prov.childLists.heads list = ⟨0#32, 0#32⟩) ∧
    (∀ list, system.prov.priorityCpus.heads list = ⟨0#32, 0#32⟩) ∧
    ∀ cpu, system.prov.owningChild cpu = 0 ∧ system.prov.preemptPending cpu = false ∧
      system.holding cpu = .away

/-- All interleavings of the sections and of what flux does between them. -/
def provCpus (config : ProvConfig size) : Machine (ProvSystem size) (ProvAction size) where
  initial := ProvSystem.Initial
  step system action next := system.perform config action = some next

end Machine

end Ghost.Flux
