import Ghost.Lib.Machine
import Mathlib.Logic.Function.Basic

/-!
# CPUs in the hierarchy of schedulers

`flux_cpu_grant`, `flux_cpu_yield`, `flux_preempt_up_to` and the handlers `flux_pnt`,
`handle_cpu_available` and `handle_cpu_busy` of `flux_api.bpf.c`, for any hierarchy.
The handlers of one CPU run one after the other. The callbacks of the schedulers
between the accesses change neither `nr_cpus` nor `current_sched`; what they choose
is left open.
-/

set_option autoImplicit false

namespace Ghost.Flux

open Lib

/-- The tables that a client of flux defines. Lower values of a tier are higher in the
hierarchy. -/
structure Hierarchy (Sched : Type) where
  /-- `FLUX_SCHED_NONE`. -/
  schedNone : Sched
  /-- `top_tier_sched_id`. -/
  topTierSched : Sched
  /-- `get_parent_id`. -/
  parent : Sched → Sched
  /-- `sched_id_to_tier`. -/
  tier : Sched → Nat
  /-- `FLUX_MAX_NR_TIERS`. -/
  maxNrTiers : Nat
  tier_none : tier schedNone = 0
  tier_parent : ∀ sched, sched ≠ schedNone → tier (parent sched) < tier sched
  tier_lt : ∀ sched, tier sched < maxNrTiers
  top_ne_none : topTierSched ≠ schedNone
  parent_top : parent topTierSched = schedNone

/-- `FLUX_TIER_NO_PREEMPT`. -/
def Hierarchy.tierNoPreempt {Sched : Type} (flux : Hierarchy Sched) : Nat := flux.maxNrTiers

/-- The callers of `flux_preempt_up_to`. -/
inductive Preempter where
  | pnt
  | busy
  deriving DecidableEq

/-- Where the handler of a CPU stands, by the access that comes next. -/
inductive Pc (Sched : Type) where
  /-- No handler runs. -/
  | idle
  | loadPreemptTo
  | exchangePreemptTo
  /-- The head of the loop of `flux_preempt_up_to`. -/
  | preempting (preempter : Preempter) (tier i : Nat)
  /-- The CPU has been taken from `nr_cpus` of the current scheduler. -/
  | preempted (preempter : Preempter) (tier i : Nat)
  /-- `current_sched == FLUX_SCHED_NONE`. -/
  | checkNone
  /-- The head of the loop of `flux_pnt`. -/
  | picking (i : Nat)
  /-- In `flux_cpu_grant`, before the counter. -/
  | granting (child : Sched) (i : Nat)
  | granted (child : Sched) (i : Nat)
  /-- In `flux_cpu_yield`, before the store to `current_sched`. -/
  | yielding (sched : Sched) (i : Nat)
  | yielded (sched : Sched) (i : Nat)
  | writePreemptTo
  | writeNoPreempt
  deriving DecidableEq

/-- A CPU is inside a grant, a yield or a preemption. -/
def Pc.inOperation {Sched : Type} : Pc Sched → Bool
  | .preempting .. | .preempted .. | .granting .. | .granted .. | .yielding .. | .yielded .. => true
  | _ => false

structure FluxCpu (Sched : Type) where
  available : Bool
  preemptTo : Nat
  currentSched : Sched
  pc : Pc Sched

/-- What `flux_pick_next_task` of the current scheduler does. -/
inductive Pick (Sched : Type) where
  | grant (child : Sched)
  | yield
  /-- `pnt_success`. -/
  | success
  | nothing

inductive CpuAction (Sched : Type) where
  /-- `flux_pnt`, which may bail out early. -/
  | pnt (bails : Bool)
  | available
  | busy
  | access
  | pick (pick : Pick Sched)
  /-- The CAS of `flux_preempt_cpu`, by any CPU. -/
  | preemptCpu (sched : Sched)

structure FluxCpus (Cpu Sched : Type) where
  nrCpus : Sched → Int
  cpus : Cpu → FluxCpu Sched

section Steps

variable {Sched : Type} [DecidableEq Sched]

/-- What a step does to the counters and to its CPU. -/
structure CpuEffect (Sched : Type) where
  nrCpus : Sched → Int
  cpu : FluxCpu Sched

def addCpus (nrCpus : Sched → Int) (sched : Sched) (change : Int) : Sched → Int :=
  Function.update nrCpus sched (nrCpus sched + change)

variable (flux : Hierarchy Sched)

/-- The next access of the handler that runs on a CPU. -/
def fluxAccess (nrCpus : Sched → Int) (cpu : FluxCpu Sched) :
    Pc Sched → Option (CpuEffect Sched)
  | .loadPreemptTo =>
      some ⟨nrCpus, { cpu with
        pc := if cpu.preemptTo ≠ flux.tierNoPreempt then .exchangePreemptTo else .checkNone }⟩
  | .exchangePreemptTo =>
      some ⟨nrCpus, { cpu with
        preemptTo := flux.tierNoPreempt, pc := .preempting .pnt cpu.preemptTo 0 }⟩
  | .preempting preempter tier i =>
      if i < flux.maxNrTiers ∧ ¬flux.tier cpu.currentSched ≤ tier then
        some ⟨addCpus nrCpus cpu.currentSched (-1), { cpu with pc := .preempted preempter tier i }⟩
      else
        some ⟨nrCpus, { cpu with pc := if preempter = .pnt then .checkNone else .idle }⟩
  | .preempted preempter tier i =>
      some ⟨nrCpus, { cpu with
        currentSched := flux.parent cpu.currentSched, pc := .preempting preempter tier (i + 1) }⟩
  | .checkNone =>
      some ⟨nrCpus, { cpu with
        pc := if cpu.currentSched = flux.schedNone then .granting flux.topTierSched 0
          else .picking 0 }⟩
  | .granting child i =>
      some ⟨addCpus nrCpus child 1, { cpu with pc := .granted child i }⟩
  | .granted child i => some ⟨nrCpus, { cpu with currentSched := child, pc := .picking i }⟩
  | .yielding sched i =>
      some ⟨nrCpus, { cpu with currentSched := flux.parent sched, pc := .yielded sched i }⟩
  | .yielded sched i => some ⟨addCpus nrCpus sched (-1), { cpu with pc := .picking i }⟩
  | .writePreemptTo => some ⟨nrCpus, { cpu with preemptTo := 0, pc := .preempting .busy 0 0 }⟩
  | .writeNoPreempt => some ⟨nrCpus, { cpu with preemptTo := flux.tierNoPreempt, pc := .idle }⟩
  | .idle => none
  | .picking _ => none

/-- One round of the loop of `flux_pnt`. A scheduler grants to its children and yields
to its parent; there is no code to run for `FLUX_SCHED_NONE`. -/
def fluxPick (nrCpus : Sched → Int) (cpu : FluxCpu Sched) (i : Nat) :
    Pick Sched → Option (CpuEffect Sched)
  | .grant child =>
      if i < flux.maxNrTiers * 2 ∧ cpu.currentSched ≠ flux.schedNone ∧
          child ≠ flux.schedNone ∧ flux.parent child = cpu.currentSched then
        some ⟨nrCpus, { cpu with pc := .granting child (i + 1) }⟩
      else none
  | .yield =>
      if i < flux.maxNrTiers * 2 ∧ cpu.currentSched ≠ flux.schedNone then
        some ⟨nrCpus, { cpu with pc := .yielding cpu.currentSched (i + 1) }⟩
      else none
  | .success =>
      if i < flux.maxNrTiers * 2 ∧ cpu.currentSched ≠ flux.schedNone then
        some ⟨nrCpus, { cpu with pc := .idle }⟩
      else none
  | .nothing =>
      some ⟨nrCpus, { cpu with pc := if i < flux.maxNrTiers * 2 then .picking (i + 1) else .idle }⟩

/-- One action on a CPU. -/
def fluxAct (nrCpus : Sched → Int) (cpu : FluxCpu Sched) :
    CpuAction Sched → Option (CpuEffect Sched)
  | .pnt bails =>
      if cpu.pc = .idle then
        some ⟨nrCpus, { cpu with
          pc := if bails = false ∧ cpu.available = true then .loadPreemptTo else .idle }⟩
      else none
  | .available =>
      if cpu.pc = .idle then some ⟨nrCpus, { cpu with available := true, pc := .writeNoPreempt }⟩
      else none
  | .busy =>
      if cpu.pc = .idle then some ⟨nrCpus, { cpu with available := false, pc := .writePreemptTo }⟩
      else none
  | .access => fluxAccess flux nrCpus cpu cpu.pc
  | .pick pick =>
      match cpu.pc with
      | .picking i => fluxPick flux nrCpus cpu i pick
      | _ => none
  | .preemptCpu sched =>
      some ⟨nrCpus, if flux.tier sched < cpu.preemptTo then
        { cpu with preemptTo := flux.tier sched } else cpu⟩

end Steps

section Machine

variable {Cpu Sched : Type} [DecidableEq Cpu] [DecidableEq Sched]

def FluxCpus.Initial (flux : Hierarchy Sched) (system : FluxCpus Cpu Sched) : Prop :=
  (∀ sched, system.nrCpus sched = 0) ∧
    ∀ cpu, (system.cpus cpu).available = false ∧
      (system.cpus cpu).currentSched = flux.schedNone ∧ (system.cpus cpu).pc = .idle

/-- All interleavings of the handlers of the CPUs. -/
def fluxCpus (flux : Hierarchy Sched) :
    Machine (FluxCpus Cpu Sched) (Cpu × CpuAction Sched) where
  initial := FluxCpus.Initial flux
  step system label next := ∃ effect,
    fluxAct flux system.nrCpus (system.cpus label.1) label.2 = some effect ∧
    next = ⟨effect.nrCpus, Function.update system.cpus label.1 effect.cpu⟩

end Machine

end Ghost.Flux
