import Ghost.Flux.Biff
import Ghost.Flux.Cpus
import Ghost.Lib.Tally

/-!
# Every scheduler counts its CPUs

In every interleaving a CPU is counted for one scheduler and all those above it. Inside
an operation that scheduler is not yet, or no longer, the current one.
-/

set_option autoImplicit false

namespace Ghost.Flux

open Lib

/-! ## Descendants -/

section Hierarchy

variable {Sched : Type} (flux : Hierarchy Sched)

/-- The first scheduler is the second one or below it. -/
inductive Hierarchy.Descends : Sched → Sched → Prop
  | self (sched : Sched) : Descends sched sched
  | parent {below sched : Sched} : below ≠ flux.schedNone → Descends (flux.parent below) sched →
      Descends below sched

variable {flux} {below sched child : Sched}

private theorem Hierarchy.Descends.tier_le (descends : flux.Descends below sched) :
    flux.tier sched ≤ flux.tier below := by
  induction descends with
  | self => exact le_rfl
  | parent notNone _ ih => exact ih.trans (flux.tier_parent _ notNone).le

private theorem Hierarchy.descends_none (sched_ne : sched ≠ flux.schedNone) :
    ¬flux.Descends flux.schedNone sched := by
  intro descends
  cases descends with
  | self => exact sched_ne rfl
  | parent notNone => exact notNone rfl

private theorem Hierarchy.descends_iff (notNone : below ≠ flux.schedNone) :
    flux.Descends below sched ↔ sched = below ∨ flux.Descends (flux.parent below) sched := by
  constructor
  · intro descends
    cases descends with
    | self => exact .inl rfl
    | parent _ descends => exact .inr descends
  · rintro (rfl | descends)
    · exact .self sched
    · exact .parent notNone descends

private theorem Hierarchy.not_descends_parent (notNone : below ≠ flux.schedNone) :
    ¬flux.Descends (flux.parent below) below := by
  intro descends
  exact absurd descends.tier_le (not_le.mpr (flux.tier_parent below notNone))

variable [DecidableEq Sched]

/-- The walk up the hierarchy that `handle_cpu_tick` makes. -/
def Hierarchy.walksTo (flux : Hierarchy Sched) (sched : Sched) : Nat → Sched → Bool
  | 0, _ => false
  | fuel + 1, below =>
      below = sched || (below ≠ flux.schedNone && flux.walksTo sched fuel (flux.parent below))

private theorem Hierarchy.walksTo_iff {fuel : Nat} (enough : flux.tier below < fuel) :
    flux.walksTo sched fuel below = true ↔ flux.Descends below sched := by
  induction fuel generalizing below with
  | zero => omega
  | succ fuel ih =>
      by_cases isNone : below = flux.schedNone
      · subst isNone
        simp only [walksTo, ne_eq, not_true_eq_false, decide_false, Bool.false_and, Bool.or_false,
          decide_eq_true_eq]
        constructor
        · rintro rfl
          exact .self _
        · intro descends
          by_contra other
          exact Hierarchy.descends_none (fun same => other same.symm) descends
      · have lower := flux.tier_parent below isNone
        rw [Hierarchy.descends_iff isNone, ← ih (by omega)]
        simp [walksTo, isNone, @eq_comm _ sched below]

instance (below sched : Sched) : Decidable (flux.Descends below sched) :=
  decidable_of_iff (flux.walksTo sched flux.maxNrTiers below = true)
    (Hierarchy.walksTo_iff (flux.tier_lt below))

/-- Going one step up takes the scheduler itself from the count. -/
theorem Hierarchy.unit_descends (notNone : child ≠ flux.schedNone) (sched : Sched) :
    unit (flux.Descends child sched) =
      unit (flux.Descends (flux.parent child) sched) + unit (sched = child) := by
  by_cases same : sched = child
  · subst same
    rw [unit_true (.self sched), unit_true rfl, unit_false (flux.not_descends_parent notNone)]
    rfl
  · rw [unit_false same, add_zero]
    apply unit_congr
    rw [Hierarchy.descends_iff notNone]
    simp [same]

end Hierarchy

/-! ## The scheduler that a CPU is counted for -/

section Counted

variable {Sched : Type} [DecidableEq Sched] (flux : Hierarchy Sched)

def FluxCpu.counted (cpu : FluxCpu Sched) : Sched :=
  match cpu.pc with
  | .preempted .. => flux.parent cpu.currentSched
  | .granted child _ => child
  | .yielded sched _ => sched
  | _ => cpu.currentSched

omit [DecidableEq Sched] in
private theorem counted_of_outside {flux : Hierarchy Sched} {cpu : FluxCpu Sched}
    (outside : cpu.pc.inOperation = false) : cpu.counted flux = cpu.currentSched := by
  cases isPc : cpu.pc with
  | preempted => simp [isPc, Pc.inOperation] at outside
  | granted => simp [isPc, Pc.inOperation] at outside
  | yielded => simp [isPc, Pc.inOperation] at outside
  | _ => simp [FluxCpu.counted, isPc]

/-- What the handlers of a CPU rely on. -/
def Pc.Expects (cpu : FluxCpu Sched) : Pc Sched → Prop
  | .idle => cpu.available = false → cpu.currentSched = flux.schedNone
  | .preempting preempter tier i => flux.tier cpu.currentSched + i < flux.maxNrTiers ∧
      (preempter = .busy → tier = 0) ∧ (preempter = .pnt → cpu.available = true)
  | .preempted preempter tier i => cpu.currentSched ≠ flux.schedNone ∧
      flux.tier cpu.currentSched + i < flux.maxNrTiers ∧
      (preempter = .busy → tier = 0) ∧ (preempter = .pnt → cpu.available = true)
  | .granting child _ => child ≠ flux.schedNone ∧ flux.parent child = cpu.currentSched ∧
      cpu.available = true
  | .granted child _ => child ≠ flux.schedNone ∧ flux.parent child = cpu.currentSched ∧
      cpu.available = true
  | .yielding sched _ => sched ≠ flux.schedNone ∧ sched = cpu.currentSched ∧ cpu.available = true
  | .yielded sched _ => sched ≠ flux.schedNone ∧ flux.parent sched = cpu.currentSched ∧
      cpu.available = true
  | .writePreemptTo => True
  | .loadPreemptTo | .exchangePreemptTo | .checkNone | .picking _ | .writeNoPreempt =>
      cpu.available = true

/-- A step of a CPU changes the counters as it changes the scheduler that the CPU is
counted for. -/
structure Accounts (nrCpus : Sched → Int) (cpu : FluxCpu Sched) (effect : CpuEffect Sched) :
    Prop where
  expects : effect.cpu.pc.Expects flux effect.cpu
  nrCpus : ∀ sched, effect.nrCpus sched = nrCpus sched -
    unit (flux.Descends (cpu.counted flux) sched) +
    unit (flux.Descends (effect.cpu.counted flux) sched)

variable {flux}

private theorem Accounts.same {nrCpus : Sched → Int} {cpu next : FluxCpu Sched}
    (expects : next.pc.Expects flux next) (counted : next.counted flux = cpu.counted flux) :
    Accounts flux nrCpus cpu ⟨nrCpus, next⟩ :=
  ⟨expects, fun sched => by rw [counted]; ring⟩

private theorem Accounts.down {nrCpus : Sched → Int} {cpu next : FluxCpu Sched} {child : Sched}
    (expects : next.pc.Expects flux next) (notNone : child ≠ flux.schedNone)
    (before : cpu.counted flux = flux.parent child) (after : next.counted flux = child) :
    Accounts flux nrCpus cpu ⟨addCpus nrCpus child 1, next⟩ := by
  refine ⟨expects, fun sched => ?_⟩
  rw [before, after, Hierarchy.unit_descends notNone]
  by_cases same : sched = child
  · subst same
    simp only [addCpus, Function.update_self, unit_true]
    ring
  · simp only [addCpus, Function.update_of_ne same, unit_false same]
    ring

private theorem Accounts.up {nrCpus : Sched → Int} {cpu next : FluxCpu Sched} {child : Sched}
    (expects : next.pc.Expects flux next) (notNone : child ≠ flux.schedNone)
    (before : cpu.counted flux = child) (after : next.counted flux = flux.parent child) :
    Accounts flux nrCpus cpu ⟨addCpus nrCpus child (-1), next⟩ := by
  refine ⟨expects, fun sched => ?_⟩
  rw [before, after, Hierarchy.unit_descends notNone]
  by_cases same : sched = child
  · subst same
    simp only [addCpus, Function.update_self, unit_true]
    ring
  · simp only [addCpus, Function.update_of_ne same, unit_false same]
    ring

/-- `flux_preempt_up_to` at the head of its loop. -/
theorem accounts_preempting {nrCpus : Sched → Int} {cpu : FluxCpu Sched}
    {effect : CpuEffect Sched} {preempter : Preempter} {tier i : Nat}
    (isPc : cpu.pc = .preempting preempter tier i) (expects : cpu.pc.Expects flux cpu)
    (accessed : fluxAccess flux nrCpus cpu cpu.pc = some effect) :
    Accounts flux nrCpus cpu effect := by
  have counted : cpu.counted flux = cpu.currentSched := by simp [FluxCpu.counted, isPc]
  rw [isPc] at expects accessed
  obtain ⟨bound, busy, pnt⟩ := expects
  simp only [fluxAccess] at accessed
  split_ifs at accessed with goesOn isPnt
  · cases accessed
    have notNone : cpu.currentSched ≠ flux.schedNone := by
      intro isNone
      rw [isNone, flux.tier_none] at goesOn
      omega
    exact .up ⟨notNone, bound, busy, pnt⟩ notNone counted rfl
  · cases accessed
    exact .same (pnt isPnt) counted.symm
  · cases accessed
    refine .same ?_ counted.symm
    intro _
    by_contra notNone
    have isBusy : preempter = .busy := by
      cases preempter with
      | pnt => exact absurd rfl isPnt
      | busy => rfl
    have above := flux.tier_parent cpu.currentSched notNone
    have isZero := busy isBusy
    omega

private theorem accounts_access {nrCpus : Sched → Int} {cpu : FluxCpu Sched}
    {effect : CpuEffect Sched}
    (expects : cpu.pc.Expects flux cpu)
    (accessed : fluxAccess flux nrCpus cpu cpu.pc = some effect) :
    Accounts flux nrCpus cpu effect := by
  cases isPc : cpu.pc with
  | idle =>
      rw [isPc] at accessed
      cases accessed
  | picking i =>
      rw [isPc] at accessed
      cases accessed
  | preempting preempter tier i => exact accounts_preempting isPc expects accessed
  | loadPreemptTo =>
      rw [isPc] at accessed expects
      cases accessed
      split
      · exact .same expects (by simp [FluxCpu.counted, isPc])
      · exact .same expects (by simp [FluxCpu.counted, isPc])
  | exchangePreemptTo =>
      rw [isPc] at accessed expects
      cases accessed
      refine .same ⟨?_, by simp, fun _ => expects⟩ (by simp [FluxCpu.counted, isPc])
      exact flux.tier_lt cpu.currentSched
  | preempted preempter tier i =>
      rw [isPc] at accessed expects
      cases accessed
      obtain ⟨notNone, bound, busy, pnt⟩ := expects
      refine .same ⟨?_, busy, pnt⟩ (by simp [FluxCpu.counted, isPc])
      have above := flux.tier_parent cpu.currentSched notNone
      show flux.tier (flux.parent cpu.currentSched) + (i + 1) < flux.maxNrTiers
      omega
  | checkNone =>
      rw [isPc] at accessed expects
      cases accessed
      split
      · rename_i isNone
        refine .same ⟨flux.top_ne_none, ?_, expects⟩ (by simp [FluxCpu.counted, isPc])
        exact flux.parent_top.trans isNone.symm
      · exact .same expects (by simp [FluxCpu.counted, isPc])
  | granting child i =>
      rw [isPc] at accessed expects
      cases accessed
      refine .down expects expects.1 ?_ rfl
      simp [FluxCpu.counted, isPc, expects.2.1]
  | granted child i =>
      rw [isPc] at accessed expects
      cases accessed
      exact .same expects.2.2 (by simp [FluxCpu.counted, isPc])
  | yielding sched i =>
      rw [isPc] at accessed expects
      cases accessed
      refine .same ⟨expects.1, rfl, expects.2.2⟩ ?_
      simp [FluxCpu.counted, isPc, expects.2.1]
  | yielded sched i =>
      rw [isPc] at accessed expects
      cases accessed
      refine .up expects.2.2 expects.1 ?_ expects.2.1.symm
      simp [FluxCpu.counted, isPc]
  | writePreemptTo =>
      rw [isPc] at accessed expects
      cases accessed
      refine .same ⟨?_, fun _ => rfl, by simp⟩ (by simp [FluxCpu.counted, isPc])
      exact flux.tier_lt cpu.currentSched
  | writeNoPreempt =>
      rw [isPc] at accessed expects
      cases accessed
      refine .same ?_ (by simp [FluxCpu.counted, isPc])
      intro unavailable
      exact absurd (expects.symm.trans unavailable) (by simp)

private theorem accounts_pick {nrCpus : Sched → Int} {cpu : FluxCpu Sched}
    {effect : CpuEffect Sched}
    {i : Nat} {pick : Pick Sched} (isPc : cpu.pc = .picking i)
    (expects : cpu.pc.Expects flux cpu)
    (picked : fluxPick flux nrCpus cpu i pick = some effect) :
    Accounts flux nrCpus cpu effect := by
  rw [isPc] at expects
  have counted : cpu.counted flux = cpu.currentSched := by simp [FluxCpu.counted, isPc]
  have idles : cpu.available = false → cpu.currentSched = flux.schedNone := by
    intro unavailable
    exact absurd (expects.symm.trans unavailable) (by simp)
  cases pick with
  | grant child =>
      simp only [fluxPick, Option.ite_none_right_eq_some, Option.some.injEq] at picked
      obtain ⟨⟨_, _, notNone, isChild⟩, rfl⟩ := picked
      exact .same ⟨notNone, isChild, expects⟩ counted.symm
  | yield =>
      simp only [fluxPick, Option.ite_none_right_eq_some, Option.some.injEq] at picked
      obtain ⟨⟨_, notNone⟩, rfl⟩ := picked
      exact .same ⟨notNone, rfl, expects⟩ counted.symm
  | success =>
      simp only [fluxPick, Option.ite_none_right_eq_some, Option.some.injEq] at picked
      obtain ⟨_, rfl⟩ := picked
      exact .same idles counted.symm
  | nothing =>
      cases picked
      split
      · exact .same expects counted.symm
      · exact .same idles counted.symm

omit [DecidableEq Sched] in
private theorem expects_preemptTo {cpu : FluxCpu Sched} {preemptTo : Nat} {pc : Pc Sched} :
    pc.Expects flux { cpu with preemptTo := preemptTo } ↔ pc.Expects flux cpu := by
  cases pc <;> exact Iff.rfl

private theorem accounts_act {nrCpus : Sched → Int} {cpu : FluxCpu Sched} {effect : CpuEffect Sched}
    {action : CpuAction Sched} (expects : cpu.pc.Expects flux cpu)
    (acted : fluxAct flux nrCpus cpu action = some effect) : Accounts flux nrCpus cpu effect := by
  cases action with
  | pnt bails =>
      simp only [fluxAct, Option.ite_none_right_eq_some, Option.some.injEq] at acted
      obtain ⟨isIdle, rfl⟩ := acted
      rw [isIdle] at expects
      split
      · rename_i proceeds
        exact .same proceeds.2 (by simp [FluxCpu.counted, isIdle])
      · exact .same expects (by simp [FluxCpu.counted, isIdle])
  | available =>
      simp only [fluxAct, Option.ite_none_right_eq_some, Option.some.injEq] at acted
      obtain ⟨isIdle, rfl⟩ := acted
      exact .same rfl (by simp [FluxCpu.counted, isIdle])
  | busy =>
      simp only [fluxAct, Option.ite_none_right_eq_some, Option.some.injEq] at acted
      obtain ⟨isIdle, rfl⟩ := acted
      exact .same trivial (by simp [FluxCpu.counted, isIdle])
  | access => exact accounts_access expects acted
  | pick pick =>
      cases isPc : cpu.pc with
      | picking i =>
          simp only [fluxAct, isPc] at acted
          exact accounts_pick isPc expects acted
      | _ => simp [fluxAct, isPc] at acted
  | preemptCpu sched =>
      cases acted
      split
      · exact .same (expects_preemptTo.mpr expects) rfl
      · exact .same expects rfl

end Counted

/-! ## The counters -/

section Runs

variable {Cpu Sched : Type} [Fintype Cpu] [DecidableEq Cpu] [DecidableEq Sched]
  {flux : Hierarchy Sched}

structure Counted (flux : Hierarchy Sched) (system : FluxCpus Cpu Sched) : Prop where
  expects : ∀ cpu, (system.cpus cpu).pc.Expects flux (system.cpus cpu)
  nrCpus : ∀ sched, sched ≠ flux.schedNone → system.nrCpus sched =
    tally fun cpu => flux.Descends ((system.cpus cpu).counted flux) sched

omit [DecidableEq Cpu] in
private theorem FluxCpus.Initial.counted {system : FluxCpus Cpu Sched}
    (initial : system.Initial flux) :
    Counted flux system := by
  obtain ⟨noCpus, idle⟩ := initial
  have counted : ∀ cpu, (system.cpus cpu).counted flux = flux.schedNone := by
    intro cpu
    rw [FluxCpu.counted, (idle cpu).2.2]
    exact (idle cpu).2.1
  constructor
  · intro cpu
    rw [(idle cpu).2.2]
    exact fun _ => (idle cpu).2.1
  · intro sched notNone
    rw [noCpus, eq_comm, Nat.cast_eq_zero, tally, Finset.card_eq_zero, Finset.filter_eq_empty_iff]
    intro cpu _
    rw [counted]
    exact Hierarchy.descends_none notNone

theorem Counted.step {system next : FluxCpus Cpu Sched} {label : Cpu × CpuAction Sched}
    (counted : Counted flux system) (moved : (fluxCpus flux).step system label next) :
    Counted flux next := by
  obtain ⟨effect, acted, rfl⟩ := moved
  have accounts := accounts_act (counted.expects label.1) acted
  constructor
  · intro cpu
    by_cases isCpu : cpu = label.1
    · subst isCpu
      simpa using accounts.expects
    · simpa [isCpu] using counted.expects cpu
  · intro sched notNone
    have others : ∀ cpu, cpu ≠ label.1 →
        (flux.Descends ((Function.update system.cpus label.1 effect.cpu cpu).counted flux) sched ↔
          flux.Descends ((system.cpus cpu).counted flux) sched) := by
      intro cpu isOther
      rw [Function.update_of_ne isOther]
    have change := tally_change others
    rw [Function.update_self] at change
    show effect.nrCpus sched = _
    rw [accounts.nrCpus, counted.nrCpus sched notNone, change]

theorem counted_of_reachable {system : FluxCpus Cpu Sched}
    (reachable : (fluxCpus flux).Reachable system) : Counted flux system := by
  apply reachable.invariant
  · intro state initial
    exact initial.counted
  · intro state label next counted moved
    exact counted.step moved

/-- For every hierarchy and every interleaving of the handlers: while no CPU is inside a
grant, a yield or a preemption, `nr_cpus` of each scheduler is the number of CPUs whose
`current_sched` is the scheduler or a descendant of it; `nr_cpus` is never negative;
and a CPU that is not available, with no handler running, belongs to nobody. -/
theorem nrCpus_eq_tally (flux : Hierarchy Sched) (system : FluxCpus Cpu Sched)
    (reachable : (fluxCpus flux).Reachable system) :
    ((∀ cpu, (system.cpus cpu).pc.inOperation = false) → ∀ sched, sched ≠ flux.schedNone →
      system.nrCpus sched =
        tally fun cpu => flux.Descends (system.cpus cpu).currentSched sched) ∧
    (∀ sched, sched ≠ flux.schedNone → 0 ≤ system.nrCpus sched) ∧
    ∀ cpu, (system.cpus cpu).pc = .idle → (system.cpus cpu).available = false →
      (system.cpus cpu).currentSched = flux.schedNone ∧
        ∀ sched, sched ≠ flux.schedNone →
          ¬flux.Descends (system.cpus cpu).currentSched sched := by
  have counted := counted_of_reachable reachable
  refine ⟨?_, ?_, ?_⟩
  · intro outside sched notNone
    rw [counted.nrCpus sched notNone]
    congr 1
    apply tally_congr
    intro cpu
    rw [counted_of_outside (outside cpu)]
  · intro sched notNone
    rw [counted.nrCpus sched notNone]
    exact Nat.cast_nonneg _
  · intro cpu isIdle unavailable
    have expects := counted.expects cpu
    rw [isIdle] at expects
    have isNone := expects unavailable
    refine ⟨isNone, fun sched notNone => ?_⟩
    rw [isNone]
    exact Hierarchy.descends_none notNone

end Runs

/-! ## The schedulers of `flux.bpf.c` -/

/-- Roci above biff and idle. -/
def rociHierarchy : Hierarchy SchedId where
  schedNone := .none
  topTierSched := .roci
  parent
    | .roci => .none
    | _ => .roci
  tier
    | .none => 0
    | .roci => 1
    | _ => 2
  maxNrTiers := 3
  tier_none := rfl
  tier_parent sched := by cases sched <;> decide
  tier_lt sched := by cases sched <;> decide
  top_ne_none := by decide
  parent_top := rfl

def unavailableCpus : FluxCpus (Fin 2) SchedId where
  nrCpus _ := 0
  cpus _ := ⟨false, 0, .none, .idle⟩

def performFlux (system : FluxCpus (Fin 2) SchedId) (label : Fin 2 × CpuAction SchedId) :
    Option (FluxCpus (Fin 2) SchedId) :=
  (fluxAct rociHierarchy system.nrCpus (system.cpus label.1) label.2).map fun effect =>
    ⟨effect.nrCpus, Function.update system.cpus label.1 effect.cpu⟩

def cpuZero : Fin 2 := ⟨0, Nat.zero_lt_two⟩

/-- The first CPU becomes available and is granted to roci and to biff. -/
def grantedToBiff : List (Fin 2 × CpuAction SchedId) :=
  [(cpuZero, .available), (cpuZero, .access), (cpuZero, .pnt false), (cpuZero, .access),
    (cpuZero, .access), (cpuZero, .access), (cpuZero, .access), (cpuZero, .pick (.grant .biff)),
    (cpuZero, .access), (cpuZero, .access), (cpuZero, .pick .success)]

def afterGrant : FluxCpus (Fin 2) SchedId :=
  (grantedToBiff.foldlM performFlux unavailableCpus).getD unavailableCpus

theorem nrCpus_eq_tally_afterGrant :
    (afterGrant.cpus 0).currentSched = .biff ∧ (afterGrant.cpus 1).currentSched = .none ∧
      afterGrant.nrCpus .roci =
        tally fun cpu => rociHierarchy.Descends (afterGrant.cpus cpu).currentSched .roci := by
  have reachable : (fluxCpus rociHierarchy).Reachable afterGrant := by
    refine ⟨unavailableCpus, grantedToBiff, ⟨fun _ => rfl, fun _ => ⟨rfl, rfl, rfl⟩⟩, ?_⟩
    have possible : grantedToBiff.foldlM performFlux unavailableCpus = some afterGrant := rfl
    apply Machine.Run.of_foldlM_some _ possible
    intro state label next performed
    obtain ⟨effect, acted, rfl⟩ := Option.map_eq_some_iff.mp performed
    exact ⟨effect, acted, rfl⟩
  have outside : ∀ cpu, (afterGrant.cpus cpu).pc.inOperation = false := by decide
  exact ⟨rfl, rfl, (nrCpus_eq_tally rociHierarchy afterGrant reachable).1 outside .roci (by decide)⟩

end Ghost.Flux
