import Ghost.Flux.Roci

/-!
# Roci's lists hold what its children hold

A CPU is on the list of the child that holds it, unless roci has taken it off the list
of idle to preempt it.
-/

set_option autoImplicit false

namespace Ghost.Flux

open Lib Bpf

variable {size : ArrSize} {ids : RociIds}

/-- Where a CPU is listed, by the child that has, gets or gives back the CPU. -/
def RociPlaced (ids : RociIds) (sequences : Sequences size RociList) (pending : Bool)
    (cpu : size.Elem) : Option Nat → Prop
  | none => (∀ list, cpu ∉ sequences list) ∧ pending = false
  | some child =>
      (child = ids.primaryId ∧ cpu ∈ sequences .primaryCpus ∧ pending = false) ∨
      child = ids.idleId ∧ (cpu ∈ sequences .idleCpus ∧ pending = false ∨
        (∀ list, cpu ∉ sequences list) ∧ pending = true)

private theorem RociPlaced.congr {sequences sequences' : Sequences size RociList} {pending : Bool}
    {cpu : size.Elem} {child : Option Nat} (placed : RociPlaced ids sequences pending cpu child)
    (same : ∀ list, cpu ∈ sequences' list ↔ cpu ∈ sequences list) :
    RociPlaced ids sequences' pending cpu child := by
  cases child with
  | none => exact ⟨fun list listed => placed.1 list ((same list).mp listed), placed.2⟩
  | some child =>
      rcases placed with ⟨isPrimary, listed, clear⟩ | ⟨isIdle, ⟨listed, clear⟩ | ⟨absent, pending⟩⟩
      · exact .inl ⟨isPrimary, (same _).mpr listed, clear⟩
      · exact .inr ⟨isIdle, .inl ⟨(same _).mpr listed, clear⟩⟩
      · exact .inr ⟨isIdle, .inr ⟨fun list listed => absent list ((same list).mp listed), pending⟩⟩

structure RociAccounts (ids : RociIds) (system : RociSystem size)
    (sequences : Sequences size RociList) : Prop where
  refines : Refines (system.roci.lists, sequences)
  placed : ∀ cpu, RociPlaced ids sequences (system.roci.preemptPending cpu) cpu
    (system.holding cpu).child?

private theorem RociAccounts.change {system : RociSystem size}
    {sequences sequences' : Sequences size RociList} (accounts : RociAccounts ids system sequences)
    (changed : size.Elem) (roci : Roci size) (holding : Holding)
    (refines : Refines (roci.lists, sequences'))
    (listed : ∀ cpu, cpu ≠ changed → ∀ list, cpu ∈ sequences' list ↔ cpu ∈ sequences list)
    (pending : ∀ cpu, cpu ≠ changed → roci.preemptPending cpu = system.roci.preemptPending cpu)
    (placed : RociPlaced ids sequences' (roci.preemptPending changed) changed holding.child?) :
    RociAccounts ids ⟨roci, Function.update system.holding changed holding⟩ sequences' := by
  refine ⟨refines, fun cpu => ?_⟩
  by_cases same : cpu = changed
  · subst same
    simpa using placed
  · simp only [Function.update_of_ne same, pending cpu same]
    exact (accounts.placed cpu).congr (listed cpu same)

/-! ## The sections -/

section Sections

variable {system : RociSystem size} {sequences : Sequences size RociList}
  (accounts : RociAccounts ids system sequences)
include accounts

/-- A victim of `roci_request_for_cpus` is idle's. -/
theorem RociAccounts.requests :
    ∃ sequences', RociAccounts ids { system with roci := system.roci.requestForCpus.2 }
      sequences' := by
  obtain ⟨popped, refines⟩ := accounts.refines.popFirst .idleCpus
  cases isIdle : sequences .idleCpus with
  | nil =>
      refine ⟨sequences, ?_, ?_⟩
      · rw [isIdle, List.tail_nil, ← isIdle, Function.update_eq_self] at refines
        exact refines
      · intro cpu
        have none : (system.roci.lists.popFirst .idleCpus).1 = none := by rw [popped, isIdle]; rfl
        simpa [Roci.requestForCpus, none] using accounts.placed cpu
  | cons victim rest =>
      have isVictim : (system.roci.lists.popFirst .idleCpus).1 = some victim := by
        rw [popped, isIdle]
        rfl
      have idles : victim ∈ sequences .idleCpus := isIdle ▸ List.mem_cons_self
      rw [isIdle, List.tail_cons] at refines
      have absent : ∀ list, victim ∉ Function.update sequences RociList.idleCpus rest list := by
        intro list
        cases list with
        | primaryCpus =>
            intro listed
            cases accounts.refines.apart _ _ victim listed idles
        | idleCpus =>
            have nodup := accounts.refines.nodup .idleCpus
            rw [isIdle, List.nodup_cons] at nodup
            simpa using nodup.1
      have others : ∀ cpu, cpu ≠ victim → ∀ list,
          cpu ∈ Function.update sequences RociList.idleCpus rest list ↔ cpu ∈ sequences list := by
        intro cpu ne list
        cases list with
        | primaryCpus => rfl
        | idleCpus => simp [isIdle, ne]
      have changed := accounts.change victim system.roci.requestForCpus.2
        (system.holding victim) refines others
      rw [Function.update_eq_self] at changed
      refine ⟨_, changed ?_ ?_⟩
      · intro cpu ne
        simp [Roci.requestForCpus, isVictim, ne]
      · have isPending : system.roci.requestForCpus.2.preemptPending victim = true := by
          simp [Roci.requestForCpus, isVictim]
        rw [isPending]
        have placed := accounts.placed victim
        cases isChild : (system.holding victim).child? with
        | none =>
            rw [isChild] at placed
            exact absurd idles (placed.1 .idleCpus)
        | some child =>
            rw [isChild] at placed
            rcases placed with ⟨_, listed, _⟩ | ⟨isIdle, _⟩
            · cases accounts.refines.apart _ _ victim listed idles
            · exact .inr ⟨isIdle, .inr ⟨absent, rfl⟩⟩

/-- In every return the accounting is that of `__roci_cpu_returned`. -/
theorem RociAccounts.comesBack_eq {cpu : size.Elem} {child : Nat} {how : Return}
    (returning : system.holding cpu = .returning child how) :
    system.roci.comesBack ids child cpu how = system.roci.returned ids child cpu := by
  have placed := accounts.placed cpu
  rw [returning] at placed
  have notNone : child ≠ 0 := by
    rcases placed with ⟨rfl, _⟩ | ⟨rfl, _⟩
    · exact ids.primary_ne_none
    · exact ids.idle_ne_none
  cases how with
  | returned => rfl
  | preempted => exact if_neg notNone
  | preemptionCompleted => exact if_neg notNone

private theorem RociAccounts.listed {cpu : size.Elem} {child : Nat} {how : Return}
    (returning : system.holding cpu = .returning child how)
    (clear : system.roci.preemptPending cpu = false) :
    cpu ∈ sequences (Roci.childList ids child) := by
  have placed := accounts.placed cpu
  rw [returning, clear] at placed
  rcases placed with ⟨rfl, listed, _⟩ | ⟨rfl, ⟨listed, _⟩ | ⟨_, pending⟩⟩
  · simpa [Roci.childList] using listed
  · simpa [Roci.childList, ids.distinct] using listed
  · cases pending

private theorem RociAccounts.returns {cpu : size.Elem} {child : Nat} {how : Return}
    (returning : system.holding cpu = .returning child how) :
    ∃ sequences', RociAccounts ids
      { roci := system.roci.comesBack ids child cpu how
        holding := Function.update system.holding cpu how.after } sequences' := by
  rw [accounts.comesBack_eq returning]
  cases isPending : system.roci.preemptPending cpu with
  | true =>
      have returned : system.roci.returned ids child cpu = { system.roci with
          preemptPending := Function.update system.roci.preemptPending cpu false } := by
        simp [Roci.returned, isPending]
      rw [returned]
      refine ⟨sequences, accounts.change cpu _ _ accounts.refines (fun _ _ _ => Iff.rfl) ?_ ?_⟩
      · intro other ne
        simp [ne]
      · have placed := accounts.placed cpu
        rw [returning, isPending] at placed
        rw [how.after_child?]
        refine ⟨?_, by simp⟩
        rcases placed with ⟨_, _, clear⟩ | ⟨_, ⟨_, clear⟩ | ⟨absent, _⟩⟩
        · cases clear
        · cases clear
        · exact absent
  | false =>
      have listed := accounts.listed returning isPending
      have returned : system.roci.returned ids child cpu = { system.roci with
          lists := system.roci.lists.remove (Roci.childList ids child) cpu } := by
        simp [Roci.returned, isPending]
      rw [returned]
      refine ⟨_, accounts.change cpu _ _ (accounts.refines.remove listed) ?_ (fun _ _ => rfl) ?_⟩
      · intro other ne list
        exact mem_update_erase ne list
      · rw [how.after_child?]
        refine ⟨?_, isPending⟩
        intro list
        by_cases isList : list = Roci.childList ids child
        · subst isList
          rw [Function.update_self]
          exact (accounts.refines.nodup _).not_mem_erase
        · rw [Function.update_of_ne isList]
          intro elsewhere
          exact isList (accounts.refines.apart _ _ cpu elsewhere listed)

private theorem RociAccounts.picks {cpu : size.Elem} (here : system.holding cpu = .here)
    (needed : Bool) :
    ∃ sequences', RociAccounts ids
      { roci := (system.roci.pickNextTask ids cpu needed).2
        holding := Function.update system.holding cpu
          (.granting (system.roci.pickNextTask ids cpu needed).1) } sequences' := by
  have placed := accounts.placed cpu
  rw [here] at placed
  obtain ⟨absent, clear⟩ := placed
  refine ⟨_, accounts.change cpu _ _ (accounts.refines.insertHead absent) ?_ (fun _ _ => rfl) ?_⟩
  · intro other ne list
    exact mem_update_cons ne list
  · cases needed with
    | true => exact .inl ⟨rfl, by simp, clear⟩
    | false => exact .inr ⟨rfl, .inl ⟨by simp, clear⟩⟩

end Sections

private theorem RociAccounts.membership {system : RociSystem size}
    {sequences : Sequences size RociList}
    (accounts : RociAccounts ids system sequences) (cpu : size.Elem) :
    (cpu ∈ sequences .primaryCpus ↔ (system.holding cpu).child? = some ids.primaryId ∧
      system.roci.preemptPending cpu = false) ∧
    (cpu ∈ sequences .idleCpus ↔ (system.holding cpu).child? = some ids.idleId ∧
      system.roci.preemptPending cpu = false) ∧
    (system.roci.preemptPending cpu = true →
      (system.holding cpu).child? = some ids.idleId) := by
  have placed := accounts.placed cpu
  have apart := accounts.refines.apart
  cases isChild : (system.holding cpu).child? with
  | none =>
      rw [isChild] at placed
      obtain ⟨absent, clear⟩ := placed
      simp [absent, clear]
  | some child =>
      rw [isChild] at placed
      rcases placed with ⟨rfl, listed, clear⟩ | ⟨rfl, ⟨listed, clear⟩ | ⟨absent, pending⟩⟩
      · have notIdle : cpu ∉ sequences .idleCpus := by
          intro isIdle
          cases apart _ _ cpu listed isIdle
        simp [listed, notIdle, clear, ids.distinct.symm]
      · have notPrimary : cpu ∉ sequences .primaryCpus := by
          intro isPrimary
          cases apart _ _ cpu listed isPrimary
        simp [listed, notPrimary, clear, ids.distinct]
      · simp [absent, pending]

/-! ## Runs -/

private theorem RociAccounts.perform {system next : RociSystem size}
    {sequences : Sequences size RociList} {action : RociAction size}
    (accounts : RociAccounts ids system sequences)
    (performed : system.perform ids action = some next) :
    ∃ sequences', RociAccounts ids next sequences' := by
  cases action with
  | move cpu movement =>
      obtain ⟨holding, moved, rfl⟩ := Option.map_eq_some_iff.mp performed
      refine ⟨sequences, accounts.change cpu _ _ accounts.refines (fun _ _ _ => Iff.rfl)
        (fun _ _ => rfl) ?_⟩
      rw [Holding.move_child? moved]
      exact accounts.placed cpu
  | request =>
      cases performed
      exact accounts.requests
  | pick cpu needed =>
      simp only [RociSystem.perform, Option.ite_none_right_eq_some, Option.some.injEq] at performed
      obtain ⟨here, rfl⟩ := performed
      exact accounts.picks here needed
  | account cpu =>
      obtain ⟨back, returning, rfl⟩ := Option.map_eq_some_iff.mp performed
      exact accounts.returns (Holding.returning?_eq_some returning)

theorem rociAccounts_of_reachable {system : RociSystem size}
    (reachable : (rociCpus ids).Reachable system) :
    ∃ sequences, RociAccounts ids system sequences := by
  apply reachable.invariant
  · intro state initial
    obtain ⟨zeroed, away⟩ := initial
    refine ⟨fun _ => [], Refines.initial zeroed, fun cpu => ?_⟩
    rw [(away cpu).2, (away cpu).1]
    exact ⟨fun _ => List.not_mem_nil, rfl⟩
  · intro state action next accounts moved
    obtain ⟨sequences, accounts⟩ := accounts
    exact accounts.perform moved

/-- In every interleaving the two lists stand for sequences without duplicates and with
no CPU in common. While no grant or return of a CPU is in progress, it is on the list of
primary if and only if primary holds it, and on the list of idle if and only if idle
holds it and it is not pending; a pending CPU is idle's; and a CPU that is removed from
a list in a return is on that list. -/
theorem roci_lists_hold (ids : RociIds) (system : RociSystem size)
    (reachable : (rociCpus ids).Reachable system) :
    ∃ primary idle : List size.Elem,
      system.roci.lists.Represents .primaryCpus primary ∧
      system.roci.lists.Represents .idleCpus idle ∧
      primary.Nodup ∧ idle.Nodup ∧ primary.Disjoint idle ∧
      (∀ cpu, (system.holding cpu).settled = true →
        (cpu ∈ primary ↔ system.holding cpu = .held ids.primaryId ∧
          system.roci.preemptPending cpu = false) ∧
        (cpu ∈ idle ↔ system.holding cpu = .held ids.idleId ∧
          system.roci.preemptPending cpu = false) ∧
        (system.roci.preemptPending cpu = true → system.holding cpu = .held ids.idleId)) ∧
      (∀ cpu, system.roci.preemptPending cpu = true →
        (system.holding cpu).child? = some ids.idleId) ∧
      ∀ cpu child how, system.holding cpu = .returning child how →
        system.roci.preemptPending cpu = false →
        (system.roci.comesBack ids child cpu how).lists =
            system.roci.lists.remove (Roci.childList ids child) cpu ∧
          (Roci.childList ids child = .primaryCpus → cpu ∈ primary) ∧
          (Roci.childList ids child = .idleCpus → cpu ∈ idle) := by
  obtain ⟨sequences, accounts⟩ := rociAccounts_of_reachable reachable
  have refines := accounts.refines
  refine ⟨sequences .primaryCpus, sequences .idleCpus, refines.represents _, refines.represents _,
    refines.nodup _, refines.nodup _, ?_, ?_, ?_, ?_⟩
  · intro cpu isPrimary isIdle
    cases refines.apart _ _ cpu isPrimary isIdle
  · intro cpu settled
    have membership := accounts.membership cpu
    simp only [Holding.child?_of_settled settled] at membership
    exact membership
  · intro cpu
    exact (accounts.membership cpu).2.2
  · intro cpu child how returning clear
    have listed := accounts.listed returning clear
    refine ⟨?_, ?_, ?_⟩
    · rw [accounts.comesBack_eq returning]
      simp [Roci.returned, clear]
    · intro isPrimary
      rwa [isPrimary] at listed
    · intro isIdle
      rwa [isIdle] at listed

/-! ## A run -/

def biffAndIdle : RociIds := ⟨2, 3, by decide, by decide, by decide⟩

def rociStart : RociSystem maxCpus where
  roci := ⟨⟨fun _ => ⟨0, 0⟩, fun _ => ⟨0, 0⟩⟩, fun _ => false⟩
  holding _ := .away

/-- Idle gets two CPUs, and a request takes the one at the head of its list. -/
def idleRequested : List (RociAction maxCpus) :=
  [.move firstCpu .allocate, .pick firstCpu false, .move firstCpu .grant,
    .move secondCpu .allocate, .pick secondCpu false, .move secondCpu .grant, .request]

/-- The CPU comes back, and is granted to idle again before the preemption reaches it. -/
def grantedAgain : List (RociAction maxCpus) :=
  [.move secondCpu (.leave .returned), .account secondCpu, .pick secondCpu false,
    .move secondCpu .grant]

/-- The preemption takes it from idle a second time. -/
def takenTwice : List (RociAction maxCpus) :=
  [.move secondCpu (.leave .preemptionCompleted)]

def rociAfter (actions : List (RociAction maxCpus)) : RociSystem maxCpus :=
  (actions.foldlM (RociSystem.perform biffAndIdle) rociStart).getD rociStart

private theorem rociAfter_reachable {actions : List (RociAction maxCpus)}
    (possible : actions.foldlM (RociSystem.perform biffAndIdle) rociStart =
      some (rociAfter actions)) : (rociCpus biffAndIdle).Reachable (rociAfter actions) :=
  ⟨rociStart, actions, ⟨fun _ => rfl, fun _ => ⟨rfl, rfl⟩⟩,
    Machine.Run.of_foldlM_some (fun _ _ _ performed => performed) possible⟩

/-- Pending and off the list after the request, back on it when granted again, and on the
list that the second return removes it from. -/
theorem roci_lists_hold_twice :
    (∃ idle : List maxCpus.Elem, (rociAfter idleRequested).roci.lists.Represents .idleCpus idle ∧
      (rociAfter idleRequested).roci.preemptPending secondCpu = true ∧ secondCpu ∉ idle ∧
      firstCpu ∈ idle) ∧
    (∃ idle : List maxCpus.Elem,
      (rociAfter (idleRequested ++ grantedAgain)).roci.lists.Represents .idleCpus idle ∧
      (rociAfter (idleRequested ++ grantedAgain)).roci.preemptPending secondCpu = false ∧
      secondCpu ∈ idle ∧ firstCpu ∈ idle) ∧
    ∃ idle : List maxCpus.Elem,
      (rociAfter (idleRequested ++ grantedAgain ++ takenTwice)).roci.lists.Represents
        .idleCpus idle ∧
      (rociAfter (idleRequested ++ grantedAgain ++ takenTwice)).holding secondCpu =
        .returning 3 .preemptionCompleted ∧
      secondCpu ∈ idle := by
  refine ⟨?_, ?_, ?_⟩
  · obtain ⟨_, idle, _, represents, _, _, _, settled, _⟩ :=
      roci_lists_hold biffAndIdle _ (@rociAfter_reachable idleRequested rfl)
    refine ⟨idle, represents, rfl, ?_, (settled firstCpu rfl).2.1.mpr ⟨rfl, rfl⟩⟩
    intro listed
    cases ((settled secondCpu rfl).2.1.mp listed).2
  · obtain ⟨_, idle, _, represents, _, _, _, settled, _⟩ :=
      roci_lists_hold biffAndIdle _ (@rociAfter_reachable (idleRequested ++ grantedAgain) rfl)
    exact ⟨idle, represents, rfl, (settled secondCpu rfl).2.1.mpr ⟨rfl, rfl⟩,
      (settled firstCpu rfl).2.1.mpr ⟨rfl, rfl⟩⟩
  · obtain ⟨_, idle, _, represents, _, _, _, _, _, removed⟩ :=
      roci_lists_hold biffAndIdle _
        (@rociAfter_reachable (idleRequested ++ grantedAgain ++ takenTwice) rfl)
    exact ⟨idle, represents, rfl, (removed secondCpu 3 .preemptionCompleted rfl rfl).2.2 rfl⟩

end Ghost.Flux
