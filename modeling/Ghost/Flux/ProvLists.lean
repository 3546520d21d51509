import Ghost.Flux.Prov

/-!
# Prov's lists and the order of its victims

A CPU is on the list of the child that owns it until prov takes it off to preempt it, and
a priority CPU is then on `priority_cpus` as well, last's before next's.
-/

set_option autoImplicit false

namespace Ghost.Flux

open Lib Bpf

variable {size : ArrSize} {config : ProvConfig size}

/-- Where a CPU is listed, by its fields and by the child that has, gets or gives back
the CPU. -/
structure ProvPlaced (config : ProvConfig size) (children : Sequences size ProvList)
    (priority : Sequences size Unit) (owningChild : Nat) (pending : Bool) (cpu : size.Elem)
    (child : Option Nat) : Prop where
  nexts : cpu ∈ children .nextsCpus ↔ owningChild = config.ids.nextId ∧ pending = false
  lasts : cpu ∈ children .lastsCpus ↔ owningChild = config.ids.lastId ∧ pending = false
  priority : cpu ∈ priority () ↔ config.priority cpu = true ∧ ∃ list, cpu ∈ children list
  pending : pending = true →
    owningChild = config.ids.nextId ∨ owningChild = config.ids.lastId
  owner : child.getD 0 = owningChild
  notNone : child ≠ some 0

private theorem ProvPlaced.congr {children children' : Sequences size ProvList}
    {priority priority' : Sequences size Unit} {owningChild : Nat} {pending : Bool}
    {cpu : size.Elem} {child : Option Nat}
    (placed : ProvPlaced config children priority owningChild pending cpu child)
    (same : ∀ list, cpu ∈ children' list ↔ cpu ∈ children list)
    (samePriority : cpu ∈ priority' () ↔ cpu ∈ priority ()) :
    ProvPlaced config children' priority' owningChild pending cpu child := by
  constructor
  · exact (same _).trans placed.nexts
  · exact (same _).trans placed.lasts
  · simp only [same]
    exact samePriority.trans placed.priority
  · exact placed.pending
  · exact placed.owner
  · exact placed.notNone

private theorem ProvPlaced.of_absent {children : Sequences size ProvList}
    {priority : Sequences size Unit} {owningChild : Nat} {pending : Bool} {cpu : size.Elem}
    {child : Option Nat} (absent : ∀ list, cpu ∉ children list) (unlisted : cpu ∉ priority ())
    (nexts : ¬(owningChild = config.ids.nextId ∧ pending = false))
    (lasts : ¬(owningChild = config.ids.lastId ∧ pending = false))
    (isPending : pending = true →
      owningChild = config.ids.nextId ∨ owningChild = config.ids.lastId)
    (owner : child.getD 0 = owningChild) (notNone : child ≠ some 0) :
    ProvPlaced config children priority owningChild pending cpu child := by
  constructor
  · simp only [absent, nexts]
  · simp only [absent, lasts]
  · simp only [unlisted, absent, exists_false, and_false]
  · exact isPending
  · exact owner
  · exact notNone

structure ProvAccounts (config : ProvConfig size) (system : ProvSystem size)
    (children : Sequences size ProvList) (priority : Sequences size Unit) : Prop where
  childLists : Refines (system.prov.childLists, children)
  priorityCpus : Refines (system.prov.priorityCpus, priority)
  placed : ∀ cpu, ProvPlaced config children priority (system.prov.owningChild cpu)
    (system.prov.preemptPending cpu) cpu (system.holding cpu).child?
  /-- No CPU of next's comes before one of last's. -/
  ordered : (priority ()).Pairwise fun earlier later =>
    ¬(system.prov.owningChild earlier = config.ids.nextId ∧
      system.prov.owningChild later = config.ids.lastId)

/-- Only one CPU changes. -/
structure Elsewhere (prov prov' : Prov size) (children children' : Sequences size ProvList)
    (priority priority' : Sequences size Unit) (changed : size.Elem) : Prop where
  children : ∀ cpu, cpu ≠ changed → ∀ list, cpu ∈ children' list ↔ cpu ∈ children list
  priority : ∀ cpu, cpu ≠ changed → (cpu ∈ priority' () ↔ cpu ∈ priority ())
  owningChild : ∀ cpu, cpu ≠ changed → prov'.owningChild cpu = prov.owningChild cpu
  preemptPending : ∀ cpu, cpu ≠ changed → prov'.preemptPending cpu = prov.preemptPending cpu

section Changes

variable {system : ProvSystem size} {children children' : Sequences size ProvList}
  {priority priority' : Sequences size Unit} (accounts : ProvAccounts config system children priority)
include accounts

private theorem ProvAccounts.change {changed : size.Elem} (prov : Prov size) (holding : Holding)
    (childLists : Refines (prov.childLists, children'))
    (priorityCpus : Refines (prov.priorityCpus, priority'))
    (elsewhere : Elsewhere system.prov prov children children' priority priority' changed)
    (placed : ProvPlaced config children' priority' (prov.owningChild changed)
      (prov.preemptPending changed) changed holding.child?)
    (ordered : (priority' ()).Pairwise fun earlier later =>
      ¬(prov.owningChild earlier = config.ids.nextId ∧
        prov.owningChild later = config.ids.lastId)) :
    ProvAccounts config ⟨prov, Function.update system.holding changed holding⟩ children'
      priority' := by
  refine ⟨childLists, priorityCpus, fun cpu => ?_, ordered⟩
  by_cases same : cpu = changed
  · subst same
    simpa using placed
  · simp only [Function.update_of_ne same, elsewhere.owningChild cpu same,
      elsewhere.preemptPending cpu same]
    exact (accounts.placed cpu).congr (elsewhere.children cpu same) (elsewhere.priority cpu same)

private theorem ProvAccounts.ordered_of_sublist (owningChild : size.Elem → Nat)
    {changed : size.Elem}
    {listed : List size.Elem} (sublist : listed.Sublist (priority ()))
    (unlisted : changed ∉ listed)
    (same : ∀ cpu, cpu ≠ changed → owningChild cpu = system.prov.owningChild cpu) :
    listed.Pairwise fun earlier later =>
      ¬(owningChild earlier = config.ids.nextId ∧ owningChild later = config.ids.lastId) := by
  apply (accounts.ordered.sublist sublist).imp_of_mem
  intro earlier later isEarlier isLater inOrder
  rw [same earlier (by rintro rfl; exact unlisted isEarlier),
    same later (by rintro rfl; exact unlisted isLater)]
  exact inOrder

private theorem ProvAccounts.absent (cpu : size.Elem)
    (nobody : (system.holding cpu).child? = none) :
    (∀ list, cpu ∉ children list) ∧ cpu ∉ priority () ∧
      system.prov.preemptPending cpu = false := by
  have placed := accounts.placed cpu
  have owner := placed.owner
  rw [nobody] at owner
  have absent : ∀ list, cpu ∉ children list := by
    intro list
    cases list with
    | nextsCpus =>
        rw [placed.nexts, ← owner]
        exact fun listed => config.ids.next_ne_none listed.1.symm
    | lastsCpus =>
        rw [placed.lasts, ← owner]
        exact fun listed => config.ids.last_ne_none listed.1.symm
  refine ⟨absent, ?_, ?_⟩
  · rw [placed.priority]
    rintro ⟨_, list, listed⟩
    exact absent list listed
  · rw [← Bool.not_eq_true]
    intro isPending
    rcases placed.pending isPending with isNext | isLast
    · exact config.ids.next_ne_none (isNext.symm.trans owner.symm)
    · exact config.ids.last_ne_none (isLast.symm.trans owner.symm)

/-! ## Removing a CPU -/

/-- Lists from which a CPU is gone. -/
structure Removal (childLists : ArrLists size ProvList) (priorityCpus : ArrLists size Unit)
    (children children' : Sequences size ProvList) (priority priority' : Sequences size Unit)
    (cpu : size.Elem) : Prop where
  childLists : Refines (childLists, children')
  priorityCpus : Refines (priorityCpus, priority')
  absent : ∀ list, cpu ∉ children' list
  unlisted : cpu ∉ priority' ()
  sameChildren : ∀ other, other ≠ cpu → ∀ list, other ∈ children' list ↔ other ∈ children list
  samePriority : ∀ other, other ≠ cpu → (other ∈ priority' () ↔ other ∈ priority ())
  sublist : (priority' ()).Sublist (priority ())

private theorem ProvAccounts.removal {cpu : size.Elem} {list : ProvList}
    (listed : cpu ∈ children list) :
    ∃ children' priority', Removal (system.prov.removeFromChildList config cpu list).childLists
      (system.prov.removeFromChildList config cpu list).priorityCpus children children' priority
      priority' cpu := by
  have absent : ∀ other,
      cpu ∉ Function.update children list ((children list).erase cpu) other := by
    intro other
    by_cases isList : other = list
    · subst isList
      rw [Function.update_self]
      exact (accounts.childLists.nodup _).not_mem_erase
    · rw [Function.update_of_ne isList]
      intro elsewhere
      exact isList (accounts.childLists.apart _ _ cpu elsewhere listed)
  have others : ∀ other, other ≠ cpu → ∀ head,
      other ∈ Function.update children list ((children list).erase cpu) head ↔
        other ∈ children head := fun _ ne head => mem_update_erase ne head
  cases isPriority : config.priority cpu with
  | true =>
      have prioritized : cpu ∈ priority () :=
        (accounts.placed cpu).priority.mpr ⟨isPriority, list, listed⟩
      refine ⟨_, Function.update priority () ((priority ()).erase cpu),
        accounts.childLists.remove listed, ?_, absent, ?_, others, ?_, ?_⟩
      · simpa [Prov.removeFromChildList, isPriority] using
          accounts.priorityCpus.remove prioritized
      · rw [Function.update_self]
        exact (accounts.priorityCpus.nodup _).not_mem_erase
      · intro other ne
        exact mem_update_erase ne ()
      · rw [Function.update_self]
        exact List.erase_sublist
  | false =>
      refine ⟨_, priority, accounts.childLists.remove listed, ?_, absent, ?_, others,
        fun _ _ => Iff.rfl, List.Sublist.refl _⟩
      · simpa [Prov.removeFromChildList, isPriority] using accounts.priorityCpus
      · rw [(accounts.placed cpu).priority, isPriority]
        simp

private theorem ProvAccounts.marks {cpu : size.Elem} {list : ProvList}
    (listed : cpu ∈ children list) :
    ∃ children' priority', ProvAccounts config
      { system with
        prov := (system.prov.removeFromChildList config cpu list).setPreemptPending cpu true }
      children' priority' := by
  obtain ⟨children', priority', removal⟩ := accounts.removal listed
  have placed := accounts.placed cpu
  have changed := accounts.change
    ((system.prov.removeFromChildList config cpu list).setPreemptPending cpu true)
    (system.holding cpu) removal.childLists removal.priorityCpus
    ⟨removal.sameChildren, removal.samePriority, fun _ _ => rfl, fun other ne => by
      simp [Prov.setPreemptPending, Prov.removeFromChildList, ne]⟩
  rw [Function.update_eq_self] at changed
  refine ⟨children', priority', changed ?_ ?_⟩
  · apply ProvPlaced.of_absent removal.absent removal.unlisted
    · simp [Prov.setPreemptPending]
    · simp [Prov.setPreemptPending]
    · intro _
      cases list with
      | nextsCpus => exact .inl (placed.nexts.mp listed).1
      | lastsCpus => exact .inr (placed.lasts.mp listed).1
    · exact placed.owner
    · exact placed.notNone
  · exact accounts.ordered_of_sublist _ removal.sublist removal.unlisted fun _ _ => rfl

/-- The list that `__prio_request_for_cpus` removes its victim from is the one it is
on. -/
theorem ProvAccounts.prioVictim_listed {victim : size.Elem}
    (isVictim : system.prov.prioVictim = some victim) :
    victim ∈ children (if system.prov.owningChild victim = config.ids.nextId then .nextsCpus
      else .lastsCpus) := by
  have placed := accounts.placed victim
  have somewhere : ∃ list, victim ∈ children list := by
    rw [Prov.prioVictim, Option.or_eq_some_iff, Option.or_eq_some_iff] at isVictim
    rcases isVictim with isFirst | ⟨_, isFirst | ⟨_, isFirst⟩⟩
    · exact (placed.priority.mp (accounts.priorityCpus.mem_of_first isFirst)).2
    · exact ⟨_, accounts.childLists.mem_of_first isFirst⟩
    · exact ⟨_, accounts.childLists.mem_of_first isFirst⟩
  obtain ⟨list, listed⟩ := somewhere
  cases list with
  | nextsCpus => rwa [if_pos (placed.nexts.mp listed).1]
  | lastsCpus =>
      have isLast := (placed.lasts.mp listed).1
      rwa [if_neg (isLast ▸ config.ids.last_ne_next)]

private theorem ProvAccounts.prioRequests :
    ∃ children' priority', ProvAccounts config
      { system with prov := system.prov.prioRequestForCpus config } children' priority' := by
  cases isVictim : system.prov.prioVictim with
  | none =>
      simp only [Prov.prioRequestForCpus, isVictim, Option.elim_none]
      exact ⟨children, priority, accounts⟩
  | some victim =>
      simp only [Prov.prioRequestForCpus, isVictim, Option.elim_some]
      exact accounts.marks (accounts.prioVictim_listed isVictim)

private theorem ProvAccounts.nextRequests :
    ∃ children' priority', ProvAccounts config
      { system with prov := system.prov.nextRequestForCpus config } children' priority' := by
  cases isFirst : system.prov.childLists.first .lastsCpus with
  | none =>
      simp only [Prov.nextRequestForCpus, isFirst, Option.elim_none]
      exact ⟨children, priority, accounts⟩
  | some victim =>
      simp only [Prov.nextRequestForCpus, isFirst, Option.elim_some]
      exact accounts.marks (accounts.childLists.mem_of_first isFirst)

/-! ## CPUs that come back -/

private theorem ProvAccounts.clears {cpu : size.Elem} {how : Return} {prov : Prov size}
    (removal : Removal prov.childLists prov.priorityCpus children children' priority priority' cpu)
    (owningChild : prov.owningChild = Function.update system.prov.owningChild cpu 0)
    (clear : prov.preemptPending cpu = false)
    (preemptPending : ∀ other, other ≠ cpu →
      prov.preemptPending other = system.prov.preemptPending other) :
    ProvAccounts config ⟨prov, Function.update system.holding cpu how.after⟩ children'
      priority' := by
  have same : ∀ other, other ≠ cpu → prov.owningChild other = system.prov.owningChild other := by
    intro other ne
    rw [owningChild, Function.update_of_ne ne]
  apply accounts.change prov how.after removal.childLists removal.priorityCpus
    ⟨removal.sameChildren, removal.samePriority, same, preemptPending⟩
  · rw [owningChild, Function.update_self, clear, how.after_child?]
    apply ProvPlaced.of_absent removal.absent removal.unlisted
    · exact fun isNext => config.ids.next_ne_none isNext.1.symm
    · exact fun isLast => config.ids.last_ne_none isLast.1.symm
    · simp
    · rfl
    · simp
  · exact accounts.ordered_of_sublist _ removal.sublist removal.unlisted same

private theorem ProvAccounts.unlisted {cpu : size.Elem} (absent : ∀ list, cpu ∉ children list) :
    Removal system.prov.childLists system.prov.priorityCpus children children priority priority
      cpu := by
  refine ⟨accounts.childLists, accounts.priorityCpus, absent, ?_, fun _ _ _ => Iff.rfl,
    fun _ _ => Iff.rfl, List.Sublist.refl _⟩
  rw [(accounts.placed cpu).priority]
  rintro ⟨_, list, listed⟩
  exact absent list listed

private theorem ProvAccounts.comesBack_eq {cpu : size.Elem} {child : Nat} {how : Return}
    (returning : system.holding cpu = .returning child how) :
    system.prov.comesBack config child cpu how = system.prov.returned config child cpu := by
  have notNone : child ≠ 0 := by
    intro isNone
    apply (accounts.placed cpu).notNone
    rw [returning, isNone]
    rfl
  cases how with
  | returned => rfl
  | preempted => exact if_neg notNone
  | preemptionCompleted => exact if_neg notNone

private theorem ProvAccounts.returns {cpu : size.Elem} {child : Nat} {how : Return}
    (returning : system.holding cpu = .returning child how) :
    ∃ children' priority', ProvAccounts config
      { prov := system.prov.comesBack config child cpu how
        holding := Function.update system.holding cpu how.after } children' priority' := by
  rw [accounts.comesBack_eq returning]
  have placed := accounts.placed cpu
  have owner : child = system.prov.owningChild cpu := by
    have owner := placed.owner
    rw [returning] at owner
    exact owner
  cases isPending : system.prov.preemptPending cpu with
  | true =>
      have absent : ∀ list, cpu ∉ children list := by
        intro list
        cases list with
        | nextsCpus => simp [placed.nexts, isPending]
        | lastsCpus => simp [placed.lasts, isPending]
      refine ⟨children, priority, accounts.clears ?_ ?_ ?_ ?_⟩
      · simpa [Prov.returned, isPending, Prov.setPreemptPending, Prov.setOwningChild] using
          accounts.unlisted absent
      · simp [Prov.returned, isPending, Prov.setPreemptPending, Prov.setOwningChild]
      · simp [Prov.returned, isPending, Prov.setPreemptPending]
      · intro other ne
        simp [Prov.returned, isPending, Prov.setPreemptPending, Prov.setOwningChild, ne]
  | false =>
      cases isList : Prov.childList config.ids child with
      | some list =>
          have listed : cpu ∈ children list := by
            simp only [Prov.childList] at isList
            split_ifs at isList with isNext isLast
            · cases isList
              exact placed.nexts.mpr ⟨owner.symm.trans isNext, isPending⟩
            · cases isList
              exact placed.lasts.mpr ⟨owner.symm.trans isLast, isPending⟩
          obtain ⟨children', priority', removal⟩ := accounts.removal listed
          refine ⟨children', priority', accounts.clears ?_ ?_ ?_ ?_⟩
          · simpa [Prov.returned, isPending, isList, Prov.removeFromChildList,
              Prov.setOwningChild] using removal
          · simp [Prov.returned, isPending, isList, Prov.removeFromChildList, Prov.setOwningChild]
          · simp [Prov.returned, isPending, isList, Prov.removeFromChildList, Prov.setOwningChild]
          · intro other _
            simp [Prov.returned, isPending, isList, Prov.removeFromChildList, Prov.setOwningChild]
      | none =>
          have absent : ∀ list, cpu ∉ children list := by
            simp only [Prov.childList] at isList
            split_ifs at isList with isNext isLast
            intro list
            cases list with
            | nextsCpus =>
                rw [placed.nexts, ← owner]
                exact fun listed => isNext listed.1
            | lastsCpus =>
                rw [placed.lasts, ← owner]
                exact fun listed => isLast listed.1
          refine ⟨children, priority, accounts.clears ?_ ?_ ?_ ?_⟩
          · simpa [Prov.returned, isPending, isList, Prov.setOwningChild] using
              accounts.unlisted absent
          · simp [Prov.returned, isPending, isList, Prov.setOwningChild]
          · simp [Prov.returned, isPending, isList, Prov.setOwningChild]
          · intro other _
            simp [Prov.returned, isPending, isList, Prov.setOwningChild]

/-! ## CPUs that are granted -/

private theorem ProvAccounts.assigns {cpu : size.Elem} (here : system.holding cpu = .here)
    {owner : Nat} (notNext : owner ≠ config.ids.nextId) (notLast : owner ≠ config.ids.lastId)
    {holding : Holding} (isOwner : holding.child?.getD 0 = owner)
    (notNone : holding.child? ≠ some 0) :
    ProvAccounts config ⟨system.prov.setOwningChild cpu owner,
      Function.update system.holding cpu holding⟩ children priority := by
  obtain ⟨absent, unlisted, clear⟩ := accounts.absent cpu (by rw [here]; rfl)
  have same : ∀ other, other ≠ cpu →
      (system.prov.setOwningChild cpu owner).owningChild other =
        system.prov.owningChild other := by
    intro other ne
    simp [Prov.setOwningChild, ne]
  apply accounts.change (system.prov.setOwningChild cpu owner) holding accounts.childLists
    accounts.priorityCpus ⟨fun _ _ _ => Iff.rfl, fun _ _ => Iff.rfl, same, fun _ _ => rfl⟩
  · apply ProvPlaced.of_absent absent unlisted
    · simp [Prov.setOwningChild, notNext]
    · simp [Prov.setOwningChild, notLast]
    · intro isPending
      exact absurd (clear.symm.trans isPending) (by simp)
    · simpa [Prov.setOwningChild] using isOwner
    · exact notNone
  · exact accounts.ordered_of_sublist _ (List.Sublist.refl _) unlisted same

private theorem ProvAccounts.grants {cpu : size.Elem} (here : system.holding cpu = .here)
    {prov : Prov size} {list : ProvList} {owner : Nat}
    (childLists : prov.childLists = system.prov.childLists.insertHead list cpu)
    (owningChild : prov.owningChild = Function.update system.prov.owningChild cpu owner)
    (preemptPending : prov.preemptPending = system.prov.preemptPending)
    (nexts : list = .nextsCpus ↔ owner = config.ids.nextId)
    (lasts : list = .lastsCpus ↔ owner = config.ids.lastId) (notNone : owner ≠ 0)
    (priorityCpus : Refines (prov.priorityCpus, priority'))
    (samePriority : ∀ other, other ≠ cpu → (other ∈ priority' () ↔ other ∈ priority ()))
    (prioritized : cpu ∈ priority' () ↔ config.priority cpu = true)
    (ordered : (priority' ()).Pairwise fun earlier later =>
      ¬(prov.owningChild earlier = config.ids.nextId ∧
        prov.owningChild later = config.ids.lastId)) :
    ProvAccounts config ⟨prov, Function.update system.holding cpu (.granting owner)⟩
      (Function.update children list (cpu :: children list)) priority' := by
  obtain ⟨absent, unlisted, clear⟩ := accounts.absent cpu (by rw [here]; rfl)
  have listed : ∀ other, cpu ∈ Function.update children list (cpu :: children list) other ↔
      list = other := by
    intro other
    by_cases isList : other = list
    · subst isList
      simp
    · simp [isList, absent other, Ne.symm isList]
  apply accounts.change prov (.granting owner) (childLists ▸ accounts.childLists.insertHead absent)
    priorityCpus
  · constructor
    · exact fun other ne head => mem_update_cons ne head
    · exact samePriority
    · intro other ne
      rw [owningChild, Function.update_of_ne ne]
    · intro other _
      rw [preemptPending]
  · rw [owningChild, Function.update_self, preemptPending, clear]
    constructor
    · rw [listed, nexts]
      simp
    · rw [listed, lasts]
      simp
    · simp only [listed, prioritized, exists_eq', and_true]
    · simp
    · rfl
    · simpa [Holding.child?] using notNone
  · exact ordered

/-- A priority CPU that goes to next comes after all others. -/
theorem ProvAccounts.grantsNext {cpu : size.Elem} (here : system.holding cpu = .here) :
    ∃ children' priority', ProvAccounts config ⟨system.prov.grantNext config cpu,
      Function.update system.holding cpu (.granting config.ids.nextId)⟩ children' priority' := by
  obtain ⟨absent, unlisted, clear⟩ := accounts.absent cpu (by rw [here]; rfl)
  have others := accounts.ordered_of_sublist (system.prov.grantNext config cpu).owningChild
    (List.Sublist.refl _) unlisted (by
      intro other ne
      simp [Prov.grantNext, ne])
  cases isPriority : config.priority cpu with
  | true =>
      refine ⟨_, Function.update priority () (priority () ++ [cpu]), accounts.grants here
        rfl rfl rfl (by simp) ?_ config.ids.next_ne_none ?_ ?_ ?_ ?_⟩
      · simp [config.ids.last_ne_next.symm]
      · simpa [Prov.grantNext, isPriority] using
          accounts.priorityCpus.insertTail fun _ => unlisted
      · intro other ne
        exact mem_update_append ne ()
      · simp [isPriority]
      · rw [Function.update_self, List.pairwise_append]
        refine ⟨others, List.pairwise_singleton _ _, ?_⟩
        intro earlier _ later isLater
        cases List.mem_singleton.mp isLater
        simp [Prov.grantNext, config.ids.last_ne_next.symm]
  | false =>
      refine ⟨_, priority, accounts.grants here rfl rfl rfl (by simp)
        ?_ config.ids.next_ne_none ?_ (fun _ _ => Iff.rfl) ?_ others⟩
      · simp [config.ids.last_ne_next.symm]
      · simpa [Prov.grantNext, isPriority] using accounts.priorityCpus
      · simp [isPriority, unlisted]

/-- A priority CPU that goes to last comes before all others. -/
theorem ProvAccounts.grantsLast {cpu : size.Elem} (here : system.holding cpu = .here) :
    ∃ children' priority', ProvAccounts config ⟨system.prov.grantLast config cpu,
      Function.update system.holding cpu (.granting config.ids.lastId)⟩ children' priority' := by
  obtain ⟨absent, unlisted, clear⟩ := accounts.absent cpu (by rw [here]; rfl)
  have others := accounts.ordered_of_sublist (system.prov.grantLast config cpu).owningChild
    (List.Sublist.refl _) unlisted (by
      intro other ne
      simp [Prov.grantLast, ne])
  cases isPriority : config.priority cpu with
  | true =>
      refine ⟨_, Function.update priority () (cpu :: priority ()), accounts.grants here
        rfl rfl rfl ?_ (by simp) config.ids.last_ne_none ?_ ?_ ?_ ?_⟩
      · simp [config.ids.last_ne_next]
      · simpa [Prov.grantLast, isPriority] using
          accounts.priorityCpus.insertHead fun _ => unlisted
      · intro other ne
        exact mem_update_cons ne ()
      · simp [isPriority]
      · rw [Function.update_self, List.pairwise_cons]
        refine ⟨?_, others⟩
        intro later _
        simp [Prov.grantLast, config.ids.last_ne_next]
  | false =>
      refine ⟨_, priority, accounts.grants here rfl rfl rfl ?_
        (by simp) config.ids.last_ne_none ?_ (fun _ _ => Iff.rfl) ?_ others⟩
      · simp [config.ids.last_ne_next]
      · simpa [Prov.grantLast, isPriority] using accounts.priorityCpus
      · simp [isPriority, unlisted]

private theorem ProvAccounts.picks {cpu : size.Elem} (here : system.holding cpu = .here)
    (needs : Prov.Needs) :
    ∃ children' priority', ProvAccounts config
      { prov := (system.prov.pickNextTask config cpu needs).2
        holding := Function.update system.holding cpu
          (system.prov.pickNextTask config cpu needs).1 } children' priority' := by
  unfold Prov.pickNextTask
  split_ifs with prio next last
  · exact ⟨children, priority, accounts.assigns here config.ids.next_ne_prio.symm
      config.ids.last_ne_prio.symm rfl (by simpa [Holding.child?] using config.ids.prio_ne_none)⟩
  · exact accounts.grantsNext here
  · exact accounts.grantsLast here
  · exact ⟨children, priority, accounts.assigns here config.ids.next_ne_none.symm
      config.ids.last_ne_none.symm rfl (by simp [Holding.child?])⟩

/-! ## Runs -/

private theorem ProvAccounts.perform {next : ProvSystem size} {action : ProvAction size}
    (performed : system.perform config action = some next) :
    ∃ children' priority', ProvAccounts config next children' priority' := by
  cases action with
  | move cpu movement =>
      obtain ⟨holding, moved, rfl⟩ := Option.map_eq_some_iff.mp performed
      refine ⟨children, priority, accounts.change system.prov holding accounts.childLists
        accounts.priorityCpus ⟨fun _ _ _ => Iff.rfl, fun _ _ => Iff.rfl, fun _ _ => rfl,
          fun _ _ => rfl⟩ ?_ accounts.ordered⟩
      rw [Holding.move_child? moved]
      exact accounts.placed cpu
  | prioRequest =>
      cases performed
      exact accounts.prioRequests
  | nextRequest =>
      cases performed
      exact accounts.nextRequests
  | pick cpu needs =>
      simp only [ProvSystem.perform, Option.ite_none_right_eq_some, Option.some.injEq] at performed
      obtain ⟨here, rfl⟩ := performed
      exact accounts.picks here needs
  | account cpu =>
      obtain ⟨back, returning, rfl⟩ := Option.map_eq_some_iff.mp performed
      exact accounts.returns (Holding.returning?_eq_some returning)

/-- The first of `priority_cpus` is next's only if last has no priority CPU. -/
theorem ProvAccounts.prioVictim_order {victim : size.Elem}
    (isVictim : system.prov.prioVictim = some victim)
    (isNext : system.prov.owningChild victim = config.ids.nextId) (cpu : size.Elem)
    (isPriority : config.priority cpu = true) : cpu ∉ children .lastsCpus := by
  intro isLast
  have member : cpu ∈ priority () := (accounts.placed cpu).priority.mpr ⟨isPriority, _, isLast⟩
  have first : system.prov.priorityCpus.first () = some victim := by
    rw [Prov.prioVictim, Option.or_eq_some_iff] at isVictim
    rcases isVictim with isFirst | ⟨isEmpty, _⟩
    · exact isFirst
    · rw [accounts.priorityCpus.first_eq, List.head?_eq_none_iff] at isEmpty
      exact absurd member (by rw [isEmpty]; exact List.not_mem_nil)
  rw [accounts.priorityCpus.first_eq] at first
  have ordered := accounts.ordered
  have owner := ((accounts.placed cpu).lasts.mp isLast).1
  cases isList : priority () with
  | nil =>
      rw [isList] at member
      cases member
  | cons head rest =>
      rw [isList] at first member ordered
      cases first
      rcases List.mem_cons.mp member with rfl | later
      · exact config.ids.last_ne_next (owner.symm.trans isNext)
      · exact (List.pairwise_cons.mp ordered).1 cpu later ⟨isNext, owner⟩

omit accounts in
/-- Only the victim becomes pending in a round of `__prio_request_for_cpus`. -/
theorem prioRequestForCpus_pending {cpu : size.Elem}
    (pending : (system.prov.prioRequestForCpus config).preemptPending cpu = true) :
    system.prov.preemptPending cpu = true ∨ system.prov.prioVictim = some cpu := by
  unfold Prov.prioRequestForCpus at pending
  cases isVictim : system.prov.prioVictim with
  | none =>
      rw [isVictim] at pending
      exact .inl pending
  | some victim =>
      rw [isVictim] at pending
      by_cases same : cpu = victim
      · exact .inr (same ▸ rfl)
      · exact .inl ((Function.update_of_ne same ..).symm.trans pending)

omit accounts in
private theorem prioRequestForCpus_owningChild :
    (system.prov.prioRequestForCpus config).owningChild = system.prov.owningChild := by
  unfold Prov.prioRequestForCpus
  cases system.prov.prioVictim <;> rfl

/-- What `__prio_request_for_cpus` takes off next's list is its victim. -/
theorem ProvAccounts.taken {next : ProvSystem size} {children' : Sequences size ProvList}
    {priority' : Sequences size Unit} {victim : size.Elem}
    (accounts' : ProvAccounts config next children' priority')
    (moved : system.perform config .prioRequest = some next)
    (wasListed : victim ∈ children .nextsCpus) (unlisted : victim ∉ children' .nextsCpus) :
    system.prov.prioVictim = some victim := by
  cases moved
  obtain ⟨isNext, clear⟩ := (accounts.placed victim).nexts.mp wasListed
  have pending : (system.prov.prioRequestForCpus config).preemptPending victim = true := by
    rw [← Bool.not_eq_false]
    intro stillClear
    exact unlisted ((accounts'.placed victim).nexts.mpr
      ⟨(congrFun prioRequestForCpus_owningChild victim).trans isNext, stillClear⟩)
  cases prioRequestForCpus_pending pending with
  | inl wasPending => cases clear.symm.trans wasPending
  | inr isVictim => exact isVictim

end Changes

theorem provAccounts_of_reachable {system : ProvSystem size}
    (reachable : (provCpus config).Reachable system) :
    ∃ children priority, ProvAccounts config system children priority := by
  apply reachable.invariant
  · intro state initial
    obtain ⟨zeroed, zeroed', away⟩ := initial
    refine ⟨fun _ => [], fun _ => [], Refines.initial zeroed, Refines.initial zeroed',
      fun cpu => ?_, List.Pairwise.nil⟩
    obtain ⟨isOwner, clear, isAway⟩ := away cpu
    rw [isOwner, clear, isAway]
    apply ProvPlaced.of_absent (fun _ => List.not_mem_nil) List.not_mem_nil
    · exact fun isNext => config.ids.next_ne_none isNext.1.symm
    · exact fun isLast => config.ids.last_ne_none isLast.1.symm
    · simp
    · rfl
    · simp [Holding.child?]
  · intro state action next accounts moved
    obtain ⟨children, priority, accounts⟩ := accounts
    exact accounts.perform moved

/-- Between the locked sections of any interleaving: a CPU is on `nexts_cpus`, or
`lasts_cpus`, if and only if next, or last, owns it and it is not pending;
`priority_cpus` has exactly the priority CPUs that are on one of these lists, each once;
on it every CPU of last's comes before every CPU of next's; and
`__prio_request_for_cpus` chooses a CPU of next's, and takes one off next's list, only
while last has no priority CPU. -/
theorem prov_lists_order (config : ProvConfig size) (system : ProvSystem size)
    (reachable : (provCpus config).Reachable system) :
    ∃ nexts lasts priority : List size.Elem,
      system.prov.childLists.Represents .nextsCpus nexts ∧
      system.prov.childLists.Represents .lastsCpus lasts ∧
      system.prov.priorityCpus.Represents () priority ∧
      (∀ cpu, cpu ∈ nexts ↔ system.prov.owningChild cpu = config.ids.nextId ∧
        system.prov.preemptPending cpu = false) ∧
      (∀ cpu, cpu ∈ lasts ↔ system.prov.owningChild cpu = config.ids.lastId ∧
        system.prov.preemptPending cpu = false) ∧
      nexts.Nodup ∧ lasts.Nodup ∧ priority.Nodup ∧
      (∀ cpu, cpu ∈ priority ↔ config.priority cpu = true ∧ (cpu ∈ nexts ∨ cpu ∈ lasts)) ∧
      (∀ front back cpu, priority = front ++ cpu :: back →
        system.prov.owningChild cpu = config.ids.nextId →
        ∀ later ∈ back, system.prov.owningChild later ≠ config.ids.lastId) ∧
      (∀ victim, system.prov.prioVictim = some victim →
        system.prov.owningChild victim = config.ids.nextId →
        ∀ cpu ∈ lasts, config.priority cpu = false) ∧
      ∀ next nexts', (provCpus config).step system .prioRequest next →
        next.prov.childLists.Represents .nextsCpus nexts' →
        ∀ victim ∈ nexts, victim ∉ nexts' → ∀ cpu ∈ lasts, config.priority cpu = false := by
  obtain ⟨children, priority, accounts⟩ := provAccounts_of_reachable reachable
  have onlyThen : ∀ victim, system.prov.prioVictim = some victim →
      system.prov.owningChild victim = config.ids.nextId →
      ∀ cpu ∈ children .lastsCpus, config.priority cpu = false := by
    intro victim isVictim isNext cpu isLast
    rw [← Bool.not_eq_true]
    intro isPriority
    exact accounts.prioVictim_order isVictim isNext cpu isPriority isLast
  refine ⟨children .nextsCpus, children .lastsCpus, priority (), accounts.childLists.represents _,
    accounts.childLists.represents _, accounts.priorityCpus.represents _,
    fun cpu => (accounts.placed cpu).nexts, fun cpu => (accounts.placed cpu).lasts,
    accounts.childLists.nodup _, accounts.childLists.nodup _, accounts.priorityCpus.nodup _,
    ?_, ?_, onlyThen, ?_⟩
  · intro cpu
    rw [(accounts.placed cpu).priority]
    constructor
    · rintro ⟨isPriority, list, listed⟩
      cases list with
      | nextsCpus => exact ⟨isPriority, .inl listed⟩
      | lastsCpus => exact ⟨isPriority, .inr listed⟩
    · rintro ⟨isPriority, listed | listed⟩
      · exact ⟨isPriority, _, listed⟩
      · exact ⟨isPriority, _, listed⟩
  · intro front back cpu split isNext later isLater isLast
    have ordered := accounts.ordered
    rw [split, List.pairwise_append, List.pairwise_cons] at ordered
    exact ordered.2.1.1 later isLater ⟨isNext, isLast⟩
  · intro next nexts' moved represents victim wasListed unlisted
    obtain ⟨children', priority', accounts'⟩ := provAccounts_of_reachable (reachable.step moved)
    rw [represents.eq (accounts'.childLists.represents _)] at unlisted
    exact onlyThen victim (accounts.taken accounts' moved wasListed unlisted)
      ((accounts.placed victim).nexts.mp wasListed).1

/-! ## A run -/

/-- The third CPU is no priority CPU. -/
def twoPriority : ProvConfig maxCpus where
  ids := ⟨4, 5, 6, by decide, by decide, by decide, by decide, by decide, by decide⟩
  priority cpu := cpu != thirdCpu

def provStart : ProvSystem maxCpus where
  prov := ⟨⟨fun _ => ⟨0, 0⟩, fun _ => ⟨0, 0⟩⟩, ⟨fun _ => ⟨0, 0⟩, fun _ => ⟨0, 0⟩⟩, fun _ => 0,
    fun _ => false⟩
  holding _ := .away

/-- Next gets the first CPU and last the other two. A request takes last's priority CPU. -/
def nextThenLast : List (ProvAction maxCpus) :=
  [.move firstCpu .allocate, .pick firstCpu ⟨false, true, false⟩, .move firstCpu .grant,
    .move secondCpu .allocate, .pick secondCpu ⟨false, false, true⟩, .move thirdCpu .allocate,
    .pick thirdCpu ⟨false, false, true⟩, .prioRequest]

def afterNextThenLast : ProvSystem maxCpus :=
  (nextThenLast.foldlM (ProvSystem.perform twoPriority) provStart).getD provStart

def afterNextRequest : ProvSystem maxCpus :=
  (afterNextThenLast.perform twoPriority .prioRequest).getD provStart

/-- The second request takes the CPU of next's. The CPU that last still has is no priority CPU. -/
theorem prov_lists_order_nextThenLast :
    ∃ nexts lasts nexts', afterNextThenLast.prov.childLists.Represents .nextsCpus nexts ∧
      afterNextThenLast.prov.childLists.Represents .lastsCpus lasts ∧
      afterNextRequest.prov.childLists.Represents .nextsCpus nexts' ∧
      secondCpu ∉ lasts ∧ firstCpu ∈ nexts ∧ firstCpu ∉ nexts' ∧ thirdCpu ∈ lasts ∧
      twoPriority.priority thirdCpu = false := by
  have possible : nextThenLast.foldlM (ProvSystem.perform twoPriority) provStart =
      some afterNextThenLast := rfl
  have reachable : (provCpus twoPriority).Reachable afterNextThenLast := by
    refine ⟨provStart, nextThenLast,
      ⟨fun _ => rfl, fun _ => rfl, fun _ => ⟨rfl, rfl, rfl⟩⟩, ?_⟩
    exact Machine.Run.of_foldlM_some (fun _ _ _ performed => performed) possible
  have requested : (provCpus twoPriority).step afterNextThenLast .prioRequest afterNextRequest := rfl
  obtain ⟨nexts, lasts, _, isNexts, isLasts, _, isNext, isLast, _, _, _, _, _, _, taken⟩ :=
    prov_lists_order twoPriority afterNextThenLast reachable
  obtain ⟨nexts', _, _, isNexts', _, _, isNext', _⟩ :=
    prov_lists_order twoPriority afterNextRequest (reachable.step requested)
  have listed : firstCpu ∈ nexts := (isNext firstCpu).mpr ⟨rfl, rfl⟩
  have unlisted : firstCpu ∉ nexts' := by
    intro stillListed
    cases ((isNext' firstCpu).mp stillListed).2
  have pending : secondCpu ∉ lasts := by
    intro stillListed
    cases ((isLast secondCpu).mp stillListed).2
  have kept : thirdCpu ∈ lasts := (isLast thirdCpu).mpr ⟨rfl, rfl⟩
  exact ⟨nexts, lasts, nexts', isNexts, isLasts, isNexts', pending, listed, unlisted, kept,
    taken _ nexts' requested isNexts' firstCpu listed unlisted thirdCpu kept⟩

end Ghost.Flux
