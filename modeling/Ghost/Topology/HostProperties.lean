import Ghost.Topology.Host
import Ghost.Topology.RoundTrip

/-!
# What an accepted host topology holds

The sibling list of a CPU has the CPUs with the same line, and its core is the first
of them.
-/

set_option autoImplicit false
set_option linter.dupNamespace false

namespace Ghost.Topology

open Lib

/-! ## Beginnings -/

private theorem CpuMap.begin_least {map : CpuMap} (within : map.Within) {id : Nat}
    (isBegin : Topology.idOf map.begin.cpu = .ok id) :
    id ∈ map.setCpus ∧ ∀ other ∈ map.setCpus, id ≤ other := by
  rcases map.findNextSetBit_found within 0 with ⟨-, below, set, isCpu, none⟩ | ⟨isStop, -⟩
  · change map.begin.cpu = _ at isCpu
    rw [isCpu] at isBegin
    cases Except.ok.inj isBegin
    constructor
    · exact CpuMap.mem_setCpus.mpr ⟨below, set⟩
    · intro other member
      by_contra less
      have unset := none other (Nat.zero_le _) (Nat.lt_of_not_le less)
      exact absurd (CpuMap.mem_setCpus.mp member).2 (by rw [unset]; decide)
  · change map.begin = _ at isStop
    rw [isStop] at isBegin
    cases isBegin

namespace Topology

variable {host : Host} {numCpus : Nat}

/-- The representation of a CPU of the host. -/
structure Describes (host : Host) (numCpus : Nat) (i : Nat) (rep : CpuRep) : Prop where
  cpu : rep.cpu = i
  siblings_numCpus : rep.siblings.numCpus = numCpus
  within : rep.siblings.Within
  siblings : ∀ j, j ∈ rep.siblings.setCpus ↔
    j < numCpus ∧ host.threadSiblings j = host.threadSiblings i
  core : ∃ first : Nat, rep.core = first ∧ first ∈ rep.siblings.setCpus ∧
    ∀ j ∈ rep.siblings.setCpus, first ≤ j

/-- The lists that `GetAllSiblings` returns if there is one for every CPU. -/
theorem getAllSiblings_get {fits : numCpus ≤ MAX_CPUS} {lines : Nat → String}
    {siblings : List CpuMap} (returns : getAllSiblings numCpus fits lines = .ok siblings)
    (forAll : siblings.length = numCpus) {i : Nat} {own : CpuMap}
    (isOwn : siblings[i]? = some own) :
    Holds own numCpus
      (((List.range numCpus).filter fun other => lines other = lines i).map Int.ofNat) := by
  obtain ⟨known, -, filled⟩ := bind_eq_ok_iff.mp returns
  have related := mapM_eq_ok_iff.mp filled
  have length : known = numCpus := by
    rw [← forAll, ← related.length_eq, List.length_range]
  subst length
  obtain ⟨inRange, rfl⟩ := List.getElem?_eq_some_iff.mp isOwn
  have built := related.get (i := i) (by simpa [forAll] using inRange) inRange
  simp only [List.get_eq_getElem, List.getElem_range] at built
  apply (toCpuList_succeeds fits _).elim built
  intro id member
  obtain ⟨other, isOther, rfl⟩ := List.mem_map.mp member
  have := List.mem_range.mp (List.mem_of_mem_filter isOther)
  simp only [Int.ofNat_eq_natCast]
  omega

private theorem fillHostRep_describes {fits : numCpus ≤ MAX_CPUS}
    {siblings l3Siblings : List CpuMap}
    (returns : getAllSiblings numCpus fits host.threadSiblings = .ok siblings)
    (forAll : siblings.length = numCpus) {i : Nat} {rep : CpuRep}
    (fills : fillHostRep host numCpus fits siblings l3Siblings i = .ok rep) :
    Describes host numCpus i rep := by
  unfold fillHostRep at fills
  cases isOwn : siblings[i]? with
  | none =>
      rw [isOwn] at fills
      cases fills
  | some own =>
      rw [isOwn] at fills
      simp only [bind_eq_ok_iff] at fills
      obtain ⟨l3, -, core, isCore, ⟨⟩, -, ⟨⟩, -, same⟩ := fills
      cases same
      have holds := getAllSiblings_get returns forAll isOwn
      have valid : Valid numCpus (((List.range numCpus).filter fun other =>
          host.threadSiblings other = host.threadSiblings i).map Int.ofNat) := by
        intro id member
        obtain ⟨other, isOther, rfl⟩ := List.mem_map.mp member
        have := List.mem_range.mp (List.mem_of_mem_filter isOther)
        simp only [Int.ofNat_eq_natCast]
        omega
      have within := holds.within valid
      refine ⟨rfl, holds.1, within, ?_, core, rfl, CpuMap.begin_least within isCore⟩
      intro j
      rw [holds.mem_setCpus valid]
      simp

/-- The members of a topology against the host. -/
structure HostBuilt (host : Host) (topology : Topology) : Prop where
  allCpus : Holds topology.allCpus topology.numCpus ((List.range topology.numCpus).map Int.ofNat)
  cpus : List.Forall₂ (Describes host topology.numCpus) (List.range topology.numCpus) topology.cpus
  numCpus : topology.numCpus = host.hardwareConcurrency
  highestNodeIdx : 0 ≤ topology.highestNodeIdx ∧ topology.highestNodeIdx < intMax
  numbering : topology.checkConsecutiveSmtNumbering = .ok topology.consecutiveSmtNumbering

private theorem getHighestNodeIdx_nonneg {nodePossible : List (Option Int)} {highest : Int}
    (returns : getHighestNodeIdx nodePossible = .ok highest) : 0 ≤ highest := by
  apply @foldlM_invariant _ _ _ _ (fun _ highest => 0 ≤ highest) _ _ [] 0 highest le_rfl returns
  intro done nodeIdx highest next nonneg isNext
  cases nodeIdx with
  | none => cases isNext
  | some nodeIdx =>
      cases isNext
      exact le_max_of_le_left nonneg

theorem hostBuilt_of_initHost {topology : Topology} (accepts : initHost host = .ok topology) :
    HostBuilt host topology := by
  unfold initHost at accepts
  split at accepts
  · next fits =>
      obtain ⟨filled, fills, finishes⟩ := bind_eq_ok_iff.mp accepts
      simp only [filledHost, bind_eq_ok_iff] at fills
      obtain ⟨siblings, returns, ⟨⟩, forAll, l3Siblings, -, ⟨⟩, -, cpus, isCpus, allCpus, isAll,
        highest, isHighest, same⟩ := fills
      cases same
      simp only [Topology.finish, bind_eq_ok_iff, increment_eq_ok_iff] at finishes
      obtain ⟨⟨⟩, -, _, ⟨small, -⟩, _, -, flag, isFlag, same⟩ := finishes
      cases same
      constructor
      · exact (toCpuList_succeeds fits (valid_range _)).elim isAll
      · apply (mapM_eq_ok_iff.mp isCpus).imp
        intro i rep fills
        exact fillHostRep_describes returns (check_eq_ok_iff.mp forAll) fills
      · rfl
      · exact ⟨getHighestNodeIdx_nonneg isHighest, small⟩
      · exact isFlag
  · cases accepts

theorem lt_length_of_rep {topology : Topology} {i : Nat} {rep : CpuRep}
    (isRep : topology.rep (.rep i) = .ok rep) : i < topology.cpus.length := by
  unfold Topology.rep at isRep
  dsimp only at isRep
  by_contra outside
  rw [List.getElem?_eq_none (Nat.le_of_not_lt outside)] at isRep
  cases isRep

section HostBuilt

variable {topology : Topology} (built : HostBuilt host topology)
include built

theorem HostBuilt.rep {i : Nat} (inRange : i < topology.numCpus) :
    ∃ rep, topology.rep (.rep i) = .ok rep ∧ topology.cpus[i]? = some rep ∧
      Describes host topology.numCpus i rep := by
  have length := built.cpus.length_eq
  rw [List.length_range] at length
  have describes := built.cpus.get (i := i) (by simpa using inRange) (by omega)
  simp only [List.get_eq_getElem, List.getElem_range] at describes
  have isRep : topology.cpus[i]? = some (topology.cpus.get ⟨i, by omega⟩) :=
    List.getElem?_eq_getElem _
  refine ⟨_, ?_, isRep, describes⟩
  unfold Topology.rep
  dsimp only
  rw [isRep]

theorem HostBuilt.nonempty : 0 < topology.numCpus := by
  have numbering := built.numbering
  simp only [checkConsecutiveSmtNumbering, bind_eq_ok_iff] at numbering
  obtain ⟨first, isFirst, -⟩ := numbering
  have length := built.cpus.length_eq
  rw [List.length_range] at length
  exact length ▸ lt_length_of_rep isFirst

end HostBuilt

end Topology

end Ghost.Topology
