import Ghost.Topology.RoundTrip

/-!
# The siblings of an accepted topology

`CheckSiblings` makes the hardware threads of a core an equivalence. It does not
look for a CPU among its own L3 siblings, and so a CPU may list others that do not
list it back.
-/

set_option autoImplicit false
set_option linter.dupNamespace false

namespace Ghost.Topology

open Lib

namespace Topology

/-- Whether CPU `j` is in a list of CPU `i`. -/
def lists (topology : Topology) (siblingsOf : CpuRep → CpuMap) (i j : Nat) : Bool :=
  topology.cpus[i]?.any fun rep => (siblingsOf rep).isSet j

/-- The hardware threads of a core are an equivalence on all CPUs. -/
def SiblingsEquivalent (topology : Topology) : Prop :=
  Equivalence fun i j : Fin topology.numCpus => topology.lists CpuRep.siblings i j = true

/-- The CPUs with a nonempty list of L3 siblings. -/
def HasL3 (topology : Topology) (i : Fin topology.numCpus) : Prop :=
  ∃ j : Fin topology.numCpus, topology.lists CpuRep.l3Siblings i j = true

/-- The L3 siblings are an equivalence on the CPUs that have some, and whoever is
listed lists back. -/
def L3SiblingsEquivalent (topology : Topology) : Prop :=
  (Equivalence fun i j : { i // topology.HasL3 i } =>
    topology.lists CpuRep.l3Siblings i.val j.val = true) ∧
  ∀ i j : Fin topology.numCpus, topology.lists CpuRep.l3Siblings i j = true →
    topology.lists CpuRep.l3Siblings j i = true

/-! ## What the second check establishes -/

section Checks

variable {raws : List Raw} {topology : Topology} (built : Built raws topology)
include built

private theorem Built.lists_iff {siblingsOf : CpuRep → CpuMap} {idsOf : Raw → List Int}
    (holds : ∀ rep i raw, Represents topology.numCpus rep i raw →
      Holds (siblingsOf rep) topology.numCpus (idsOf raw))
    {i : Nat} (inRange : i < topology.numCpus) (inRaws : i < raws.length) {j : Nat}
    (small : j < topology.numCpus) :
    topology.lists siblingsOf i j = true ↔ (j : Int) ∈ idsOf raws[i] := by
  obtain ⟨rep, _, -, isRep, represents⟩ := built.rep inRange
  have few := topology.numCpus_le
  unfold lists
  rw [isRep, Option.any_some]
  exact (holds rep i _ represents).2 j (by omega)

/-- Whoever is listed has the same list. -/
theorem Built.checkSame {siblingsOf : CpuRep → CpuMap} {idsOf : Raw → List Int}
    (holds : ∀ rep i raw, Represents topology.numCpus rep i raw →
      Holds (siblingsOf rep) topology.numCpus (idsOf raw))
    (valid : ∀ i raw, Entry topology.numCpus i raw → Valid topology.numCpus (idsOf raw))
    {i : Nat} {rep : CpuRep} (isRep : topology.cpus[i]? = some rep)
    (inRange : i < topology.numCpus)
    (checks : topology.checkSame (siblingsOf rep) siblingsOf = .ok ()) {j : Nat}
    (small : j < topology.numCpus) (listed : topology.lists siblingsOf i j = true) (k : Nat) :
    topology.lists siblingsOf i k = topology.lists siblingsOf j k := by
  obtain ⟨rep', inRaws, -, isRep', represents⟩ := built.rep inRange
  cases isRep.symm.trans isRep'
  obtain ⟨other, inRaws', isOther, isOther', otherRepresents⟩ := built.rep small
  have member := (holds rep i _ represents)
  have otherMember := (holds other j _ otherRepresents)
  have within := member.within (valid i _ (built.checked.entry i inRaws))
  have otherWithin := otherMember.within (valid j _ (built.checked.entry j inRaws'))
  unfold lists at listed ⊢
  rw [isRep, Option.any_some] at listed ⊢
  rw [isOther', Option.any_some]
  unfold Topology.checkSame at checks
  rw [forM_eq_ok_iff, CpuMap.visited_eq within] at checks
  have visits : Cpu.rep j ∈ (siblingsOf rep).setCpus.map .rep := by
    apply List.mem_map_of_mem
    exact CpuMap.mem_setCpus.mpr ⟨member.1 ▸ small, listed⟩
  obtain ⟨other', isOther'', same⟩ := bind_eq_ok_iff.mp (checks _ visits)
  cases isOther.symm.trans isOther''
  rw [CpuMap.eq_of_same (member.1.trans otherMember.1.symm) within otherWithin
    (check_eq_ok_iff.mp same)]

private theorem Built.checkSiblings (checks : topology.checkSiblings = .ok ()) {i : Nat}
    (inRange : i < topology.numCpus) :
    topology.lists CpuRep.siblings i i = true ∧
    (∀ j, j < topology.numCpus → topology.lists CpuRep.siblings i j = true →
      ∀ k, topology.lists CpuRep.siblings i k = topology.lists CpuRep.siblings j k) ∧
    ∀ j, j < topology.numCpus → topology.lists CpuRep.l3Siblings i j = true →
      ∀ k, topology.lists CpuRep.l3Siblings i k = topology.lists CpuRep.l3Siblings j k := by
  obtain ⟨rep, inRaws, isRep, isRep', represents⟩ := built.rep inRange
  unfold Topology.checkSiblings at checks
  rw [forM_eq_ok_iff, built.visited] at checks
  have visits : Cpu.rep i ∈ (List.range topology.numCpus).map .rep :=
    List.mem_map_of_mem (List.mem_range.mpr inRange)
  obtain ⟨rep', isRep'', rest⟩ := bind_eq_ok_iff.mp (checks _ visits)
  cases isRep.symm.trans isRep''
  obtain ⟨⟨⟩, reflexive, rest⟩ := bind_eq_ok_iff.mp rest
  obtain ⟨⟨⟩, siblings, l3Siblings⟩ := bind_eq_ok_iff.mp rest
  refine ⟨?_, fun j small listed k => ?_, fun j small listed k => ?_⟩
  · have itself := check_eq_ok_iff.mp reflexive
    rw [represents.cpu, Int.toNat_natCast] at itself
    unfold lists
    rw [isRep', Option.any_some]
    exact itself
  · exact built.checkSame (fun _ _ _ represents => represents.siblings)
      (fun _ _ entry => entry.siblings) isRep' inRange siblings small listed k
  · exact built.checkSame (fun _ _ _ represents => represents.l3Siblings)
      (fun _ _ entry => entry.l3Siblings) isRep' inRange l3Siblings small listed k

end Checks

private theorem checkSiblings_of_finish {topology finished : Topology}
    (finishes : topology.finish = .ok finished) : finished.checkSiblings = .ok () := by
  simp only [Topology.finish, bind_eq_ok_iff] at finishes
  obtain ⟨⟨⟩, checks, _, _, _, _, _, _, same⟩ := finishes
  cases same
  exact checks

/-! ## Equivalences -/

private theorem equivalence_of_same {Index : Type} {Related : Index → Index → Prop}
    (reflexive : ∀ i, Related i i)
    (same : ∀ i j, Related i j → ∀ k, Related i k ↔ Related j k) : Equivalence Related := by
  constructor
  · exact reflexive
  · intro i j related
    exact (same i j related i).mp (reflexive i)
  · intro i j k related related'
    exact (same i j related k).mpr related'

section Equivalences

variable {raws : List Raw} {topology : Topology} (built : Built raws topology)
  (checks : topology.checkSiblings = .ok ())
include built checks

private theorem Built.siblingsEquivalent : topology.SiblingsEquivalent := by
  apply equivalence_of_same
  · intro i
    exact (built.checkSiblings checks i.isLt).1
  · intro i j listed k
    rw [(built.checkSiblings checks i.isLt).2.1 j j.isLt listed k]

/-- Of an equivalence the second check only leaves reflexivity open. -/
theorem Built.l3SiblingsEquivalent_iff : topology.L3SiblingsEquivalent ↔
    ∀ i : Fin topology.numCpus, topology.HasL3 i →
      topology.lists CpuRep.l3Siblings i i = true := by
  have same : ∀ i j : Fin topology.numCpus, topology.lists CpuRep.l3Siblings i j = true →
      ∀ k : Nat, topology.lists CpuRep.l3Siblings i k = topology.lists CpuRep.l3Siblings j k := by
    intro i j listed
    exact (built.checkSiblings checks i.isLt).2.2 j j.isLt listed
  constructor
  · intro equivalent i hasL3
    exact equivalent.1.refl ⟨i, hasL3⟩
  · intro reflexive
    constructor
    · apply equivalence_of_same
      · intro i
        exact reflexive i.val i.property
      · intro i j listed k
        rw [same i.val j.val listed k.val]
    · intro i j listed
      rw [← same i j listed i]
      exact reflexive i ⟨j, listed⟩

omit checks in
private theorem Built.l3_reflexive_iff :
    (∀ i : Fin topology.numCpus, topology.HasL3 i →
      topology.lists CpuRep.l3Siblings i i = true) ↔
    ∀ raw ∈ raws, raw.l3Siblings ≠ [] → raw.cpu ∈ raw.l3Siblings := by
  have length := built.checked.length
  have holds : ∀ rep i raw, Represents topology.numCpus rep i raw →
      Holds rep.l3Siblings topology.numCpus raw.l3Siblings :=
    fun _ _ _ represents => represents.l3Siblings
  constructor
  · intro reflexive raw member nonempty
    obtain ⟨i, inRaws, rfl⟩ := List.getElem_of_mem member
    have inRange : i < topology.numCpus := length ▸ inRaws
    have entry := built.checked.entry i inRaws
    obtain ⟨id, isId⟩ := List.exists_mem_of_ne_nil _ nonempty
    obtain ⟨nonneg, small⟩ := entry.l3Siblings id isId
    obtain ⟨j, rfl⟩ := Int.eq_ofNat_of_zero_le nonneg
    have small : j < topology.numCpus := by omega
    have hasL3 : topology.HasL3 ⟨i, inRange⟩ :=
      ⟨⟨j, small⟩, (built.lists_iff holds inRange inRaws small).mpr isId⟩
    rw [entry.cpu]
    exact (built.lists_iff holds inRange inRaws inRange).mp (reflexive _ hasL3)
  · intro own i hasL3
    obtain ⟨j, listed⟩ := hasL3
    have inRaws : i.val < raws.length := by omega
    have isId := (built.lists_iff holds i.isLt inRaws j.isLt).mp listed
    have itself := own _ (List.getElem_mem inRaws) (List.ne_nil_of_mem isId)
    rw [(built.checked.entry i inRaws).cpu] at itself
    exact (built.lists_iff holds i.isLt inRaws i.isLt).mpr itself

end Equivalences

/-- In every accepted topology the hardware threads of a core are an equivalence,
and the L3 siblings are one too if and only if every CPU that has L3 siblings is
listed among them. -/
theorem siblings_equivalent_iff (raws : List Raw) (topology : Topology)
    (accepts : initCustom raws = .ok topology) :
    topology.SiblingsEquivalent ∧
    (topology.SiblingsEquivalent ∧ topology.L3SiblingsEquivalent ↔
      ∀ raw ∈ raws, raw.l3Siblings ≠ [] → raw.cpu ∈ raw.l3Siblings) := by
  have accepted := accepted_of_initCustom accepts
  have built := accepted.built
  obtain ⟨_, _, _, _, finishes⟩ := accepted.finished
  have checks := checkSiblings_of_finish finishes
  have siblings := built.siblingsEquivalent checks
  have l3Siblings := (built.l3SiblingsEquivalent_iff checks).trans built.l3_reflexive_iff
  have sorted : (∀ raw ∈ Topology.sort raws, raw.l3Siblings ≠ [] → raw.cpu ∈ raw.l3Siblings) ↔
      ∀ raw ∈ raws, raw.l3Siblings ≠ [] → raw.cpu ∈ raw.l3Siblings := by
    simp only [Topology.sort, List.mem_mergeSort]
  rw [sorted] at l3Siblings
  exact ⟨siblings, ⟨fun both => l3Siblings.mp both.2, fun own => ⟨siblings, l3Siblings.mpr own⟩⟩⟩

theorem siblings_equivalent_iff_own :
    (twoBuilt [0]).SiblingsEquivalent ∧ (twoBuilt [0]).L3SiblingsEquivalent :=
  (siblings_equivalent_iff (twoCpus [0]) (twoBuilt [0]) initCustom_twoCpus_first).2.mpr (by decide)

private theorem initCustom_twoCpus_other : initCustom (twoCpus [1]) = .ok (twoBuilt [1]) := by
  apply initCustom_twoCpus rfl rfl
  · simp only [createCpuListsForNumaNodes, twoFilled, visited_both]
    rfl
  · simp only [checkSiblings, checkSame, twoFilled, rep, visited_both, List.forM]
    dsimp [bind, Except.bind]
    simp [visited_twice, visited_second]
    rfl

/-- Both CPUs list only the second one as an L3 sibling. -/
theorem l3Siblings_not_equivalent :
    initCustom (twoCpus [1]) = .ok (twoBuilt [1]) ∧
    (∃ i : Fin 2, (twoBuilt [1]).HasL3 i ∧
      (twoBuilt [1]).lists CpuRep.l3Siblings i i = false) ∧
    ¬(twoBuilt [1]).L3SiblingsEquivalent := by
  have first : (twoBuilt [1]).HasL3 (0 : Fin 2) := ⟨(1 : Fin 2), by decide +kernel⟩
  have unlisted : (twoBuilt [1]).lists CpuRep.l3Siblings 0 0 = false := by decide +kernel
  refine ⟨initCustom_twoCpus_other, ⟨0, first, unlisted⟩, ?_⟩
  intro equivalent
  have listed := equivalent.1.refl ⟨(0 : Fin 2), first⟩
  cases unlisted.symm.trans listed

end Topology

end Ghost.Topology
