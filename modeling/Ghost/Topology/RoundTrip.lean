import Ghost.Topology.CpuSets

/-!
# Round trip of custom topologies

An accepted topology exports its entries in the order of the CPUs, with the
sibling lists sorted and without repetitions, and is built again from its export.
-/

set_option autoImplicit false
set_option linter.dupNamespace false

namespace Ghost.Topology

open Lib

theorem check_eq_ok_iff {condition : Prop} [Decidable condition] :
    check condition = .ok () ↔ condition := by
  unfold check
  split <;> simp [*]

theorem increment_eq_ok_iff {value after : Int} :
    increment value = .ok after ↔ value < intMax ∧ after = value + 1 := by
  unfold increment
  split
  · simp [*, eq_comm]
  · simp [*]

/-- The entry with its sibling lists sorted and without repetitions. -/
def Raw.normalize (raw : Raw) : Raw :=
  { raw with
    siblings := Topology.normalize raw.siblings
    l3Siblings := Topology.normalize raw.l3Siblings }

namespace Topology

/-! ## What the first check establishes -/

/-- The entry of a CPU. -/
structure Entry (numCpus : Nat) (cpu : Int) (raw : Raw) : Prop where
  cpu : raw.cpu = cpu
  siblings : Valid numCpus raw.siblings
  l3Siblings : Valid numCpus raw.l3Siblings

private theorem checkValid_iff {size : Nat} {siblings : List Int} :
    checkValid size siblings = .ok () ↔ Valid size siblings := by
  unfold checkValid Valid
  rw [forM_eq_ok_iff]
  apply forall₂_congr
  intro id _
  rw [bind_eq_ok_iff]
  constructor
  · rintro ⟨⟨⟩, lower, upper⟩
    exact ⟨check_eq_ok_iff.mp lower, check_eq_ok_iff.mp upper⟩
  · rintro ⟨lower, upper⟩
    exact ⟨(), check_eq_ok_iff.mpr lower, check_eq_ok_iff.mpr upper⟩

private theorem checkCustomTopologyFrom_cons {size : Nat} {next : Int} {raw : Raw}
    {rest : List Raw} :
    checkCustomTopologyFrom size next (raw :: rest) = .ok () ↔
      next < intMax ∧ Entry size next raw ∧
        checkCustomTopologyFrom size (next + 1) rest = .ok () := by
  simp only [checkCustomTopologyFrom, bind_eq_ok_iff, increment_eq_ok_iff]
  constructor
  · rintro ⟨after, ⟨small, rfl⟩, ⟨⟩, isCpu, ⟨⟩, siblings, ⟨⟩, l3Siblings, later⟩
    exact ⟨small, ⟨check_eq_ok_iff.mp isCpu, checkValid_iff.mp siblings,
      checkValid_iff.mp l3Siblings⟩, later⟩
  · rintro ⟨small, entry, later⟩
    exact ⟨next + 1, ⟨small, rfl⟩, (), check_eq_ok_iff.mpr entry.cpu, (),
      checkValid_iff.mpr entry.siblings, (), checkValid_iff.mpr entry.l3Siblings, later⟩

private theorem checkCustomTopologyFrom_iff {size : Nat} {raws : List Raw} {next : Int}
    (small : next ≤ intMax) :
    checkCustomTopologyFrom size next raws = .ok () ↔
      next + raws.length ≤ intMax ∧
        ∀ i, (inRange : i < raws.length) → Entry size (next + i) raws[i] := by
  induction raws generalizing next with
  | nil => simp [checkCustomTopologyFrom, small]
  | cons raw rest ih =>
      rw [checkCustomTopologyFrom_cons]
      constructor
      · rintro ⟨less, entry, later⟩
        obtain ⟨bounded, entries⟩ := (ih (by omega)).mp later
        constructor
        · simp only [List.length_cons, Nat.cast_add, Nat.cast_one]
          omega
        · intro i inRange
          cases i with
          | zero => simpa using entry
          | succ i =>
              have entry := entries i (by simpa using inRange)
              rw [add_assoc, add_comm 1] at entry
              simpa using entry
      · rintro ⟨bounded, entries⟩
        simp only [List.length_cons, Nat.cast_add, Nat.cast_one] at bounded
        have first : Entry size (next + (0 : Nat)) raw := entries 0 (Nat.succ_pos _)
        refine ⟨by omega, by simpa using first, (ih (by omega)).mpr ⟨by omega, ?_⟩⟩
        intro i inRange
        have entry := entries (i + 1) (by simpa using inRange)
        rw [add_assoc, add_comm 1]
        simpa using entry

/-- What `CheckCustomTopology` makes sure of. -/
structure Checked (numCpus : Nat) (raws : List Raw) : Prop where
  length : raws.length = numCpus
  entry : ∀ i, (inRange : i < raws.length) → Entry numCpus i raws[i]

private theorem checkCustomTopology_iff {raws : List Raw} :
    checkCustomTopology raws = .ok () ↔
      raws ≠ [] ∧ (raws.length : Int) ≤ intMax ∧ Checked raws.length raws := by
  unfold checkCustomTopology
  rw [bind_eq_ok_iff]
  constructor
  · rintro ⟨⟨⟩, nonempty, entries⟩
    obtain ⟨bounded, entries⟩ := (checkCustomTopologyFrom_iff (by decide)).mp entries
    simp only [zero_add] at bounded entries
    exact ⟨check_eq_ok_iff.mp nonempty, bounded, rfl, entries⟩
  · rintro ⟨nonempty, bounded, checked⟩
    refine ⟨(), check_eq_ok_iff.mpr nonempty, (checkCustomTopologyFrom_iff (by decide)).mpr ?_⟩
    simp only [zero_add]
    exact ⟨bounded, checked.entry⟩

/-! ## What an accepted topology holds -/

/-- The representation of a CPU against its entry. -/
structure Represents (numCpus : Nat) (rep : CpuRep) (i : Nat) (raw : Raw) : Prop where
  cpu : rep.cpu = i
  core : rep.core = raw.core
  smtIdx : rep.smtIdx = raw.smtIdx
  siblings : Holds rep.siblings numCpus raw.siblings
  l3Siblings : Holds rep.l3Siblings numCpus raw.l3Siblings
  numaNode : rep.numaNode = raw.numaNode

private theorem fillRep_succeeds {numCpus : Nat} (fits : numCpus ≤ MAX_CPUS) {raws : List Raw}
    (checked : Checked numCpus raws) {i : Nat} (inRange : i < raws.length) :
    Succeeds (fillRep numCpus fits raws i) fun rep => Represents numCpus rep i raws[i] := by
  have entry := checked.entry i inRange
  obtain ⟨siblings, isSiblings, holds⟩ := toCpuList_succeeds fits entry.siblings
  obtain ⟨l3Siblings, isL3Siblings, l3Holds⟩ := toCpuList_succeeds fits entry.l3Siblings
  unfold fillRep
  rw [List.getElem?_eq_getElem inRange]
  dsimp only
  rw [isSiblings, isL3Siblings]
  exact .ok ⟨rfl, rfl, rfl, holds, l3Holds, rfl⟩

/-- The members of a topology against its sorted entries. -/
structure Built (raws : List Raw) (topology : Topology) : Prop where
  checked : Checked topology.numCpus raws
  allCpus : Holds topology.allCpus topology.numCpus ((List.range topology.numCpus).map Int.ofNat)
  cpus : List.Forall₂ (fun i rep => ∃ inRange : i < raws.length,
    Represents topology.numCpus rep i raws[i]) (List.range topology.numCpus) topology.cpus

theorem valid_range (numCpus : Nat) : Valid numCpus ((List.range numCpus).map Int.ofNat) := by
  intro id member
  obtain ⟨i, isIndex, rfl⟩ := List.mem_map.mp member
  have := List.mem_range.mp isIndex
  simp only [Int.ofNat_eq_natCast]
  omega

private theorem filled_succeeds {numCpus : Nat} (fits : numCpus ≤ MAX_CPUS) {raws : List Raw}
    (checked : Checked numCpus raws) :
    Succeeds (filled numCpus fits raws) fun topology =>
      topology.numCpus = numCpus ∧ Built raws topology := by
  obtain ⟨allCpus, isAll, holds⟩ := toCpuList_succeeds fits (valid_range numCpus)
  obtain ⟨cpus, isCpus, represents⟩ : Succeeds
      ((List.range numCpus).mapM (fillRep numCpus fits raws)) fun cpus =>
        List.Forall₂ (fun i rep => ∃ inRange : i < raws.length,
          Represents numCpus rep i raws[i]) (List.range numCpus) cpus := by
    apply Succeeds.mapM
    intro i isIndex
    have inRange : i < raws.length := checked.length ▸ List.mem_range.mp isIndex
    exact (fillRep_succeeds fits checked inRange).mono fun _ represents => ⟨inRange, represents⟩
  unfold filled
  rw [isCpus, isAll]
  exact .ok ⟨rfl, checked, holds, represents⟩

private theorem Built.finish {raws : List Raw} {topology finished : Topology}
    (built : Built raws topology)
    (finishes : topology.finish = .ok finished) : Built raws finished := by
  simp only [Topology.finish, bind_eq_ok_iff] at finishes
  obtain ⟨_, _, _, _, _, _, _, _, same⟩ := finishes
  cases same
  exact ⟨built.checked, built.allCpus, built.cpus⟩

private theorem finish_numCpus {topology finished : Topology}
    (finishes : topology.finish = .ok finished) : finished.numCpus = topology.numCpus := by
  simp only [Topology.finish, bind_eq_ok_iff] at finishes
  obtain ⟨_, _, _, _, _, _, _, _, same⟩ := finishes
  cases same
  rfl

theorem visited_allCpus {topology : Topology}
    (holds : Holds topology.allCpus topology.numCpus
      ((List.range topology.numCpus).map Int.ofNat)) :
    topology.allCpus.visited = (List.range topology.numCpus).map .rep := by
  rw [CpuMap.visited_eq (holds.within (valid_range topology.numCpus)), CpuMap.setCpus, holds.1]
  congr 1
  apply List.filter_eq_self.mpr
  intro i isIndex
  have few := topology.numCpus_le
  have inRange := List.mem_range.mp isIndex
  apply (holds.2 i (by omega)).mpr
  exact List.mem_map.mpr ⟨i, isIndex, rfl⟩

section Built

variable {raws : List Raw} {topology : Topology} (built : Built raws topology)
include built

theorem Built.visited : topology.allCpus.visited = (List.range topology.numCpus).map .rep :=
  visited_allCpus built.allCpus

theorem Built.rep {i : Nat} (inRange : i < topology.numCpus) :
    ∃ rep, ∃ inRange : i < raws.length, topology.rep (.rep i) = .ok rep ∧
      topology.cpus[i]? = some rep ∧ Represents topology.numCpus rep i raws[i] := by
  have length := built.cpus.length_eq
  rw [List.length_range] at length
  have related := built.cpus.get (i := i) (by simpa using inRange) (by omega)
  simp only [List.get_eq_getElem, List.getElem_range] at related
  obtain ⟨inRange', represents⟩ := related
  refine ⟨topology.cpus[i], inRange', ?_, List.getElem?_eq_getElem _, represents⟩
  simp only [Topology.rep, List.getElem?_eq_getElem (show i < topology.cpus.length by omega)]

private theorem Built.toExport : topology.toExport = .ok (raws.map Raw.normalize) := by
  unfold Topology.toExport
  rw [built.visited, mapM_eq_ok_iff, List.forall₂_map_left_iff, List.forall₂_iff_get]
  have length := built.checked.length
  refine ⟨by simp [length], fun i inRange inRange' => ?_⟩
  simp only [List.length_range] at inRange
  obtain ⟨rep, inRaws, isRep, -, represents⟩ := built.rep inRange
  have entry := built.checked.entry i inRaws
  simp only [List.get_eq_getElem, List.getElem_range, List.getElem_map]
  rw [isRep]
  change Except.ok _ = Except.ok _
  rw [represents.siblings.toIntVector entry.siblings,
    represents.l3Siblings.toIntVector entry.l3Siblings, represents.cpu, represents.core,
    represents.smtIdx, represents.numaNode, ← entry.cpu]
  rfl

end Built

/-! ## Building from an export -/

private theorem Checked.normalize {numCpus : Nat} {raws : List Raw}
    (checked : Checked numCpus raws) :
    Checked numCpus (raws.map Raw.normalize) := by
  refine ⟨(List.length_map _).trans checked.length, fun i inRange => ?_⟩
  have entry := checked.entry i (by simpa using inRange)
  rw [List.getElem_map]
  exact ⟨entry.cpu, entry.siblings.normalize, entry.l3Siblings.normalize⟩

private theorem filled_normalize {numCpus : Nat} (fits : numCpus ≤ MAX_CPUS) {raws : List Raw}
    (checked : Checked numCpus raws) :
    filled numCpus fits (raws.map Raw.normalize) = filled numCpus fits raws := by
  have same : fillRep numCpus fits (raws.map Raw.normalize) = fillRep numCpus fits raws := by
    funext i
    unfold fillRep
    by_cases inRange : i < raws.length
    · have entry := checked.entry i inRange
      rw [List.getElem?_map, List.getElem?_eq_getElem inRange]
      dsimp only [Option.map_some, Raw.normalize]
      rw [toCpuList_normalize fits entry.siblings, toCpuList_normalize fits entry.l3Siblings]
    · rw [List.getElem?_map, List.getElem?_eq_none (by omega)]
      rfl
  unfold filled
  rw [same]

private theorem Checked.sort {numCpus : Nat} {raws : List Raw} (checked : Checked numCpus raws) :
    Topology.sort raws = raws := by
  apply List.mergeSort_of_pairwise
  rw [List.pairwise_iff_getElem]
  intro i j inRange inRange' less
  rw [(checked.entry i inRange).cpu, (checked.entry j inRange').cpu, decide_eq_true_eq]
  omega

/-- Everything that acceptance establishes. -/
structure Accepted (raws : List Raw) (topology : Topology) : Prop where
  numCpus : topology.numCpus = raws.length
  bounded : (raws.length : Int) ≤ intMax
  nonempty : raws ≠ []
  built : Built (Topology.sort raws) topology
  finished : ∃ fits before, filled raws.length fits (Topology.sort raws) = .ok before ∧
    Built (Topology.sort raws) before ∧ before.finish = .ok topology

theorem accepted_of_initCustom {raws : List Raw} {topology : Topology}
    (accepts : initCustom raws = .ok topology) : Accepted raws topology := by
  unfold initCustom at accepts
  dsimp only at accepts
  split at accepts
  · rename_i fits
    obtain ⟨⟨⟩, checks, rest⟩ := bind_eq_ok_iff.mp accepts
    obtain ⟨before, isBefore, finishes⟩ := bind_eq_ok_iff.mp rest
    obtain ⟨nonempty, bounded, checked⟩ := checkCustomTopology_iff.mp checks
    have length : (Topology.sort raws).length = raws.length := List.length_mergeSort raws
    rw [length] at bounded checked
    rw [← List.length_pos_iff, length, List.length_pos_iff] at nonempty
    have small : raws.length % 2 ^ 32 = raws.length := by
      unfold intMax at bounded
      omega
    generalize raws.length % 2 ^ 32 = numCpus at *
    subst small
    obtain ⟨numCpus, built⟩ := (filled_succeeds fits checked).elim isBefore
    exact ⟨(finish_numCpus finishes).trans numCpus, bounded, nonempty, built.finish finishes,
      fits, before, isBefore, built, finishes⟩
  · cases accepts

/-- The export of an accepted topology is accepted and gives the same topology. -/
theorem Accepted.initCustom {raws : List Raw} {topology : Topology}
    (accepted : Accepted raws topology) :
    initCustom ((Topology.sort raws).map Raw.normalize) = .ok topology := by
  obtain ⟨fits, before, isBefore, _, finishes⟩ := accepted.finished
  have checked := accepted.built.checked
  rw [accepted.numCpus] at checked
  have length : ((Topology.sort raws).map Raw.normalize).length = raws.length :=
    checked.normalize.length
  have small : raws.length % 2 ^ 32 = raws.length := by
    have := accepted.bounded
    unfold intMax at this
    omega
  unfold Topology.initCustom
  simp only [length, small, fits, dite_true]
  apply bind_eq_ok_iff.mpr
  refine ⟨(), ?_, bind_eq_ok_iff.mpr ⟨before, ?_, finishes⟩⟩
  · rw [checked.normalize.sort, checkCustomTopology_iff, length]
    have nonempty := List.length_pos_iff.mpr accepted.nonempty
    exact ⟨List.length_pos_iff.mp (length ▸ nonempty), accepted.bounded, checked.normalize⟩
  · rw [checked.normalize.sort, filled_normalize fits checked]
    exact isBefore

/-- For every accepted vector of entries, `Export` returns the entries sorted by
CPU, with each sibling list sorted and deduplicated, and a topology built from
what it returns is accepted and exports the same. -/
theorem export_roundTrip (raws : List Raw) (topology : Topology)
    (accepts : initCustom raws = .ok topology) :
    topology.toExport = .ok ((Topology.sort raws).map Raw.normalize) ∧
    ∃ again, initCustom ((Topology.sort raws).map Raw.normalize) = .ok again ∧
      again.toExport = .ok ((Topology.sort raws).map Raw.normalize) := by
  have accepted := accepted_of_initCustom accepts
  exact ⟨accepted.built.toExport, topology, accepted.initCustom, accepted.built.toExport⟩

/-! ## Two CPUs -/

/-- Two cores of one hardware thread, the second one first, with the L3 siblings of
the first. -/
def twoCpus (l3Siblings : List Int) : List Raw :=
  [⟨1, 1, 0, [1], [1], 0⟩, ⟨0, 0, 0, [0, 0], l3Siblings, 0⟩]

theorem two_le_maxCpus : 2 ≤ MAX_CPUS := by decide

def cpuListOf (ids : List Int) : CpuMap :=
  (toCpuList 2 two_le_maxCpus ids).toOption.getD (.emptyCpuList 2 two_le_maxCpus)

private theorem within_cpuListOf {ids : List Int} (valid : Valid 2 ids) :
    (cpuListOf ids).Within := by
  obtain ⟨map, isMap, holds⟩ := toCpuList_succeeds two_le_maxCpus valid
  unfold cpuListOf
  rw [isMap]
  exact holds.within valid

def twoFilled (l3Siblings : List Int) : Topology where
  numCpus := 2
  numCpus_le := two_le_maxCpus
  allCpus := cpuListOf [0, 1]
  cpus :=
    [⟨0, 0, 0, cpuListOf [0, 0], cpuListOf l3Siblings, 0⟩, ⟨1, 1, 0, cpuListOf [1], cpuListOf [1], 0⟩]
  highestNodeIdx := 0
  consecutiveSmtNumbering := false
  cpusOnNode := []

def twoBuilt (l3Siblings : List Int) : Topology :=
  { twoFilled l3Siblings with cpusOnNode := [cpuListOf [0, 1]] }

private theorem visited_cpuListOf {ids : List Int} (valid : Valid 2 ids) {cpus : List Nat}
    (members : (cpuListOf ids).setCpus = cpus) : (cpuListOf ids).visited = cpus.map .rep := by
  rw [CpuMap.visited_eq (within_cpuListOf valid), members]

theorem visited_both : (cpuListOf [0, 1]).visited = [.rep 0, .rep 1] :=
  visited_cpuListOf (by unfold Valid; decide) (by decide +kernel : _ = [0, 1])

theorem visited_twice : (cpuListOf [0, 0]).visited = [.rep 0] :=
  visited_cpuListOf (by unfold Valid; decide) (by decide +kernel : _ = [0])

private theorem visited_first : (cpuListOf [0]).visited = [.rep 0] :=
  visited_cpuListOf (by unfold Valid; decide) (by decide +kernel : _ = [0])

theorem visited_second : (cpuListOf [1]).visited = [.rep 1] :=
  visited_cpuListOf (by unfold Valid; decide) (by decide +kernel : _ = [1])

private theorem size_first : (cpuListOf [0, 0]).size = 1 := by
  apply BitVec.eq_of_toNat_eq
  rw [CpuMap.size_toNat (within_cpuListOf (by unfold Valid; decide))]
  decide +kernel

private theorem twoFilled_finish {l3Siblings : List Int}
    (nodes : (twoFilled l3Siblings).createCpuListsForNumaNodes 1 = .ok [cpuListOf [0, 1]])
    (checks : (twoFilled l3Siblings).checkSiblings = .ok ()) :
    (twoFilled l3Siblings).finish = .ok (twoBuilt l3Siblings) := by
  have smt : (twoBuilt l3Siblings).checkConsecutiveSmtNumbering = .ok false := by
    change (if (cpuListOf [0, 0]).size ≠ 2 then check ((cpuListOf [0, 0]).size = 1) >>= _ else _) = _
    rw [size_first, if_pos (by decide)]
    rfl
  unfold Topology.finish
  rw [checks]
  change ((twoFilled l3Siblings).createCpuListsForNumaNodes 1 >>= _) = _
  rw [nodes]
  change ((twoBuilt l3Siblings).checkConsecutiveSmtNumbering >>= _) = _
  rw [smt]
  rfl

private theorem sort_twoCpus (l3Siblings : List Int) :
    Topology.sort (twoCpus l3Siblings) = (twoCpus l3Siblings).reverse := by
  simp [Topology.sort, twoCpus, List.mergeSort, List.MergeSort.Internal.splitInTwo]

theorem initCustom_twoCpus {l3Siblings : List Int}
    (filled : filled 2 two_le_maxCpus (twoCpus l3Siblings).reverse = .ok (twoFilled l3Siblings))
    (valid : checkCustomTopology (twoCpus l3Siblings).reverse = .ok ())
    (nodes : (twoFilled l3Siblings).createCpuListsForNumaNodes 1 = .ok [cpuListOf [0, 1]])
    (checks : (twoFilled l3Siblings).checkSiblings = .ok ()) :
    initCustom (twoCpus l3Siblings) = .ok (twoBuilt l3Siblings) := by
  change (checkCustomTopology (Topology.sort (twoCpus l3Siblings)) >>= fun _ =>
    Topology.filled 2 two_le_maxCpus (Topology.sort (twoCpus l3Siblings)) >>= _) = _
  rw [sort_twoCpus, valid]
  change (Topology.filled 2 two_le_maxCpus (twoCpus l3Siblings).reverse >>= _) = _
  rw [filled]
  exact twoFilled_finish nodes checks

theorem initCustom_twoCpus_first : initCustom (twoCpus [0]) = .ok (twoBuilt [0]) := by
  apply initCustom_twoCpus rfl rfl
  · simp only [createCpuListsForNumaNodes, twoFilled, visited_both]
    rfl
  · simp only [checkSiblings, checkSame, twoFilled, rep, visited_both, List.forM]
    dsimp [bind, Except.bind]
    simp [visited_twice, visited_first, visited_second]
    rfl

theorem export_roundTrip_twoCpus :
    ∃ again, initCustom ((Topology.sort (twoCpus [0])).map Raw.normalize) = .ok again ∧
      again.toExport = .ok ((Topology.sort (twoCpus [0])).map Raw.normalize) :=
  (export_roundTrip (twoCpus [0]) (twoBuilt [0]) initCustom_twoCpus_first).2

end Topology

end Ghost.Topology
