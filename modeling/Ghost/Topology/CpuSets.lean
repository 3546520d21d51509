import Ghost.Topology.CpuMapProperties
import Ghost.Topology.Custom
import Ghost.Lib.Outcomes

/-!
# CPU lists as sets

What setting bits does to a CPU list, and that a list built from ids lists them in
ascending order and each once.
-/

set_option autoImplicit false

namespace Ghost.Topology

open Lib

namespace CpuMap

variable {map map' : CpuMap}

theorem eq_of_isSet (sameCpus : map.numCpus = map'.numCpus)
    (sameBits : ∀ id, id < MAX_CPUS → map.isSet id = map'.isSet id) : map = map' := by
  have words : map.bitmap = map'.bitmap := by
    funext n
    apply BitVec.eq_of_getLsbD_eq
    intro bit inWord
    have inRange : n.val * kIntsBits + bit < MAX_CPUS := by
      have := n.isLt
      unfold kMapCapacity MAX_CPUS kIntsBits at *
      omega
    have same := sameBits _ inRange
    rwa [isSet_bit n.isLt inWord, isSet_bit n.isLt inWord] at same
  cases map
  cases map'
  cases sameCpus
  cases words
  rfl

theorem isSet_emptyCpuList {numCpus : Nat} {fits : numCpus ≤ MAX_CPUS} {id : Nat} :
    (emptyCpuList numCpus fits).isSet id = false := by
  unfold isSet emptyCpuList
  split <;> simp

theorem set_succeeds (map : CpuMap) {id : Nat} (inRange : id < MAX_CPUS) :
    Succeeds (map.set id) fun map' => map'.numCpus = map.numCpus ∧
      ∀ other, other < MAX_CPUS → map'.isSet other = (map.isSet other || other = id) := by
  have inMap : id / kIntsBits < kMapCapacity := by
    unfold kMapCapacity MAX_CPUS kIntsBits at *
    omega
  have allowed : (id : Int).toNat / kIntsBits < kMapCapacity ∧ 0 ≤ (id : Int) :=
    ⟨by simpa using inMap, by omega⟩
  refine Succeeds.of_eq (dif_pos allowed) ⟨rfl, ?_⟩
  intro other otherInRange
  have split : other = other / kIntsBits * kIntsBits + other % kIntsBits := by
    unfold kIntsBits
    omega
  have otherWord : other / kIntsBits < kMapCapacity := by
    unfold kMapCapacity MAX_CPUS kIntsBits at *
    omega
  have otherBit : other % kIntsBits < kIntsBits := Nat.mod_lt _ (by decide)
  rw [split, isSet_bit otherWord otherBit, isSet_bit otherWord otherBit, ← split]
  simp only [Int.toNat_natCast]
  by_cases sameWord : other / kIntsBits = id / kIntsBits
  · have word : (⟨other / kIntsBits, otherWord⟩ : Fin kMapCapacity) = ⟨id / kIntsBits, inMap⟩ :=
      Fin.ext sameWord
    have sameBit : other % kIntsBits = id % kIntsBits ↔ other = id := by
      unfold kIntsBits at *
      omega
    rw [word, Function.update_self, BitVec.getLsbD_or, ← BitVec.twoPow_eq, BitVec.getLsbD_twoPow]
    have inWord : id % kIntsBits < 64 := Nat.mod_lt _ (by decide)
    simp [inWord, ← sameBit, eq_comm]
  · have word : (⟨other / kIntsBits, otherWord⟩ : Fin kMapCapacity) ≠ ⟨id / kIntsBits, inMap⟩ :=
      fun same => sameWord (congrArg Fin.val same)
    have apart : other ≠ id := fun same => sameWord (same ▸ rfl)
    rw [Function.update_of_ne word]
    simp [apart]

theorem visited_eq (within : map.Within) : map.visited = map.setCpus.map .rep := by
  rw [visited, iterate_begin within (Nat.lt_succ_self _)]
  rfl

theorem mem_setCpus {id : Nat} : id ∈ map.setCpus ↔ id < map.numCpus ∧ map.isSet id = true := by
  rw [setCpus, List.mem_filter, List.mem_range]

theorem eq_of_same (sameCpus : map.numCpus = map'.numCpus) (within : map.Within)
    (within' : map'.Within) (same : map.same map' = true) : map = map' := by
  apply eq_of_isSet sameCpus
  intro id inRange
  have inMap : id / kIntsBits < kMapCapacity := by
    unfold kMapCapacity MAX_CPUS kIntsBits at *
    omega
  have split : id = id / kIntsBits * kIntsBits + id % kIntsBits := by
    unfold kIntsBits
    omega
  by_cases inUse : id / kIntsBits < map.mapSize
  · have words := of_decide_eq_true same ⟨id / kIntsBits, inMap⟩ inUse
    have inWord : id % kIntsBits < kIntsBits := Nat.mod_lt _ (by decide)
    rw [split, isSet_bit inMap inWord, isSet_bit inMap inWord, words]
  · have beyond : map.numCpus ≤ id := by
      have := map.numCpus_le_words
      unfold kIntsBits at *
      omega
    have unset : map.isSet id = false := by
      by_contra set
      exact absurd (within id inRange (Bool.eq_true_of_not_eq_false set)) (by omega)
    have unset' : map'.isSet id = false := by
      by_contra set
      exact absurd (within' id inRange (Bool.eq_true_of_not_eq_false set)) (by omega)
    rw [unset, unset']

end CpuMap

/-! ## Lists of ids -/

variable {numCpus : Nat}

/-- All ids are those of CPUs. -/
def Valid (numCpus : Nat) (ids : List Int) : Prop := ∀ id ∈ ids, 0 ≤ id ∧ id < numCpus

/-- The members of a CPU list. -/
def Holds (map : CpuMap) (numCpus : Nat) (ids : List Int) : Prop :=
  map.numCpus = numCpus ∧ ∀ id, id < MAX_CPUS → (map.isSet id = true ↔ (id : Int) ∈ ids)

theorem foldlM_set {start : CpuMap} (ids : List Int) (valid : Valid numCpus ids)
    (fits : numCpus ≤ MAX_CPUS) :
    Succeeds (ids.foldlM CpuMap.set start) fun map => map.numCpus = start.numCpus ∧
      ∀ id, id < MAX_CPUS →
        (map.isSet id = true ↔ start.isSet id = true ∨ (id : Int) ∈ ids) := by
  induction ids generalizing start with
  | nil =>
      apply Succeeds.ok
      simp
  | cons first ids ih =>
      rw [List.foldlM_cons]
      obtain ⟨nonneg, small⟩ := valid first List.mem_cons_self
      obtain ⟨n, rfl⟩ := Int.eq_ofNat_of_zero_le nonneg
      apply (start.set_succeeds (show n < MAX_CPUS by omega)).bind
      intro map holds
      apply (ih fun id member => valid id (List.mem_cons_of_mem _ member)).mono
      intro map' holds'
      refine ⟨holds'.1.trans holds.1, fun id inRange => ?_⟩
      rw [holds'.2 id inRange, holds.2 id inRange]
      simp [or_assoc]

theorem toCpuList_succeeds (fits : numCpus ≤ MAX_CPUS) {ids : List Int} (valid : Valid numCpus ids) :
    Succeeds (toCpuList numCpus fits ids) fun map => Holds map numCpus ids := by
  apply (foldlM_set ids valid fits).mono
  intro map holds
  refine ⟨holds.1, fun id inRange => ?_⟩
  rw [holds.2 id inRange, CpuMap.isSet_emptyCpuList]
  simp

theorem Holds.within {map : CpuMap} {ids : List Int} (holds : Holds map numCpus ids)
    (valid : Valid numCpus ids) : map.Within := by
  intro id inRange set
  have small := (valid id ((holds.2 id inRange).mp set)).2
  rw [holds.1]
  omega

private theorem Holds.unique {map map' : CpuMap} {ids ids' : List Int}
    (holds : Holds map numCpus ids)
    (holds' : Holds map' numCpus ids') (same : ∀ id, id ∈ ids ↔ id ∈ ids') : map = map' := by
  apply CpuMap.eq_of_isSet (holds.1.trans holds'.1.symm)
  intro id inRange
  rw [Bool.eq_iff_iff, holds.2 id inRange, holds'.2 id inRange, same]

/-- Sorted, and each once. -/
def normalize (ids : List Int) : List Int := (ids.mergeSort (· ≤ ·)).dedup

private theorem mem_normalize {ids : List Int} {id : Int} : id ∈ normalize ids ↔ id ∈ ids := by
  simp [normalize]

private theorem normalize_pairwise (ids : List Int) : (normalize ids).Pairwise (· < ·) := by
  have sorted : (ids.mergeSort (· ≤ ·)).Pairwise fun a b => decide (a ≤ b) = true := by
    apply List.pairwise_mergeSort
    · intro a b c
      simp only [decide_eq_true_eq]
      exact le_trans
    · intro a b
      simpa using le_total a b
  have distinct := List.nodup_dedup (ids.mergeSort (· ≤ ·))
  apply ((sorted.sublist (List.dedup_sublist _)).and distinct).imp
  intro a b both
  exact lt_of_le_of_ne (of_decide_eq_true both.1) both.2

private theorem eq_of_ascending {Id : Type} [LinearOrder Id] {ids ids' : List Id}
    (ascending : ids.Pairwise (· < ·))
    (ascending' : ids'.Pairwise (· < ·)) (same : ∀ id, id ∈ ids ↔ id ∈ ids') : ids = ids' := by
  have perm : ids.Perm ids' :=
    (List.perm_ext_iff_of_nodup (ascending.imp ne_of_lt) (ascending'.imp ne_of_lt)).mpr same
  exact perm.eq_of_pairwise' (ascending.imp le_of_lt) (ascending'.imp le_of_lt)

theorem CpuMap.setCpus_ascending (map : CpuMap) : map.setCpus.Pairwise (· < ·) :=
  List.pairwise_lt_range.filter _

theorem CpuMap.setCpus_single {map : CpuMap} {id : Nat}
    (members : ∀ other, other ∈ map.setCpus ↔ other = id) : map.setCpus = [id] := by
  apply eq_of_ascending map.setCpus_ascending (List.pairwise_singleton _ _)
  simpa using members

theorem CpuMap.setCpus_pair {map : CpuMap} {lower upper : Nat} (less : lower < upper)
    (members : ∀ other, other ∈ map.setCpus ↔ other = lower ∨ other = upper) :
    map.setCpus = [lower, upper] := by
  apply eq_of_ascending map.setCpus_ascending (List.pairwise_pair.mpr less)
  simpa using members

theorem Holds.mem_setCpus {map : CpuMap} {ids : List Int} (holds : Holds map numCpus ids)
    (valid : Valid numCpus ids) {id : Nat} : id ∈ map.setCpus ↔ (id : Int) ∈ ids := by
  rw [CpuMap.mem_setCpus, holds.1]
  have few := holds.1 ▸ map.numCpus_le
  constructor
  · intro member
    exact (holds.2 id (by omega)).mp member.2
  · intro member
    have small := (valid id member).2
    exact ⟨by omega, (holds.2 id (by omega)).mpr member⟩

/-- `ToIntVector` gives the ids back, sorted and each once. -/
theorem Holds.toIntVector {map : CpuMap} {ids : List Int} (holds : Holds map numCpus ids)
    (valid : Valid numCpus ids) : map.toIntVector.map Int.ofNat = normalize ids := by
  have listed : map.toIntVector = map.setCpus := CpuMap.toIntVectorFrom_eq (holds.within valid) 0
  rw [listed]
  apply eq_of_ascending
  · rw [List.pairwise_map]
    apply map.setCpus_ascending.imp
    intro a b less
    exact Int.ofNat_lt.mpr less
  · exact normalize_pairwise ids
  · intro id
    rw [mem_normalize, List.mem_map]
    constructor
    · rintro ⟨n, member, rfl⟩
      exact (holds.mem_setCpus valid).mp member
    · intro member
      obtain ⟨n, rfl⟩ := Int.eq_ofNat_of_zero_le (valid id member).1
      exact ⟨n, (holds.mem_setCpus valid).mpr member, rfl⟩

theorem Valid.normalize {ids : List Int} (valid : Valid numCpus ids) :
    Valid numCpus (normalize ids) :=
  fun id member => valid id (mem_normalize.mp member)

theorem toCpuList_normalize (fits : numCpus ≤ MAX_CPUS) {ids : List Int} (valid : Valid numCpus ids) :
    toCpuList numCpus fits (normalize ids) = toCpuList numCpus fits ids := by
  obtain ⟨map, isMap, holds⟩ := toCpuList_succeeds fits valid
  obtain ⟨map', isMap', holds'⟩ := toCpuList_succeeds fits valid.normalize
  rw [isMap, isMap', holds.unique holds' fun id => mem_normalize.symm]

end Ghost.Topology
