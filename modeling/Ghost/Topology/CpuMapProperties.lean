import Ghost.Topology.CpuMap

/-!
# The views of a CPU map agree

Every view is compared with the ascending list of the set CPUs: the cursor of the
iterator with a search in it, the word by word selection with indexing into it.
-/

set_option autoImplicit false

namespace Ghost.Topology

open Lib

namespace CpuMap

variable {map : CpuMap}

/-- The set CPUs in ascending order. -/
def setCpus (map : CpuMap) : List Nat := (List.range map.numCpus).filter map.isSet

/-- All set bits are those of CPUs. -/
def Within (map : CpuMap) : Prop := ∀ id, id < MAX_CPUS → map.isSet id = true → id < map.numCpus

theorem numCpus_le_words : map.numCpus ≤ map.mapSize * kIntsBits := by
  unfold mapSize kIntsBits
  omega

theorem words_le : map.mapSize * kIntsBits ≤ MAX_CPUS := by
  have few := map.mapSize_le
  unfold kMapCapacity MAX_CPUS kIntsBits at *
  omega

/-- Bit `bit` of word `n` is CPU `n * 64 + bit`. -/
theorem isSet_bit {n bit : Nat} (inMap : n < kMapCapacity) (inWord : bit < kIntsBits) :
    map.isSet (n * kIntsBits + bit) = (map.bitmap ⟨n, inMap⟩).getLsbD bit := by
  have word : (n * kIntsBits + bit) / kIntsBits = n := by
    unfold kIntsBits at *
    omega
  have offset : (n * kIntsBits + bit) % kIntsBits = bit := by
    unfold kIntsBits at *
    omega
  unfold isSet
  simp only [word, offset, inMap, dite_true]
  generalize map.bitmap ⟨n, inMap⟩ = bits
  have selected : bits &&& 1#64 <<< bit =
      if bits.getLsbD bit then BitVec.twoPow 64 bit else 0#64 := BitVec.and_twoPow bits bit
  have nonzero : BitVec.twoPow 64 bit ≠ 0#64 := by
    intro zero
    have value := congrArg BitVec.toNat zero
    have small : 2 ^ bit < 2 ^ 64 := Nat.pow_lt_pow_right (by decide) inWord
    rw [BitVec.toNat_twoPow, Nat.mod_eq_of_lt small] at value
    exact (Nat.two_pow_pos bit).ne' value
  rw [selected]
  cases bits.getLsbD bit with
  | true => simpa using nonzero
  | false => rfl

theorem isSet_word {n bit : Nat} (inRange : n < map.mapSize) (inWord : bit < kIntsBits) :
    map.isSet (n * kIntsBits + bit) = (map.getNthMap n inRange).getLsbD bit :=
  isSet_bit (inRange.trans_le map.mapSize_le) inWord

/-! ## Searching -/

/-- What a search from CPU `id` on must find. -/
def Found (map : CpuMap) (id : Nat) (it : Iter) : Prop :=
  (id ≤ it.id ∧ it.id < map.numCpus ∧ map.isSet it.id = true ∧ it.cpu = .rep it.id ∧
    ∀ i, id ≤ i → i < it.id → map.isSet i = false) ∨
  (it = map.stop ∧ ∀ i, id ≤ i → i < map.numCpus → map.isSet i = false)

/-- No set CPU from `id` on before word `mapIdx`, and the set CPUs from `id` on in
that word are the bits of `word`. -/
structure Searching (map : CpuMap) (id mapIdx : Nat) (word : BitVec 64) : Prop where
  started : id < (mapIdx + 1) * kIntsBits
  seen : ∀ i, id ≤ i → i < mapIdx * kIntsBits → map.isSet i = false
  unseen : mapIdx < map.mapSize → ∀ bit, bit < kIntsBits → word.getLsbD bit =
    (decide (id ≤ mapIdx * kIntsBits + bit) && map.isSet (mapIdx * kIntsBits + bit))

section Searching

variable {id mapIdx : Nat} {word : BitVec 64}

private theorem Searching.isSet_false (searching : map.Searching id mapIdx word)
    (inMap : mapIdx < map.mapSize) {i : Nat} (from_id : id ≤ i)
    (inWord : i < (mapIdx + 1) * kIntsBits)
    (clear : mapIdx * kIntsBits ≤ i → word.getLsbD (i - mapIdx * kIntsBits) = false) :
    map.isSet i = false := by
  by_cases earlier : i < mapIdx * kIntsBits
  · exact searching.seen i from_id earlier
  · have later := Nat.le_of_not_lt earlier
    have bit := searching.unseen inMap (i - mapIdx * kIntsBits) (by unfold kIntsBits at *; omega)
    rw [clear later, Nat.add_sub_cancel' later, decide_eq_true from_id, Bool.true_and] at bit
    exact bit.symm

private theorem Searching.next (searching : map.Searching id mapIdx 0)
    (inMap : mapIdx < map.mapSize)
    {word' : BitVec 64}
    (isWord : ∀ inRange : mapIdx + 1 < map.mapSize, word' = map.getNthMap (mapIdx + 1) inRange) :
    map.Searching id (mapIdx + 1) word' := by
  have started := searching.started
  constructor
  · rw [Nat.succ_mul]
    omega
  · intro i from_id inWord
    exact searching.isSet_false inMap from_id inWord fun _ => BitVec.getLsbD_zero
  · intro inRange bit inWord
    rw [isWord inRange, isSet_word inRange inWord, decide_eq_true (by omega), Bool.true_and]

/-- The word at the cursor with the bits below the cursor masked. -/
theorem searching_start (inRange : id / kIntsBits < map.mapSize) :
    map.Searching id (id / kIntsBits)
      (map.getNthMap (id / kIntsBits) inRange &&& (BitVec.allOnes 64 <<< (id % kIntsBits))) := by
  have divided := Nat.div_add_mod id kIntsBits
  constructor
  · unfold kIntsBits at *
    omega
  · intro i from_id earlier
    unfold kIntsBits at *
    omega
  · intro inMap bit inWord
    have masked : (BitVec.allOnes 64 <<< (id % kIntsBits)).getLsbD bit =
        decide (id ≤ id / kIntsBits * kIntsBits + bit) := by
      rw [BitVec.getLsbD_shiftLeft, BitVec.getLsbD_allOnes, Bool.eq_iff_iff]
      simp
      unfold kIntsBits at *
      omega
    rw [BitVec.getLsbD_and, masked, isSet_word inRange inWord, Bool.and_comm]

private theorem Searching.found (within : map.Within) (searching : map.Searching id mapIdx word) :
    map.Found id (map.findInWords mapIdx word) := by
  induction mapIdx, word using findInWords.induct map with
  | case1 mapIdx word inMap nonzero =>
      have inWord : word.ctz.toNat < kIntsBits := ctz_lt nonzero
      have lowest := BitVec.getLsbD_true_ctz_of_ne_zero nonzero
      rw [searching.unseen inMap _ inWord, Bool.and_eq_true, decide_eq_true_eq] at lowest
      obtain ⟨from_id, set⟩ := lowest
      have inBitmap : mapIdx * kIntsBits + word.ctz.toNat < MAX_CPUS := by
        have bounded := map.words_le
        have next : (mapIdx + 1) * kIntsBits ≤ map.mapSize * kIntsBits :=
          Nat.mul_le_mul_right _ inMap
        rw [Nat.succ_mul] at next
        omega
      rw [findInWords, if_pos inMap, if_pos nonzero]
      refine .inl ⟨from_id, within _ inBitmap set, set, rfl, ?_⟩
      intro i from_id' below
      refine searching.isSet_false inMap from_id' ?_ ?_
      · rw [Nat.succ_mul]
        dsimp only at below
        omega
      · intro later
        dsimp only at below
        exact BitVec.getLsbD_false_of_lt_ctz (by omega)
  | case2 mapIdx word inMap zero inRange ih =>
      have isZero : word = 0 := not_not.mp zero
      subst isZero
      rw [findInWords, if_pos inMap, if_neg zero, dif_pos inRange]
      exact ih (searching.next inMap fun _ => rfl)
  | case3 mapIdx word inMap zero outOfRange ih =>
      have isZero : word = 0 := not_not.mp zero
      subst isZero
      rw [findInWords, if_pos inMap, if_neg zero, dif_neg outOfRange]
      exact ih (searching.next inMap fun inRange => absurd inRange outOfRange)
  | case4 mapIdx word outOfRange =>
      rw [findInWords, if_neg outOfRange]
      refine .inr ⟨rfl, ?_⟩
      intro i from_id below
      refine searching.seen i from_id (below.trans_le (map.numCpus_le_words.trans ?_))
      exact Nat.mul_le_mul_right _ (Nat.le_of_not_lt outOfRange)

end Searching

theorem findNextSetBit_found (within : map.Within) (id : Nat) :
    map.Found id (map.findNextSetBit id) := by
  unfold findNextSetBit
  split
  · next inRange => exact (searching_start inRange).found within
  · next outOfRange =>
      refine .inr ⟨rfl, ?_⟩
      intro i from_id below
      have words := map.numCpus_le_words
      have reached : map.mapSize ≤ id / kIntsBits := Nat.le_of_not_lt outOfRange
      rw [Nat.le_div_iff_mul_le (by decide)] at reached
      omega

/-! ## Iteration -/

theorem end'_eq_stop (within : map.Within) : map.end' = map.stop := by
  rcases map.findNextSetBit_found within map.numCpus with ⟨after, before, -⟩ | ⟨isStop, -⟩
  · omega
  · exact isStop

private theorem Found.iterate (within : map.Within) {id : Nat} {it : Iter} (found : map.Found id it)
    {fuel : Nat} (enough : map.numCpus - id < fuel) :
    map.iterate fuel it =
      some (((List.range' id (map.numCpus - id)).filter map.isSet).map .rep) := by
  induction fuel generalizing id it with
  | zero => omega
  | succ fuel ih =>
      unfold CpuMap.iterate
      rw [end'_eq_stop within]
      rcases found with ⟨after, before, set, isCpu, none⟩ | ⟨rfl, none⟩
      · have later := ih (map.findNextSetBit_found within (it.id + 1)) (by omega)
        rw [if_pos (show it.id ≠ map.stop.id from before.ne), later,
          filter_range'_first after before none set, isCpu]
        rfl
      · rw [if_neg (fun different => different rfl), filter_range'_none none]
        rfl

theorem iterate_begin (within : map.Within) {fuel : Nat} (enough : map.numCpus < fuel) :
    map.iterate fuel map.begin = some (map.setCpus.map .rep) := by
  have all := (map.findNextSetBit_found within 0).iterate within enough
  rw [Nat.sub_zero, ← List.range_eq_range'] at all
  exact all

/-! ## Word by word -/

/-- The set bits of the words from `i` on. -/
def wordsFrom (map : CpuMap) (i : Nat) : List Nat :=
  (List.range' (i * kIntsBits) (map.mapSize * kIntsBits - i * kIntsBits)).filter map.isSet

private theorem wordsFrom_zero (within : map.Within) : map.wordsFrom 0 = map.setCpus := by
  have split := @List.range'_append_1 0 map.numCpus (map.mapSize * kIntsBits - map.numCpus)
  rw [Nat.add_sub_cancel' map.numCpus_le_words, Nat.zero_add] at split
  have unused : ∀ i, map.numCpus ≤ i → i < map.mapSize * kIntsBits → map.isSet i = false := by
    intro i outside inWords
    by_contra set
    have inside := within i (inWords.trans_le map.words_le) (Bool.not_eq_false _ ▸ set)
    omega
  unfold wordsFrom setCpus
  rw [Nat.zero_mul, Nat.sub_zero, ← split, List.filter_append, filter_range'_none unused,
    List.append_nil, List.range_eq_range']

private theorem wordsFrom_end {i : Nat} (outOfRange : ¬ i < map.mapSize) :
    map.wordsFrom i = [] := by
  have past : map.mapSize * kIntsBits ≤ i * kIntsBits :=
    Nat.mul_le_mul_right _ (Nat.le_of_not_lt outOfRange)
  unfold wordsFrom
  rw [Nat.sub_eq_zero_of_le past]
  rfl

private theorem wordsFrom_of_lt {i : Nat} (inRange : i < map.mapSize) :
    map.wordsFrom i =
      (setBits (map.getNthMap i inRange)).map (i * kIntsBits + ·) ++ map.wordsFrom (i + 1) := by
  have past : (i + 1) * kIntsBits ≤ map.mapSize * kIntsBits := Nat.mul_le_mul_right _ inRange
  have split := @List.range'_append_1 (i * kIntsBits) kIntsBits
    (map.mapSize * kIntsBits - (i + 1) * kIntsBits)
  rw [← Nat.succ_mul] at split
  have word : (List.range' (i * kIntsBits) kIntsBits).filter map.isSet =
      (setBits (map.getNthMap i inRange)).map (i * kIntsBits + ·) := by
    rw [List.range'_eq_map_range, List.filter_map]
    refine congrArg _ (List.filter_congr ?_)
    intro bit inWord
    exact isSet_word inRange (List.mem_range.mp inWord)
  unfold wordsFrom
  rw [← word, ← List.filter_append, split]
  congr 2
  rw [Nat.succ_mul] at past ⊢
  omega

private theorem popcount_toNat (word : BitVec 64) :
    (BitVec.ofNat 32 word.cpop.toNat).toNat = (setBits word).length := by
  have small := BitVec.toNat_cpop_le word
  rw [length_setBits, BitVec.toNat_ofNat, Nat.mod_eq_of_lt (by omega)]

theorem countSetCpusFrom_toNat {i : Nat} {ret : BitVec 32}
    (small : ret.toNat + (map.wordsFrom i).length < 2 ^ 32) :
    (map.countSetCpusFrom i ret).toNat = ret.toNat + (map.wordsFrom i).length := by
  induction i, ret using countSetCpusFrom.induct map with
  | case1 i ret inRange ih =>
      rw [wordsFrom_of_lt inRange, List.length_append, List.length_map] at small ⊢
      have added : (ret + BitVec.ofNat 32 (map.getNthMap i inRange).cpop.toNat).toNat =
          ret.toNat + (setBits (map.getNthMap i inRange)).length := by
        rw [BitVec.toNat_add, popcount_toNat, Nat.mod_eq_of_lt (by omega)]
      rw [added] at ih
      rw [countSetCpusFrom, dif_pos inRange, ih (by omega), Nat.add_assoc]
  | case2 i ret outOfRange =>
      rw [countSetCpusFrom, dif_neg outOfRange, wordsFrom_end outOfRange]
      rfl

private theorem length_setCpus_le : map.setCpus.length ≤ MAX_CPUS := by
  refine (List.length_filter_le ..).trans ?_
  rw [List.length_range]
  exact map.numCpus_le

theorem size_toNat (within : map.Within) : map.size.toNat = map.setCpus.length := by
  have few := map.length_setCpus_le
  have counted := @countSetCpusFrom_toNat map 0 0
  rw [wordsFrom_zero within] at counted
  exact (counted (by unfold MAX_CPUS at few; simp; omega)).trans (Nat.zero_add _)

private theorem emptyFrom_iff {i : Nat} : map.emptyFrom i = true ↔ map.wordsFrom i = [] := by
  induction i using emptyFrom.induct map with
  | case1 i inRange nonzero =>
      rw [emptyFrom, dif_pos inRange, if_pos nonzero, wordsFrom_of_lt inRange,
        List.append_eq_nil_iff, List.map_eq_nil_iff, setBits_eq_nil_iff]
      constructor
      · nofun
      · intro both
        exact absurd both.1 nonzero
  | case2 i inRange zero ih =>
      have isZero := not_not.mp zero
      rw [emptyFrom, dif_pos inRange, if_neg zero, ih, wordsFrom_of_lt inRange, isZero,
        setBits_zero, List.map_nil, List.nil_append]
  | case3 i outOfRange =>
      rw [emptyFrom, dif_neg outOfRange, wordsFrom_end outOfRange]
      simp

/-! ## Selection -/

/-- The CPU of an optional id. -/
def cpuOf : Option Nat → Cpu
  | none => .kUninitialized
  | some id => .rep id

private theorem ctz_clearLowest_iterate {word : BitVec 64} {n : Nat}
    (inRange : n < (setBits word).length) :
    (clearLowest^[n] word).ctz.toNat = (setBits word)[n] := by
  have rest := setBits_clearLowest_iterate word n
  rw [List.drop_eq_getElem_cons inRange] at rest
  have nonzero : clearLowest^[n] word ≠ 0 := by
    intro zero
    rw [zero, setBits_zero] at rest
    cases rest
  rw [setBits_of_ne_zero nonzero] at rest
  exact (List.cons.inj rest).1

private theorem getNthCpuFrom_eq {i : Nat} {n : BitVec 32} :
    map.getNthCpuFrom i n = cpuOf (map.wordsFrom i)[n.toNat]? := by
  induction i, n using getNthCpuFrom.induct map with
  | case1 i n inRange word count skips ih =>
      have isCount : count.toNat = (setBits word).length := popcount_toNat word
      have skipped : (setBits word).length ≤ n.toNat := isCount ▸ BitVec.le_def.mp skips
      rw [getNthCpuFrom, dif_pos inRange]
      dsimp only
      rw [if_pos skips, ih, wordsFrom_of_lt inRange, BitVec.toNat_sub_of_le skips, isCount,
        List.getElem?_append_right, List.length_map]
      rw [List.length_map]
      exact skipped
  | case2 i n inRange word count stays =>
      have isCount : count.toNat = (setBits word).length := popcount_toNat word
      have here : n.toNat < (setBits word).length :=
        isCount ▸ Nat.lt_of_not_le fun skips => stays (BitVec.le_def.mpr skips)
      rw [getNthCpuFrom, dif_pos inRange]
      dsimp only
      rw [if_neg stays, wordsFrom_of_lt inRange, List.getElem?_append_left, List.getElem?_map,
        List.getElem?_eq_getElem here, ctz_clearLowest_iterate here]
      · rfl
      · rw [List.length_map]
        exact here
  | case3 i n outOfRange =>
      rw [getNthCpuFrom, dif_neg outOfRange, wordsFrom_end outOfRange]
      rfl

theorem getNthCpu_eq (within : map.Within) (n : BitVec 32) :
    map.getNthCpu n = cpuOf map.setCpus[n.toNat]? := by
  rw [← wordsFrom_zero within]
  exact getNthCpuFrom_eq

private theorem getNthCpu_ofNat (within : map.Within) {i : Nat} (inRange : i < map.setCpus.length) :
    map.getNthCpu (BitVec.ofNat 32 i) = .rep map.setCpus[i] := by
  have few := map.length_setCpus_le
  unfold MAX_CPUS at few
  rw [getNthCpu_eq within, BitVec.toNat_ofNat, Nat.mod_eq_of_lt (by omega),
    List.getElem?_eq_getElem inRange]
  rfl

private theorem toVectorFrom_eq (within : map.Within) (i : Nat) :
    map.toVectorFrom i = (map.setCpus.drop i).map .rep := by
  induction i using toVectorFrom.induct map with
  | case1 i inRange cpu valid ih =>
      have inList : i < map.setCpus.length := size_toNat within ▸ inRange
      have isCpu := getNthCpu_ofNat within inList
      rw [toVectorFrom, if_pos inRange]
      dsimp only
      rw [if_pos valid, ih, isCpu, List.drop_eq_getElem_cons inList]
      rfl
  | case2 i inRange cpu invalid =>
      have isCpu : cpu = _ := getNthCpu_ofNat within (size_toNat within ▸ inRange)
      rw [isCpu] at invalid
      exact absurd rfl invalid
  | case3 i outOfRange =>
      rw [size_toNat within] at outOfRange
      rw [toVectorFrom, if_neg (size_toNat within ▸ outOfRange),
        List.drop_eq_nil_of_le (Nat.le_of_not_lt outOfRange)]
      rfl

theorem toIntVectorFrom_eq (within : map.Within) (i : Nat) :
    map.toIntVectorFrom i = map.setCpus.drop i := by
  induction i using toIntVectorFrom.induct map with
  | case1 i inRange invalid =>
      rw [getNthCpu_ofNat within (size_toNat within ▸ inRange)] at invalid
      cases invalid
  | case2 i inRange id valid ih =>
      have inList : i < map.setCpus.length := size_toNat within ▸ inRange
      have isCpu := getNthCpu_ofNat within inList
      rw [toIntVectorFrom, if_pos inRange, isCpu]
      dsimp only
      rw [ih, List.drop_eq_getElem_cons inList]
  | case3 i outOfRange =>
      rw [size_toNat within] at outOfRange
      rw [toIntVectorFrom, if_neg (size_toNat within ▸ outOfRange),
        List.drop_eq_nil_of_le (Nat.le_of_not_lt outOfRange)]

private theorem back_eq (within : map.Within) : map.back = cpuOf map.setCpus.getLast? := by
  have few := map.length_setCpus_le
  have isSize := size_toNat within
  unfold MAX_CPUS at few
  unfold back
  rw [getNthCpu_eq within, BitVec.toNat_sub, isSize, List.getLast?_eq_getElem?]
  cases length : map.setCpus.length with
  | zero =>
      rw [List.length_eq_zero_iff.mp length]
      rfl
  | succ count =>
      have wrapped : (2 ^ 32 - (1 : BitVec 32).toNat + (count + 1)) % 2 ^ 32 = count := by
        have one : (1 : BitVec 32).toNat = 1 := rfl
        omega
      rw [wrapped]
      rfl

/-! ## The result -/

/-- All views of a map list its set CPUs, in ascending order and each once. -/
theorem views_agree (within : map.Within) :
    map.setCpus.Pairwise (· < ·) ∧
    (∀ fuel, map.numCpus < fuel → map.iterate fuel map.begin = some (map.setCpus.map .rep)) ∧
    map.toVector = map.setCpus.map .rep ∧
    map.toIntVector = map.setCpus ∧
    (∀ i : BitVec 32, ∀ inRange : i.toNat < map.setCpus.length,
      map.getNthCpu i = .rep map.setCpus[i.toNat]) ∧
    (∀ i : BitVec 32, map.size ≤ i → map.getNthCpu i = .kUninitialized) ∧
    map.size.toNat = map.setCpus.length ∧
    (map.empty = true ↔ map.setCpus = []) ∧
    map.front = cpuOf map.setCpus.head? ∧
    map.back = cpuOf map.setCpus.getLast? := by
  refine ⟨List.pairwise_lt_range.filter _, fun fuel => iterate_begin within,
    toVectorFrom_eq within 0, toIntVectorFrom_eq within 0, ?_, ?_, size_toNat within, ?_,
    ?_, back_eq within⟩
  · intro i inRange
    rw [getNthCpu_eq within, List.getElem?_eq_getElem inRange]
    rfl
  · intro i outOfRange
    rw [BitVec.le_def, size_toNat within] at outOfRange
    rw [getNthCpu_eq within, List.getElem?_eq_none outOfRange]
    rfl
  · rw [← wordsFrom_zero within]
    exact emptyFrom_iff
  · unfold front
    rw [getNthCpu_eq within, List.head?_eq_getElem?]
    rfl

/-- CPUs at the edges of a word, in a map whose last word is not full. -/
theorem views_agree_at_word_edges :
    let map : CpuMap := ⟨65, by decide, fun n => if n.val = 0 then 0x8000000000000001 else
      if n.val = 1 then 1 else 0⟩
    map.Within ∧ map.toIntVector = [0, 63, 64] ∧
      map.iterate 66 map.begin = some [.rep 0, .rep 63, .rep 64] := by
  intro map
  have within : map.Within := by
    unfold Within MAX_CPUS
    decide +kernel
  have isList : map.setCpus = [0, 63, 64] := by decide +kernel
  have views := views_agree within
  refine ⟨within, ?_, ?_⟩
  · rw [views.2.2.2.1, isList]
  · rw [views.2.1 66 (by decide), isList]
    rfl

end CpuMap

end Ghost.Topology
