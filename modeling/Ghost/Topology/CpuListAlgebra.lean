import Ghost.Topology.CpuSets
import Mathlib.Data.Fintype.Basic

/-!
# The set algebra of CPU lists

The mutators and operators of `CpuList` in `lib/topology.h` for both kinds of storage. A
`WrappedCpuList` overrides `GetMap`, so its bits are those of a bitmap elsewhere in
memory and its own array is never used. The binary operators take their left operand by
value: the copy is a `CpuList`, with that array.
-/

set_option autoImplicit false

namespace Ghost.Topology

open Lib

abbrev Words := Fin kMapCapacity → BitVec 64

/-- The bitmaps that wrapped lists point to. -/
abbrev Memory := Nat → Words

/-- A `CpuList`, or a `WrappedCpuList` if it has a pointer. -/
structure CpuList where
  bitmapInternal : Words
  bitmapPtr : Option Nat
  unused : bitmapPtr ≠ none → bitmapInternal = fun _ => 0

abbrev CpuNumber := Fin MAX_CPUS

private theorem wordOf_lt (id : CpuNumber) : id.val / kIntsBits < kMapCapacity := by
  have inRange := id.isLt
  unfold kMapCapacity MAX_CPUS kIntsBits at *
  omega

def wordOf (id : CpuNumber) : Fin kMapCapacity := ⟨id.val / kIntsBits, wordOf_lt id⟩

/-- `std::transform` over the first `size` words, into the first operand. -/
def transform (size : Nat) (op : BitVec 64 → BitVec 64 → BitVec 64) (dst src : Words) : Words :=
  fun n => if n.val < size then op (dst n) (src n) else dst n

namespace CpuList

/-- `GetMap` and `GetMapConst`. -/
def getMap (memory : Memory) (list : CpuList) : Words :=
  match list.bitmapPtr with
  | none => list.bitmapInternal
  | some ptr => memory ptr

/-- Writes through the pointer that `GetMap` returns. -/
def store (memory : Memory) (list : CpuList) (words : Words) : Memory × CpuList :=
  match isPtr : list.bitmapPtr with
  | none => (memory, { list with bitmapInternal := words, unused := fun wrapped => absurd isPtr wrapped })
  | some ptr => (Function.update memory ptr words, list)

/-- What the queries of `CpuMap` see. -/
def view {numCpus : Nat} (fits : numCpus ≤ MAX_CPUS) (memory : Memory) (list : CpuList) : CpuMap :=
  ⟨numCpus, fits, list.getMap memory⟩

def set (memory : Memory) (list : CpuList) (id : CpuNumber) : Memory × CpuList :=
  let words := list.getMap memory
  list.store memory
    (Function.update words (wordOf id) (words (wordOf id) ||| 1#64 <<< (id.val % kIntsBits)))

def clear (memory : Memory) (list : CpuList) (id : CpuNumber) : Memory × CpuList :=
  let words := list.getMap memory
  list.store memory
    (Function.update words (wordOf id) (words (wordOf id) &&& ~~~(1#64 <<< (id.val % kIntsBits))))

section Operations

variable (mapSize : Nat) (memory : Memory) (list src : CpuList)

/-- The three mutators differ in the function on words. -/
def combine (op : BitVec 64 → BitVec 64 → BitVec 64) : Memory × CpuList :=
  list.store memory (transform mapSize op (list.getMap memory) (src.getMap memory))

def intersection : Memory × CpuList := list.combine mapSize memory src fun a b => a &&& b

def union : Memory × CpuList := list.combine mapSize memory src fun a b => a ||| b

def subtract : Memory × CpuList := list.combine mapSize memory src fun a b => a &&& ~~~b

/-- `operator+=`. -/
def addAssign : Memory × CpuList := list.union mapSize memory src

/-- `operator-=`. -/
def subAssign : Memory × CpuList := list.subtract mapSize memory src

/-- A parameter of type `CpuList` is a copy of the base class part. -/
def byValue : CpuList := { list with bitmapPtr := none, unused := fun wrapped => absurd rfl wrapped }

/-- `operator+`. -/
def add : Memory × CpuList := list.byValue.addAssign mapSize memory src

/-- `operator-`. -/
def sub : Memory × CpuList := list.byValue.subAssign mapSize memory src

end Operations

/-! ## Sets -/

/-- The ids a list holds. -/
def ids (memory : Memory) (list : CpuList) : Finset CpuNumber :=
  Finset.univ.filter fun id => (list.getMap memory (wordOf id)).getLsbD (id.val % kIntsBits) = true

variable {memory : Memory} {list src other : CpuList} {id : CpuNumber} {words : Words}

@[simp] theorem mem_ids : id ∈ list.ids memory ↔
    (list.getMap memory (wordOf id)).getLsbD (id.val % kIntsBits) = true := by
  unfold ids
  rw [Finset.mem_filter]
  exact and_iff_right (Finset.mem_univ id)

private theorem isSet_view {numCpus : Nat} {fits : numCpus ≤ MAX_CPUS} :
    (list.view fits memory).isSet id.val = true ↔ id ∈ list.ids memory := by
  have split : id.val = id.val / kIntsBits * kIntsBits + id.val % kIntsBits := by
    unfold kIntsBits
    omega
  have inWord : id.val % kIntsBits < kIntsBits := Nat.mod_lt _ (by decide)
  rw [mem_ids, split, CpuMap.isSet_bit (wordOf_lt id) inWord, ← split]
  rfl

/-- The two lists write to one bitmap. -/
def Shares (list other : CpuList) : Prop :=
  list.bitmapPtr ≠ none ∧ list.bitmapPtr = other.bitmapPtr

private theorem getMap_store :
    (list.store memory words).2.getMap (list.store memory words).1 = words := by
  unfold store
  split
  · next isPtr =>
      unfold getMap
      simp [isPtr]
  · next ptr isPtr =>
      unfold getMap
      simp [isPtr]

private theorem getMap_store_of_shares (shared : list.Shares other) :
    other.getMap (list.store memory words).1 = words := by
  obtain ⟨wrapped, same⟩ := shared
  unfold store
  split
  · next isPtr => exact absurd isPtr wrapped
  · next ptr isPtr =>
      unfold getMap
      rw [← same, isPtr]
      exact Function.update_self ..

private theorem getMap_store_of_not_shares (apart : ¬ list.Shares other) :
    other.getMap (list.store memory words).1 = other.getMap memory := by
  unfold store
  split
  · rfl
  · next ptr isPtr =>
      unfold getMap
      split
      · rfl
      · next otherPtr isOther =>
          have different : otherPtr ≠ ptr := by
            rintro rfl
            exact apart ⟨by simp [isPtr], isPtr.trans isOther.symm⟩
          exact Function.update_of_ne different ..

private theorem ids_of_shares (shared : list.Shares other) :
    list.ids memory = other.ids memory := by
  have same : list.getMap memory = other.getMap memory := by
    obtain ⟨ptr, isPtr⟩ := Option.ne_none_iff_exists'.mp shared.1
    unfold getMap
    rw [← shared.2, isPtr]
  unfold ids
  rw [same]

/-! ## Single ids -/

private theorem getLsbD_update {value : BitVec 64} {id' : CpuNumber} :
    (Function.update words (wordOf id) value (wordOf id')).getLsbD (id'.val % kIntsBits) =
      if id'.val / kIntsBits = id.val / kIntsBits then value.getLsbD (id'.val % kIntsBits)
      else (words (wordOf id')).getLsbD (id'.val % kIntsBits) := by
  by_cases sameWord : id'.val / kIntsBits = id.val / kIntsBits
  · have same : wordOf id' = wordOf id := Fin.ext sameWord
    rw [same, Function.update_self, if_pos sameWord]
  · have different : wordOf id' ≠ wordOf id := fun same => sameWord (congrArg Fin.val same)
    rw [Function.update_of_ne different, if_neg sameWord]

private theorem getLsbD_mask {id' : CpuNumber}
    (sameWord : id'.val / kIntsBits = id.val / kIntsBits) :
    (1#64 <<< (id.val % kIntsBits)).getLsbD (id'.val % kIntsBits) = decide (id' = id) := by
  have inWord : id.val % kIntsBits < 64 := Nat.mod_lt _ (by decide)
  have sameBit : id.val % kIntsBits = id'.val % kIntsBits ↔ id' = id := by
    rw [Fin.ext_iff]
    unfold kIntsBits at *
    omega
  rw [← BitVec.twoPow_eq, BitVec.getLsbD_twoPow, decide_eq_true inWord, Bool.true_and]
  exact decide_eq_decide.mpr sameBit

private theorem ids_set :
    (list.set memory id).2.ids (list.set memory id).1 = insert id (list.ids memory) := by
  ext id'
  rw [Finset.mem_insert, mem_ids, mem_ids, set, getMap_store, getLsbD_update]
  by_cases sameWord : id'.val / kIntsBits = id.val / kIntsBits
  · have same : wordOf id' = wordOf id := Fin.ext sameWord
    rw [if_pos sameWord, BitVec.getLsbD_or, getLsbD_mask sameWord, same]
    simp [or_comm]
  · have different : id' ≠ id := fun same => sameWord (same ▸ rfl)
    rw [if_neg sameWord]
    simp [different]

private theorem ids_clear :
    (list.clear memory id).2.ids (list.clear memory id).1 = (list.ids memory).erase id := by
  ext id'
  rw [Finset.mem_erase, mem_ids, mem_ids, clear, getMap_store, getLsbD_update]
  by_cases sameWord : id'.val / kIntsBits = id.val / kIntsBits
  · have same : wordOf id' = wordOf id := Fin.ext sameWord
    have inWord : id'.val % kIntsBits < 64 := Nat.mod_lt _ (by decide)
    rw [if_pos sameWord, BitVec.getLsbD_and, BitVec.getLsbD_not, decide_eq_true inWord, Bool.true_and,
      getLsbD_mask sameWord, same]
    simp [and_comm]
  · have different : id' ≠ id := fun same => sameWord (same ▸ rfl)
    rw [if_neg sameWord]
    simp [different]

/-! ## Whole lists -/

/-- Below the first word out of use. -/
def InWords (mapSize : Nat) (ids : Finset CpuNumber) : Prop := ∀ id ∈ ids, id.val / kIntsBits < mapSize

/-- An operation on words that works bit by bit. -/
structure Bitwise (op : BitVec 64 → BitVec 64 → BitVec 64) (onBits : Bool → Bool → Bool) : Prop where
  bits : ∀ (a b : BitVec 64) (i : Nat), i < 64 →
    (op a b).getLsbD i = onBits (a.getLsbD i) (b.getLsbD i)
  zero : onBits false false = false

private theorem bitwise_and : Bitwise (fun a b => a &&& b) (fun a b => a && b) :=
  ⟨fun _ _ _ _ => BitVec.getLsbD_and, rfl⟩

private theorem bitwise_or : Bitwise (fun a b => a ||| b) (fun a b => a || b) :=
  ⟨fun _ _ _ _ => BitVec.getLsbD_or, rfl⟩

private theorem bitwise_andNot : Bitwise (fun a b => a &&& ~~~b) (fun a b => a && !b) :=
  ⟨fun a b i inWord => by simp [inWord], rfl⟩

variable {mapSize : Nat} {op : BitVec 64 → BitVec 64 → BitVec 64} {onBits : Bool → Bool → Bool}

private theorem mem_transform (bitwise : Bitwise op onBits)
    (inUse : InWords mapSize (list.ids memory))
    (inUse' : InWords mapSize (src.ids memory)) :
    (transform mapSize op (list.getMap memory) (src.getMap memory) (wordOf id)).getLsbD
        (id.val % kIntsBits) =
      onBits (decide (id ∈ list.ids memory)) (decide (id ∈ src.ids memory)) := by
  have inWord : id.val % kIntsBits < 64 := Nat.mod_lt _ (by decide)
  unfold transform
  by_cases used : (wordOf id).val < mapSize
  · rw [if_pos used, bitwise.bits _ _ _ inWord]
    simp only [mem_ids, Bool.decide_eq_true]
  · have unset : id ∉ list.ids memory := fun member => used (inUse id member)
    have unset' : id ∉ src.ids memory := fun member => used (inUse' id member)
    rw [if_neg used, decide_eq_false unset, decide_eq_false unset', bitwise.zero]
    simpa using unset

private theorem mem_ids_combine (bitwise : Bitwise op onBits)
    (inUse : InWords mapSize (list.ids memory))
    (inUse' : InWords mapSize (src.ids memory)) :
    id ∈ (list.combine mapSize memory src op).2.ids (list.combine mapSize memory src op).1 ↔
      onBits (decide (id ∈ list.ids memory)) (decide (id ∈ src.ids memory)) = true := by
  rw [mem_ids, combine, getMap_store, mem_transform bitwise inUse inUse']

private theorem mem_ids_combine_shared (bitwise : Bitwise op onBits)
    (inUse : InWords mapSize (list.ids memory)) (inUse' : InWords mapSize (src.ids memory))
    (shared : list.Shares src) :
    id ∈ src.ids (list.combine mapSize memory src op).1 ↔
      onBits (decide (id ∈ list.ids memory)) (decide (id ∈ src.ids memory)) = true := by
  rw [mem_ids, combine, getMap_store_of_shares shared, mem_transform bitwise inUse inUse']

private theorem ids_combine_apart (apart : ¬ list.Shares other) :
    other.ids (list.combine mapSize memory src op).1 = other.ids memory := by
  unfold ids combine
  rw [getMap_store_of_not_shares apart]

/-- The list becomes a set and its operand stays the same. -/
structure Becomes (memory : Memory) (src : CpuList) (result : Memory × CpuList)
    (expected : Finset CpuNumber) : Prop where
  becomes : result.2.ids result.1 = expected
  operand : src.ids result.1 = src.ids memory

private theorem combine_becomes (bitwise : Bitwise op onBits)
    (inUse : InWords mapSize (list.ids memory))
    (inUse' : InWords mapSize (src.ids memory)) (apart : list.Shares src → list.ids memory = ∅)
    {expected : Finset CpuNumber}
    (isExpected : ∀ id, id ∈ expected ↔
      onBits (decide (id ∈ list.ids memory)) (decide (id ∈ src.ids memory)) = true) :
    Becomes memory src (list.combine mapSize memory src op) expected := by
  constructor
  · ext id
    rw [mem_ids_combine bitwise inUse inUse', isExpected]
  · by_cases shared : list.Shares src
    · have empty := apart shared
      have empty' : src.ids memory = ∅ := ids_of_shares shared ▸ empty
      ext id
      rw [mem_ids_combine_shared bitwise inUse inUse' shared, empty, empty']
      simp [bitwise.zero]
    · exact ids_combine_apart shared

private theorem intersection_becomes (inUse : InWords mapSize (list.ids memory))
    (inUse' : InWords mapSize (src.ids memory)) (apart : list.Shares src → list.ids memory = ∅) :
    Becomes memory src (list.intersection mapSize memory src) (list.ids memory ∩ src.ids memory) := by
  apply combine_becomes bitwise_and inUse inUse' apart
  intro id
  rw [Finset.mem_inter, Bool.and_eq_true, decide_eq_true_eq, decide_eq_true_eq]

private theorem union_becomes (inUse : InWords mapSize (list.ids memory))
    (inUse' : InWords mapSize (src.ids memory)) (apart : list.Shares src → list.ids memory = ∅) :
    Becomes memory src (list.union mapSize memory src) (list.ids memory ∪ src.ids memory) := by
  apply combine_becomes bitwise_or inUse inUse' apart
  intro id
  rw [Finset.mem_union, Bool.or_eq_true, decide_eq_true_eq, decide_eq_true_eq]

private theorem subtract_becomes (inUse : InWords mapSize (list.ids memory))
    (inUse' : InWords mapSize (src.ids memory)) (apart : list.Shares src → list.ids memory = ∅) :
    Becomes memory src (list.subtract mapSize memory src) (list.ids memory \ src.ids memory) := by
  apply combine_becomes bitwise_andNot inUse inUse' apart
  intro id
  rw [Finset.mem_sdiff, Bool.and_eq_true, Bool.not_eq_true', decide_eq_true_eq, decide_eq_false_iff_not]

/-! ## Counting and comparing -/

section Queries

variable {numCpus : Nat} {fits : numCpus ≤ MAX_CPUS}

private theorem mapSize_view :
    (list.view fits memory).mapSize = (numCpus + kIntsBits - 1) / kIntsBits := rfl

/-- `Size` counts the words in use. -/
theorem size_view : (list.view fits memory).size.toNat =
    ((list.ids memory).filter fun id => id.val / kIntsBits < (list.view fits memory).mapSize).card := by
  have bounded := (list.view fits memory).words_le
  have few : ((list.view fits memory).wordsFrom 0).length ≤ MAX_CPUS := by
    refine (List.length_filter_le ..).trans ?_
    rw [List.length_range']
    omega
  have counted := @CpuMap.countSetCpusFrom_toNat (list.view fits memory) 0 0 (by
    unfold MAX_CPUS at few
    simp
    omega)
  have distinct : ((list.view fits memory).wordsFrom 0).Nodup := (List.nodup_range' _).filter _
  have sameIds : ((list.ids memory).filter fun id =>
        id.val / kIntsBits < (list.view fits memory).mapSize).map Fin.valEmbedding =
      ((list.view fits memory).wordsFrom 0).toFinset := by
    ext i
    rw [Finset.mem_map, List.mem_toFinset, CpuMap.wordsFrom, List.mem_filter, List.mem_range'_1]
    constructor
    · rintro ⟨id, member, rfl⟩
      obtain ⟨isMember, used⟩ := Finset.mem_filter.mp member
      rw [Nat.div_lt_iff_lt_mul (by decide)] at used
      refine ⟨?_, isSet_view.mpr isMember⟩
      rw [Fin.valEmbedding_apply]
      omega
    · rintro ⟨inRange, set⟩
      refine ⟨⟨i, by omega⟩, Finset.mem_filter.mpr ⟨isSet_view.mp set, ?_⟩, rfl⟩
      rw [Nat.div_lt_iff_lt_mul (by decide)]
      dsimp only
      omega
  rw [← Finset.card_map Fin.valEmbedding, sameIds, List.toFinset_card_of_nodup distinct]
  exact counted.trans (Nat.zero_add _)

/-- The id of a bit. -/
theorem exists_id (n : Fin kMapCapacity) {bit : Nat} (inWord : bit < 64) :
    ∃ id : CpuNumber, wordOf id = n ∧ id.val % kIntsBits = bit := by
  have inMap := n.isLt
  refine ⟨⟨n.val * kIntsBits + bit, ?_⟩, Fin.ext ?_, ?_⟩
  · unfold kMapCapacity MAX_CPUS kIntsBits at *
    omega
  · change (n.val * kIntsBits + bit) / kIntsBits = n.val
    unfold kIntsBits
    omega
  · dsimp only
    unfold kIntsBits
    omega

private theorem same_view (inUse : InWords (list.view fits memory).mapSize (list.ids memory))
    (inUse' : InWords (list.view fits memory).mapSize (src.ids memory)) :
    (list.view fits memory).same (src.view fits memory) = true ↔
      list.ids memory = src.ids memory := by
  unfold CpuMap.same
  rw [decide_eq_true_eq]
  constructor
  · intro sameWords
    ext id
    by_cases used : (wordOf id).val < (list.view fits memory).mapSize
    · have word : list.getMap memory (wordOf id) = src.getMap memory (wordOf id) :=
        sameWords (wordOf id) used
      rw [mem_ids, mem_ids, word]
    · exact ⟨fun member => absurd (inUse id member) used,
        fun member => absurd (inUse' id member) used⟩
  · intro sameIds n _
    apply BitVec.eq_of_getLsbD_eq
    intro bit inWord
    obtain ⟨id, isWord, isBit⟩ := exists_id n inWord
    have sameBit : id ∈ list.ids memory ↔ id ∈ src.ids memory := by rw [sameIds]
    rw [mem_ids, mem_ids, isWord, isBit] at sameBit
    exact Bool.eq_iff_iff.mpr sameBit

/-! ## The algebra -/

/-- What the operations and queries promise of two lists. -/
structure SetAlgebra {numCpus : Nat} (fits : numCpus ≤ MAX_CPUS) (memory : Memory)
    (a b : CpuList) : Prop where
  set : ∀ id, (a.set memory id).2.ids (a.set memory id).1 = insert id (a.ids memory)
  clear : ∀ id, (a.clear memory id).2.ids (a.clear memory id).1 = (a.ids memory).erase id
  intersection : Becomes memory b (a.intersection (a.view fits memory).mapSize memory b)
    (a.ids memory ∩ b.ids memory)
  union : Becomes memory b (a.union (a.view fits memory).mapSize memory b)
    (a.ids memory ∪ b.ids memory)
  subtract : Becomes memory b (a.subtract (a.view fits memory).mapSize memory b)
    (a.ids memory \ b.ids memory)
  addAssign : Becomes memory b (a.addAssign (a.view fits memory).mapSize memory b)
    (a.ids memory ∪ b.ids memory)
  subAssign : Becomes memory b (a.subAssign (a.view fits memory).mapSize memory b)
    (a.ids memory \ b.ids memory)
  add : Becomes memory b (a.add (a.view fits memory).mapSize memory b)
    (a.ids memory ∪ b.ids memory)
  add_left : a.ids (a.add (a.view fits memory).mapSize memory b).1 = a.ids memory
  sub : Becomes memory b (a.sub (a.view fits memory).mapSize memory b)
    (a.ids memory \ b.ids memory)
  sub_left : a.ids (a.sub (a.view fits memory).mapSize memory b).1 = a.ids memory
  isSet : ∀ id : CpuNumber, ((a.view fits memory).isSet id.val = true ↔ id ∈ a.ids memory) ∧
    ((b.view fits memory).isSet id.val = true ↔ id ∈ b.ids memory)
  size : (a.view fits memory).size.toNat = (a.ids memory).card ∧
    (b.view fits memory).size.toNat = (b.ids memory).card
  equal : (a.view fits memory).same (b.view fits memory) = true ↔ a.ids memory = b.ids memory

/-- No id lies beyond the words in use, a wrapped left operand adds nothing to the right one,
and lists on one bitmap are empty. -/
structure Sound {numCpus : Nat} (fits : numCpus ≤ MAX_CPUS) (memory : Memory) (a b : CpuList) :
    Prop where
  inWords : InWords (a.view fits memory).mapSize (a.ids memory ∪ b.ids memory)
  unsliced : a.bitmapPtr = none ∨ a.ids memory ⊆ b.ids memory
  apart : a.Shares b → a.ids memory = ∅

private theorem inWords_of_size
    (counted : (list.view fits memory).size.toNat = (list.ids memory).card) :
    InWords (list.view fits memory).mapSize (list.ids memory) := by
  rw [size_view, Finset.card_filter_eq_iff] at counted
  exact counted

private theorem size_of_inWords
    (inUse : InWords (list.view fits memory).mapSize (list.ids memory)) :
    (list.view fits memory).size.toNat = (list.ids memory).card := by
  rw [size_view, Finset.card_filter_eq_iff]
  exact inUse

private theorem byValue_of_plain (plain : list.bitmapPtr = none) :
    list.byValue.ids memory = list.ids memory := by
  unfold ids byValue getMap
  rw [plain]

/-- The copy of a wrapped list is empty. -/
theorem byValue_of_wrapped (wrapped : list.bitmapPtr ≠ none) : list.byValue.ids memory = ∅ := by
  ext id
  have zero := list.unused wrapped
  rw [mem_ids]
  unfold byValue getMap
  simp [zero]

private theorem byValue_not_shares : ¬ list.byValue.Shares other := fun shared => shared.1 rfl

private theorem byValue_subset : list.byValue.ids memory ⊆ list.ids memory := by
  by_cases plain : list.bitmapPtr = none
  · rw [byValue_of_plain plain]
  · rw [byValue_of_wrapped plain]
    exact Finset.empty_subset _

/-- The value operators work on the copy and leave the memory alone. -/
theorem add_becomes (inUse : InWords mapSize (list.ids memory))
    (inUse' : InWords mapSize (src.ids memory)) :
    Becomes memory src (list.add mapSize memory src) (list.byValue.ids memory ∪ src.ids memory) :=
  union_becomes (fun id member => inUse id (byValue_subset member)) inUse'
    fun shared => absurd shared byValue_not_shares

private theorem sub_becomes (inUse : InWords mapSize (list.ids memory))
    (inUse' : InWords mapSize (src.ids memory)) :
    Becomes memory src (list.sub mapSize memory src) (list.byValue.ids memory \ src.ids memory) :=
  subtract_becomes (fun id member => inUse id (byValue_subset member)) inUse'
    fun shared => absurd shared byValue_not_shares

variable {a b : CpuList}

private theorem Sound.setAlgebra (sound : Sound fits memory a b) : SetAlgebra fits memory a b := by
  have inUse : InWords (a.view fits memory).mapSize (a.ids memory) :=
    fun id member => sound.inWords id (Finset.mem_union_left _ member)
  have inUse' : InWords (a.view fits memory).mapSize (b.ids memory) :=
    fun id member => sound.inWords id (Finset.mem_union_right _ member)
  have copied : a.byValue.ids memory ∪ b.ids memory = a.ids memory ∪ b.ids memory ∧
      a.byValue.ids memory \ b.ids memory = a.ids memory \ b.ids memory := by
    rcases sound.unsliced with plain | subset
    · rw [byValue_of_plain plain]
      exact ⟨rfl, rfl⟩
    · have subset' := byValue_subset.trans subset
      rw [Finset.union_eq_right.mpr subset, Finset.union_eq_right.mpr subset',
        Finset.sdiff_eq_empty_iff_subset.mpr subset, Finset.sdiff_eq_empty_iff_subset.mpr subset']
      exact ⟨rfl, rfl⟩
  have united := union_becomes inUse inUse' sound.apart
  have reduced := subtract_becomes inUse inUse' sound.apart
  have added := add_becomes inUse inUse'
  have subtracted := sub_becomes inUse inUse'
  rw [copied.1] at added
  rw [copied.2] at subtracted
  exact
    { set := fun _ => ids_set
      clear := fun _ => ids_clear
      intersection := intersection_becomes inUse inUse' sound.apart
      union := united
      subtract := reduced
      addAssign := united
      subAssign := reduced
      add := added
      add_left := ids_combine_apart byValue_not_shares
      sub := subtracted
      sub_left := ids_combine_apart byValue_not_shares
      isSet := fun _ => ⟨isSet_view, isSet_view⟩
      size := ⟨size_of_inWords inUse, size_of_inWords inUse'⟩
      equal := same_view inUse inUse' }

theorem SetAlgebra.sound (algebra : SetAlgebra fits memory a b) : Sound fits memory a b := by
  have inUse := inWords_of_size algebra.size.1
  have inUse' := inWords_of_size algebra.size.2
  rw [mapSize_view, ← @mapSize_view memory a] at inUse'
  constructor
  · intro id member
    rcases Finset.mem_union.mp member with left | right
    · exact inUse id left
    · exact inUse' id right
  · by_cases plain : a.bitmapPtr = none
    · exact .inl plain
    · right
      have united := algebra.add.becomes
      rw [(add_becomes inUse inUse').becomes, byValue_of_wrapped plain, Finset.empty_union] at united
      exact Finset.union_eq_right.mp united.symm
  · intro shared
    have emptied : b.ids (a.subtract (a.view fits memory).mapSize memory b).1 = ∅ := by
      ext id
      rw [CpuList.subtract, mem_ids_combine_shared bitwise_andNot inUse inUse' shared, ids_of_shares shared]
      simp
    rw [ids_of_shares shared, ← algebra.subtract.operand, emptied]

/-- The operations are those on sets exactly for sound operands. -/
theorem setAlgebra_iff (fits : numCpus ≤ MAX_CPUS) (memory : Memory) (a b : CpuList) :
    SetAlgebra fits memory a b ↔ Sound fits memory a b :=
  ⟨SetAlgebra.sound, Sound.setAlgebra⟩

end Queries

/-! ## Two lists of one CPU each -/

/-- A bitmap with CPU `bit` of its first word. -/
def single (bit : Nat) : Words := fun n => if n.val = 0 then 1#64 <<< bit else 0

def plain (words : Words) : CpuList := ⟨words, none, fun wrapped => absurd rfl wrapped⟩

def wrapped (ptr : Nat) : CpuList := ⟨fun _ => 0, some ptr, fun _ => rfl⟩

private theorem two_cpus_fit : 2 ≤ MAX_CPUS := by decide

private theorem zero_lt_cpus : 0 < MAX_CPUS := by decide

/-- The sum of a wrapped list with CPU 0 and a list with CPU 1 has no CPU 0. -/
theorem add_drops_wrapped :
    ⟨0, zero_lt_cpus⟩ ∈ (wrapped 0).ids (fun _ => single 0) ∧
      ⟨0, zero_lt_cpus⟩ ∉ ((wrapped 0).add 1 (fun _ => single 0) (plain (single 1))).2.ids
        (fun _ => single 0) ∧
      ¬ SetAlgebra two_cpus_fit (fun _ => single 0) (wrapped 0) (plain (single 1)) := by
  have member : ⟨0, zero_lt_cpus⟩ ∈ (wrapped 0).ids (fun _ => single 0) := by
    rw [mem_ids]
    decide
  refine ⟨member, ?_, ?_⟩
  · rw [mem_ids]
    decide
  · intro algebra
    rcases algebra.sound.unsliced with isPlain | subset
    · cases isPlain
    · have inRight := subset member
      rw [mem_ids] at inRight
      exact absurd inRight (by decide)

/-- CPUs 0 and 1. -/
def both : Words := fun n => if n.val = 0 then 3 else 0

private theorem sound_plain_plain :
    Sound two_cpus_fit (fun _ => single 0) (plain (single 0)) (plain (single 1)) where
  inWords := by
    unfold InWords
    decide +kernel
  unsliced := .inl rfl
  apart := fun shared => absurd rfl shared.1

private theorem sound_plain_wrapped :
    Sound two_cpus_fit (fun _ => single 0) (plain (single 1)) (wrapped 0) where
  inWords := by
    unfold InWords
    decide +kernel
  unsliced := .inl rfl
  apart := fun shared => absurd rfl shared.1

private theorem sound_wrapped_plain :
    Sound two_cpus_fit (fun _ => single 0) (wrapped 0) (plain both) where
  inWords := by
    unfold InWords
    decide +kernel
  unsliced := .inr (by decide +kernel)
  apart := fun shared => absurd shared.2 (by decide)

private theorem sound_wrapped_wrapped :
    Sound two_cpus_fit (fun _ => single 0) (wrapped 0) (wrapped 1) where
  inWords := by
    unfold InWords
    decide +kernel
  unsliced := .inr (by decide +kernel)
  apart := fun shared => absurd shared.2 (by decide)

/-- A wrapped list can be the right operand, or the left one of a list with its CPUs. -/
theorem setAlgebra_iff_wrapped :
    2 ≤ MAX_CPUS ∧
      SetAlgebra two_cpus_fit (fun _ => single 0) (plain (single 0)) (plain (single 1)) ∧
      SetAlgebra two_cpus_fit (fun _ => single 0) (plain (single 1)) (wrapped 0) ∧
      SetAlgebra two_cpus_fit (fun _ => single 0) (wrapped 0) (plain both) ∧
      SetAlgebra two_cpus_fit (fun _ => single 0) (wrapped 0) (wrapped 1) :=
  ⟨two_cpus_fit, (setAlgebra_iff two_cpus_fit _ _ _).mpr sound_plain_plain,
    (setAlgebra_iff two_cpus_fit _ _ _).mpr sound_plain_wrapped,
    (setAlgebra_iff two_cpus_fit _ _ _).mpr sound_wrapped_plain,
    (setAlgebra_iff two_cpus_fit _ _ _).mpr sound_wrapped_wrapped⟩

end CpuList

end Ghost.Topology
