import Mathlib.Algebra.BigOperators.Fin
import Mathlib.Data.List.Perm.Basic
import Mathlib.Tactic

/-!
# Bucket queues with an occupancy bitmap

A bucket queue keeps one list per priority. A bitmap mirrors which buckets are
occupied, so the number of trailing zeros names the lowest occupied bucket.
-/

set_option autoImplicit false

namespace Ghost.Lib

abbrev Buckets (count : Nat) (α : Type) := Fin count → List α

section Lowest

variable {count : Nat} {α : Type}

/-- The bucket that the next removal takes from. -/
structure Buckets.Lowest (buckets : Buckets count α) (index : Fin count) : Prop where
  occupied : buckets index ≠ []
  below : ∀ other < index, buckets other = []

theorem Buckets.Lowest.unique {buckets : Buckets count α} {first second : Fin count}
    (firstLowest : buckets.Lowest first) (secondLowest : buckets.Lowest second) :
    first = second := by
  rcases lt_trichotomy first second with before | same | after
  · exact absurd (secondLowest.below first before) firstLowest.occupied
  · exact same
  · exact absurd (firstLowest.below second after) secondLowest.occupied

def Buckets.Vacant (buckets : Buckets count α) : Prop := ∀ index, buckets index = []

/-- Exactly one more occurrence of the value, in the given bucket; all other
buckets hold the same values. -/
def Buckets.Gains (buckets : Buckets count α) (index : Fin count) (value : α)
    (buckets' : Buckets count α) : Prop :=
  (buckets' index).Perm (value :: buckets index) ∧
    ∀ other, other ≠ index → (buckets' other).Perm (buckets other)

namespace Buckets.Gains

variable {buckets buckets' : Buckets count α} {index : Fin count} {value : α}

theorem mem_iff (gains : buckets.Gains index value buckets') {other : Fin count} {item : α} :
    item ∈ buckets' other ↔ item ∈ buckets other ∨ other = index ∧ item = value := by
  by_cases same : other = index
  · subst same
    rw [gains.1.mem_iff, List.mem_cons]
    tauto
  · rw [(gains.2 other same).mem_iff]
    simp [same]

theorem nodup (gains : buckets.Gains index value buckets')
    (unique : ∀ other, (buckets other).Nodup) (fresh : value ∉ buckets index) (other : Fin count) :
    (buckets' other).Nodup := by
  by_cases same : other = index
  · subst same
    exact gains.1.nodup_iff.mpr (List.nodup_cons.mpr ⟨fresh, unique other⟩)
  · exact (gains.2 other same).nodup_iff.mpr (unique other)

/-- Read backwards: the value is gone from its bucket. -/
theorem lost (gains : buckets.Gains index value buckets') (unique : ∀ other, (buckets' other).Nodup) :
    value ∉ buckets index ∧ ∀ other, (buckets other).Nodup := by
  have atIndex := List.nodup_cons.mp (gains.1.nodup_iff.mp (unique index))
  refine ⟨atIndex.1, fun other => ?_⟩
  by_cases same : other = index
  · exact same ▸ atIndex.2
  · exact (gains.2 other same).nodup_iff.mp (unique other)

end Buckets.Gains

theorem sum_length_eq_zero {buckets : Buckets count α} :
    (∑ index, (buckets index).length) = 0 ↔ buckets.Vacant := by
  simp [Finset.sum_eq_zero_iff, Buckets.Vacant]

/-- The array loop that adds up the bucket sizes. -/
theorem foldl_length_eq_sum (buckets : Buckets count α) :
    (List.finRange count).foldl (fun total index => total + (buckets index).length) 0 =
      ∑ index, (buckets index).length := by
  rw [← List.sum_ofFn, List.ofFn_eq_map, List.sum_eq_foldl_nat, List.foldl_map]

theorem foldl_length_eq_length (buckets : Buckets count α) :
    (List.finRange count).foldl (fun total index => total + (buckets index).length) 0 =
      ((List.finRange count).flatMap buckets).length := by
  rw [foldl_length_eq_sum, ← List.sum_ofFn, List.ofFn_eq_map, List.length_flatMap]

end Lowest

/-- One bucket is filled: reading them all yields its contents, if it is among them. -/
theorem flatMap_update {ι α : Type} [DecidableEq ι] {indices : List ι} (unique : indices.Nodup)
    (index : ι) (queue : List α) :
    indices.flatMap (Function.update (fun _ => []) index queue) =
      if index ∈ indices then queue else [] := by
  induction indices with
  | nil => simp
  | cons head tail ih =>
      obtain ⟨absent, unique'⟩ := List.nodup_cons.mp unique
      rw [List.flatMap_cons, ih unique']
      by_cases here : head = index
      · subst here
        simp [absent]
      · simp [here, Ne.symm here]

/-- Two bucket queues that trade places when the first runs empty. -/
structure TwoLevel (count : Nat) (α : Type) where
  active : Buckets count α
  expired : Buckets count α

namespace TwoLevel

variable {count : Nat} {α : Type}

/-- The queue whose active level holds the next value, if there is one. -/
inductive Turn (queue : TwoLevel count α) : TwoLevel count α → Prop
  | stay : ¬ queue.active.Vacant → Turn queue queue
  | trade : queue.active.Vacant → Turn queue ⟨queue.expired, queue.active⟩

/-- Removal of the front of the lowest occupied bucket, active level first. -/
inductive Pops (queue : TwoLevel count α) : Option α → TwoLevel count α → Prop
  | nothing : queue.active.Vacant → queue.expired.Vacant → Pops queue none queue
  | front {turned : TwoLevel count α} {index : Fin count} {value : α} {rest : List α} :
      Turn queue turned → turned.active.Lowest index → turned.active index = value :: rest →
      Pops queue (some value) ⟨Function.update turned.active index rest, turned.expired⟩

/-- One value dropped wherever it is; the others keep their order. -/
def drop [DecidableEq α] (queue : TwoLevel count α) (value : α) : TwoLevel count α where
  active index := (queue.active index).filter (· ≠ value)
  expired index := (queue.expired index).filter (· ≠ value)

/-- As long as some other value is active, a removal takes an active value and
leaves the expired level alone. -/
theorem Pops.of_active {queue queue' : TwoLevel count α} {popped : Option α}
    (pops : queue.Pops popped queue') (occupied : ¬ queue.active.Vacant) :
    ∃ value index rest, popped = some value ∧ queue.active index = value :: rest ∧
      queue' = ⟨Function.update queue.active index rest, queue.expired⟩ := by
  cases pops with
  | nothing vacant _ => exact absurd vacant occupied
  | front turn lowest head =>
      cases turn with
      | stay _ => exact ⟨_, _, _, rfl, head, rfl⟩
      | trade vacant => exact absurd vacant occupied

/-- A removal keeps every other value in its bucket, on one level or the other. -/
theorem Pops.mem_of_mem {queue queue' : TwoLevel count α} {popped : Option α}
    (pops : queue.Pops popped queue') {item : α} {index : Fin count}
    (member : item ∈ queue.active index ∨ item ∈ queue.expired index)
    (different : popped ≠ some item) :
    item ∈ queue'.active index ∨ item ∈ queue'.expired index := by
  cases pops with
  | nothing => exact member
  | @front turned lowestIndex value rest turn lowest head =>
      have turnedMember : item ∈ turned.active index ∨ item ∈ turned.expired index := by
        cases turn with
        | stay _ => exact member
        | trade _ => exact member.symm
      refine turnedMember.imp_left fun inActive => ?_
      dsimp only
      by_cases same : index = lowestIndex
      · subst same
        rw [head] at inActive
        rw [Function.update_self]
        exact List.mem_of_ne_of_mem (fun equal => different (equal ▸ rfl)) inActive
      · rwa [Function.update_of_ne same]

end TwoLevel

/-- Bit `i` is set exactly when bucket `i` exists and is occupied. -/
def Mirrors {width count : Nat} {α : Type} (bitmap : BitVec width)
    (buckets : Buckets count α) : Prop :=
  ∀ i, bitmap.getLsbD i = true ↔ ∃ inRange : i < count, buckets ⟨i, inRange⟩ ≠ []

namespace Mirrors

variable {width count : Nat} {α : Type} {bitmap : BitVec width} {buckets : Buckets count α}

theorem eq_zero_iff (mirrors : Mirrors bitmap buckets) :
    bitmap = BitVec.ofNat width 0 ↔ buckets.Vacant := by
  constructor
  · rintro rfl index
    by_contra occupied
    have bit := (mirrors index).mpr ⟨index.isLt, occupied⟩
    simp at bit
  · intro vacant
    refine BitVec.eq_of_getLsbD_eq fun i _ => ?_
    rw [BitVec.getLsbD_zero, ← Bool.not_eq_true, mirrors i]
    intro found
    obtain ⟨inRange, occupied⟩ := found
    exact occupied (vacant _)

/-- The trailing zeros of a nonzero bitmap name the lowest occupied bucket. -/
theorem ctz_lowest (mirrors : Mirrors bitmap buckets) (nonzero : bitmap ≠ BitVec.ofNat width 0) :
    ∃ inRange : bitmap.ctz.toNat < count, buckets.Lowest ⟨bitmap.ctz.toNat, inRange⟩ := by
  obtain ⟨inRange, occupied⟩ :=
    (mirrors bitmap.ctz.toNat).mp (BitVec.getLsbD_true_ctz_of_ne_zero nonzero)
  refine ⟨inRange, occupied, fun other below => ?_⟩
  by_contra otherOccupied
  have bit := (mirrors other).mpr ⟨other.isLt, otherOccupied⟩
  rw [BitVec.getLsbD_false_of_lt_ctz below] at bit
  simp at bit

private theorem getLsbD_bit (width index i : Nat) :
    (BitVec.ofNat width 1 <<< index).getLsbD i = (decide (index < width) && decide (index = i)) :=
  BitVec.getLsbD_twoPow index i

/-- Filling a bucket and setting its bit. -/
theorem set (mirrors : Mirrors bitmap buckets) (fits : count ≤ width) (index : Fin count)
    {items : List α} (occupied : items ≠ []) :
    Mirrors (bitmap ||| (BitVec.ofNat width 1 <<< index.val)) (Function.update buckets index items) := by
  intro i
  have inWidth : index.val < width := by omega
  simp only [BitVec.getLsbD_or, getLsbD_bit, Bool.or_eq_true, mirrors i, inWidth, decide_true,
    Bool.true_and, decide_eq_true_eq]
  by_cases same : index.val = i
  · subst same
    simp [occupied]
  · have different : ∀ inRange : i < count, (⟨i, inRange⟩ : Fin count) ≠ index := fun _ equal =>
      same (congrArg Fin.val equal).symm
    simp [same, Function.update_of_ne (different _)]

/-- Replacing the content of an occupied bucket, its bit cleared if nothing is left. -/
theorem replace (mirrors : Mirrors bitmap buckets) (index : Fin count)
    (occupied : buckets index ≠ []) (items : List α) :
    Mirrors (if items = [] then bitmap &&& ~~~(BitVec.ofNat width 1 <<< index.val) else bitmap)
      (Function.update buckets index items) := by
  have bit := (mirrors index).mpr ⟨index.isLt, occupied⟩
  have inWidth : index.val < width := BitVec.lt_of_getLsbD bit
  intro i
  by_cases same : index.val = i
  · subst same
    split
    · next nothing => simp [nothing, inWidth]
    · next something => simp [something, bit]
  · have different : ∀ inRange : i < count, (⟨i, inRange⟩ : Fin count) ≠ index := fun _ equal =>
      same (congrArg Fin.val equal).symm
    have kept : (if items = [] then bitmap &&& ~~~(BitVec.ofNat width 1 <<< index.val) else bitmap).getLsbD i =
        bitmap.getLsbD i := by
      split
      · by_cases low : i < width
        · rw [BitVec.getLsbD_and, BitVec.getLsbD_not, getLsbD_bit]
          simp [same, low]
        · simp [BitVec.getLsbD_of_ge _ _ (not_lt.mp low)]
      · rfl
    rw [kept, mirrors i]
    simp [Function.update_of_ne (different _)]

end Mirrors

end Ghost.Lib
