import Mathlib.Tactic

/-!
# Pairs at a fixed distance

The numbers below a bound fall into classes of the same label. If each class is a pair
of numbers at the same distance, then the distance decides which pairs they are.
-/

set_option autoImplicit false

namespace Ghost.Lib

variable {Label : Type} {bound : Nat} {label : Nat → Label}

/-- The class of `i` is `i` and `j`, which may be `i` itself. -/
def Paired (bound : Nat) (label : Nat → Label) (i j : Nat) : Prop :=
  j < bound ∧ ∀ k < bound, label k = label i ↔ k = i ∨ k = j

namespace Paired

variable {i j j' : Nat}

theorem symm (paired : Paired bound label i j) (inRange : i < bound) :
    Paired bound label j i := by
  have same : label j = label i := (paired.2 j paired.1).mpr (.inr rfl)
  refine ⟨inRange, fun k below => ?_⟩
  rw [same, paired.2 k below, or_comm]

theorem unique (paired : Paired bound label i j) (paired' : Paired bound label i j') : j = j' := by
  have first := (paired'.2 j paired.1).mp ((paired.2 j paired.1).mpr (.inr rfl))
  have second := (paired.2 j' paired'.1).mp ((paired'.2 j' paired'.1).mpr (.inr rfl))
  omega

end Paired

/-- Every class is a pair at the same distance. -/
def PairedAt (bound : Nat) (label : Nat → Label) (offset : Nat) : Prop :=
  ∀ i < bound, ∃ j, Paired bound label i j ∧ (j = i + offset ∨ i = j + offset)

namespace PairedAt

variable {offset : Nat}

theorem even (pairedAt : PairedAt bound label 1) {i : Nat} (inRange : 2 * i < bound) :
    Paired bound label (2 * i) (2 * i + 1) := by
  induction i with
  | zero =>
      obtain ⟨j, paired, above | below⟩ := pairedAt _ inRange
      · exact above ▸ paired
      · omega
  | succ i ih =>
      have before := ih (by omega)
      obtain ⟨j, paired, above | below⟩ := pairedAt _ inRange
      · exact above ▸ paired
      · have isBefore : j = 2 * i + 1 := by omega
        subst isBefore
        have same := (paired.symm inRange).unique (before.symm (by omega))
        omega

theorem parity (pairedAt : PairedAt bound label 1) {i : Nat} (inRange : i < bound) :
    Paired bound label i (if i % 2 = 0 then i + 1 else i - 1) := by
  split
  · next isEven =>
      have isDouble : i = 2 * (i / 2) := by omega
      rw [isDouble] at inRange ⊢
      exact pairedAt.even inRange
  · next isOdd =>
      have isNext : i = 2 * (i / 2) + 1 := by omega
      have lower : 2 * (i / 2) < bound := by omega
      have paired := (pairedAt.even lower).symm lower
      rw [← isNext] at paired
      have isPrevious : i - 1 = 2 * (i / 2) := by omega
      rwa [isPrevious]

theorem lower_or_upper (pairedAt : PairedAt bound label offset) {i : Nat} (inRange : i < bound) :
    Paired bound label i (i + offset) ∨ offset ≤ i ∧ Paired bound label i (i - offset) := by
  obtain ⟨j, paired, above | below⟩ := pairedAt i inRange
  · exact .inl (above ▸ paired)
  · have isBelow : j = i - offset := by omega
    exact .inr ⟨by omega, isBelow ▸ paired⟩

theorem card_lower (pairedAt : PairedAt bound label offset) (apart : 0 < offset)
    {lower : Finset Nat}
    (isLower : ∀ i, i ∈ lower ↔ i < bound ∧ Paired bound label i (i + offset)) :
    2 * lower.card = bound := by
  have disjoint : Disjoint lower (lower.map (addRightEmbedding offset)) := by
    rw [Finset.disjoint_left]
    intro i member upper
    obtain ⟨j, isJ, rfl⟩ := Finset.mem_map.mp upper
    have paired := ((isLower j).mp isJ).2.symm ((isLower j).mp isJ).1
    have same := paired.unique ((isLower _).mp member).2
    simp only [addRightEmbedding_apply] at same
    omega
  have all : lower ∪ lower.map (addRightEmbedding offset) = Finset.range bound := by
    ext i
    rw [Finset.mem_union, Finset.mem_map, Finset.mem_range]
    constructor
    · rintro (member | ⟨j, isJ, rfl⟩)
      · exact ((isLower i).mp member).1
      · exact ((isLower j).mp isJ).2.1
    · intro inRange
      rcases pairedAt.lower_or_upper inRange with paired | ⟨above, paired⟩
      · exact .inl ((isLower i).mpr ⟨inRange, paired⟩)
      · have isSum : i - offset + offset = i := Nat.sub_add_cancel above
        refine .inr ⟨i - offset, (isLower _).mpr ⟨paired.1, ?_⟩, isSum⟩
        rw [isSum]
        exact paired.symm inRange
  have counted := Finset.card_union_of_disjoint disjoint
  rw [all, Finset.card_range, Finset.card_map] at counted
  omega

/-- If the distance is half the bound, the lower ones are the lower half. -/
theorem halves (pairedAt : PairedAt bound label offset) (isHalf : 2 * offset = bound) {i : Nat}
    (inRange : i < bound) :
    Paired bound label i (if offset ≤ i then i - offset else i + offset) := by
  rcases pairedAt.lower_or_upper inRange with paired | ⟨above, paired⟩
  · have below := paired.1
    rw [if_neg (by omega)]
    exact paired
  · rw [if_pos above]
    exact paired

end PairedAt

end Ghost.Lib
