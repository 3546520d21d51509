import Mathlib.Data.Fintype.Card
import Mathlib.Tactic

/-!
# Tallies

How many members of a finite type have a property, and how the number moves when
one member changes.
-/

set_option autoImplicit false

namespace Ghost.Lib

variable {α : Type} [Fintype α]

def tally (Counted : α → Prop) [DecidablePred Counted] : Nat :=
  (Finset.univ.filter Counted).card

/-- What one member adds to a tally. -/
def unit (counted : Prop) [Decidable counted] : Int := if counted then 1 else 0

@[simp]
theorem unit_true {counted : Prop} [Decidable counted] (holds : counted) : unit counted = 1 :=
  if_pos holds

@[simp]
theorem unit_false {counted : Prop} [Decidable counted] (fails : ¬counted) : unit counted = 0 :=
  if_neg fails

theorem unit_nonneg (counted : Prop) [Decidable counted] : 0 ≤ unit counted := by
  unfold unit
  split <;> simp

theorem unit_eq_zero {counted : Prop} [Decidable counted] : unit counted = 0 ↔ ¬counted := by
  unfold unit
  split <;> simp_all

theorem unit_congr {counted counted' : Prop} [Decidable counted] [Decidable counted']
    (same : counted ↔ counted') : unit counted = unit counted' := by
  unfold unit
  simp only [same]

variable {Counted Counted' : α → Prop} [DecidablePred Counted] [DecidablePred Counted']

theorem tally_eq_sum : (tally Counted : Int) = ∑ member, unit (Counted member) := by
  rw [tally, Finset.card_filter]
  push_cast
  rfl

theorem tally_congr (same : ∀ member, Counted' member ↔ Counted member) :
    tally Counted' = tally Counted := by
  unfold tally
  simp only [same]

theorem tally_mono (more : ∀ member, Counted member → Counted' member) :
    tally Counted ≤ tally Counted' := by
  apply Finset.card_le_card
  intro member isMember
  rw [Finset.mem_filter] at isMember ⊢
  exact ⟨isMember.1, more member isMember.2⟩

/-- Only `changed` may enter or leave. -/
theorem tally_change [DecidableEq α] {changed : α}
    (others : ∀ member, member ≠ changed → (Counted' member ↔ Counted member)) :
    (tally Counted' : Int) =
      tally Counted - unit (Counted changed) + unit (Counted' changed) := by
  have split : ∀ weight : α → Int,
      ∑ member, weight member = weight changed + ∑ member ∈ Finset.univ.erase changed, weight member :=
    fun weight => (Finset.add_sum_erase _ weight (Finset.mem_univ changed)).symm
  have rest : ∑ member ∈ Finset.univ.erase changed, unit (Counted' member) =
      ∑ member ∈ Finset.univ.erase changed, unit (Counted member) := by
    apply Finset.sum_congr rfl
    intro member isOther
    exact unit_congr (others member (Finset.ne_of_mem_erase isOther))
  rw [tally_eq_sum, tally_eq_sum, split, split fun member => unit (Counted member), rest]
  ring

theorem tally_pos {member : α} (counted : Counted member) : 0 < tally Counted :=
  Finset.card_pos.mpr ⟨member, Finset.mem_filter.mpr ⟨Finset.mem_univ member, counted⟩⟩

theorem exists_of_tally_pos (positive : 0 < tally Counted) : ∃ member, Counted member := by
  obtain ⟨member, isMember⟩ := Finset.card_pos.mp positive
  exact ⟨member, (Finset.mem_filter.mp isMember).2⟩

theorem tally_eq_zero : tally Counted = 0 ↔ ∀ member, ¬Counted member := by
  constructor
  · intro nobody member counted
    have positive := tally_pos counted
    omega
  · intro nobody
    by_contra positive
    obtain ⟨member, counted⟩ := exists_of_tally_pos (Nat.pos_of_ne_zero positive)
    exact nobody member counted

end Ghost.Lib
