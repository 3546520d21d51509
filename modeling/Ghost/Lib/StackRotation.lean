import Mathlib.Data.List.Basic
import Mathlib.Logic.Function.Iterate
import Mathlib.Tactic

/-!
# Rotation through two stacks

One item is current, the others wait on two stacks. A turn pops the next current
item from the active stack and pushes the old one on the expired stack; the
stacks trade places when the active one is empty. With two items the turns
alternate. With more, the last item but one to be popped in an epoch is the first
of the next epoch, so some item comes twice before another one comes at all.
-/

set_option autoImplicit false

namespace Ghost.Lib

structure Rotation (α : Type) where
  current : α
  active : List α
  expired : List α

namespace Rotation

variable {α : Type}

def items (rotation : Rotation α) : List α :=
  rotation.current :: (rotation.active ++ rotation.expired)

def turn (rotation : Rotation α) : Rotation α :=
  match rotation.active, rotation.expired with
  | next :: active, expired => ⟨next, active, rotation.current :: expired⟩
  | [], next :: expired => ⟨next, expired, [rotation.current]⟩
  | [], [] => rotation

/-- The items that become current in a number of turns. -/
def dispatches : Nat → Rotation α → List α
  | 0, _ => []
  | count + 1, rotation => rotation.turn.current :: dispatches count rotation.turn

@[simp] theorem length_dispatches (count : Nat) (rotation : Rotation α) :
    (dispatches count rotation).length = count := by
  induction count generalizing rotation with
  | zero => rfl
  | succ count ih => rw [dispatches, List.length_cons, ih]

theorem turn_perm (rotation : Rotation α) : rotation.turn.items.Perm rotation.items := by
  obtain ⟨current, active, expired⟩ := rotation
  cases active with
  | cons next active =>
      exact (List.perm_middle.cons next).trans (List.Perm.swap _ _ _)
  | nil =>
      cases expired with
      | cons next expired =>
          exact (List.perm_append_singleton current expired).cons next |>.trans
            (List.Perm.swap _ _ _)
      | nil => exact .refl _

theorem dispatches_add (first second : Nat) (rotation : Rotation α) :
    dispatches (first + second) rotation =
      dispatches first rotation ++ dispatches second (turn^[first] rotation) := by
  induction first generalizing rotation with
  | zero => simp [dispatches]
  | succ first ih =>
      rw [Nat.add_right_comm, dispatches, ih, dispatches, Function.iterate_succ_apply,
        List.cons_append]

/-- The window of dispatches after a number of turns. -/
theorem take_drop_dispatches (skipped count : Nat) {total : Nat} (fits : skipped + count ≤ total)
    (rotation : Rotation α) :
    ((dispatches total rotation).drop skipped).take count =
      dispatches count (turn^[skipped] rotation) := by
  obtain ⟨rest, rfl⟩ := Nat.exists_eq_add_of_le fits
  rw [Nat.add_assoc, dispatches_add, List.drop_left' (length_dispatches _ _), dispatches_add,
    List.take_left' (length_dispatches _ _)]

theorem iterate_turn_perm (count : Nat) (rotation : Rotation α) :
    (turn^[count] rotation).items.Perm rotation.items := by
  induction count generalizing rotation with
  | zero => exact .refl _
  | succ count ih => exact (ih rotation.turn).trans rotation.turn_perm

/-- Two items alternate. -/
theorem dispatches_two {rotation : Rotation α} (two : rotation.items.length = 2) :
    (dispatches 2 rotation).Perm rotation.items := by
  obtain ⟨current, active, expired⟩ := rotation
  simp only [items, List.length_cons, List.length_append] at two
  match active, expired with
  | [next], [] => exact .swap _ _ _
  | [], [next] => exact .swap _ _ _
  | [], [] => simp at two
  | _ :: _ :: _, _ =>
      simp only [List.length_cons] at two
      omega
  | _ :: _, _ :: _ =>
      simp only [List.length_cons] at two
      omega
  | [], _ :: _ :: _ => simp at two

/-- The active stack is dispatched from its top, and all of it is then on the
expired stack except the item that is current. -/
theorem dispatches_active (current : α) (active expired : List α) :
    dispatches active.length ⟨current, active, expired⟩ = active ∧
      turn^[active.length] ⟨current, active, expired⟩ =
        ⟨(current :: active).getLast (List.cons_ne_nil _ _), [],
          (current :: active).dropLast.reverse ++ expired⟩ := by
  induction active generalizing current expired with
  | nil => exact ⟨rfl, rfl⟩
  | cons next active ih =>
      obtain ⟨dispatched, reached⟩ := ih next (current :: expired)
      constructor
      · rw [List.length_cons, dispatches]
        exact congrArg (next :: ·) dispatched
      · rw [List.length_cons, Function.iterate_succ_apply]
        refine Eq.trans reached ?_
        simp

/-- With three items or more, the first epoch after the next trade repeats an item
within as many dispatches as there are items. -/
theorem dispatches_repeat {current : α} {expired : List α} (several : 2 ≤ expired.length) :
    ¬ (dispatches (expired.length + 1) ⟨current, [], expired⟩).Nodup := by
  have traded : ∀ count, dispatches (count + 1) ⟨current, [], expired⟩ =
      dispatches (count + 1) ⟨current, expired, []⟩ := by
    intro count
    cases expired with
    | nil => rfl
    | cons next expired => rfl
  obtain ⟨dispatched, reached⟩ := dispatches_active current expired []
  rw [traded, dispatches_add, dispatched, reached]
  have again : expired.dropLast ≠ [] := by
    rw [← List.length_pos_iff, List.length_dropLast]
    omega
  have pushed : (current :: expired).dropLast = current :: expired.dropLast := by
    cases expired with
    | nil => simp at several
    | cons next expired => rfl
  obtain ⟨item, others, top⟩ := List.exists_cons_of_ne_nil
    (List.append_ne_nil_of_left_ne_nil (List.reverse_ne_nil_iff.mpr again) [current])
  have member : item ∈ expired := by
    have inside : item ∈ expired.dropLast.reverse := by
      obtain ⟨head, tail, front⟩ := List.exists_cons_of_ne_nil (List.reverse_ne_nil_iff.mpr again)
      rw [front, List.cons_append, List.cons.injEq] at top
      rw [front, top.1]
      exact List.mem_cons_self
    exact List.mem_of_mem_dropLast (List.mem_reverse.mp inside)
  rw [pushed, List.reverse_cons, List.append_nil, top]
  intro unique
  exact List.disjoint_of_nodup_append unique member List.mem_cons_self

/-- Every window of as many dispatches as there are items dispatches them all
exactly when there are two items. -/
theorem windows_perm_iff {rotation : Rotation α} (unique : rotation.items.Nodup)
    (several : 2 ≤ rotation.items.length) :
    (∀ skipped, (dispatches rotation.items.length (turn^[skipped] rotation)).Perm rotation.items) ↔
      rotation.items.length = 2 := by
  constructor
  · intro windows
    by_contra more
    obtain ⟨current, active, expired⟩ := rotation
    have reached := (dispatches_active current active expired).2
    obtain ⟨expired', last, empties⟩ : ∃ expired' last, turn^[active.length]
        (⟨current, active, expired⟩ : Rotation α) = ⟨last, [], expired'⟩ := ⟨_, _, reached⟩
    have sameItems := iterate_turn_perm active.length (⟨current, active, expired⟩ : Rotation α)
    have window := windows active.length
    rw [empties] at sameItems window
    have count : (Rotation.items ⟨current, active, expired⟩).length = expired'.length + 1 := by
      rw [← sameItems.length_eq]
      rfl
    rw [count] at window several more
    exact dispatches_repeat (by omega) (window.nodup_iff.mpr unique)
  · intro two skipped
    have sameItems := iterate_turn_perm skipped rotation
    rw [two]
    exact (dispatches_two (sameItems.length_eq.trans two)).trans sameItems

end Rotation

end Ghost.Lib
