import Mathlib.Algebra.BigOperators.Group.List.Basic
import Mathlib.Logic.Function.Basic
import Mathlib.Tactic

/-!
# Blocks in a ring

Blocks of cells laid out one after another in a circular memory. A block never
wraps: its cells are contiguous, and only its first few need be written.
-/

set_option autoImplicit false

namespace Ghost.Lib

/-- A block takes `size` cells and prescribes the contents of the first ones. -/
structure Block (Cell : Type) where
  cells : List Cell
  size : Nat
  fits : cells.length ≤ size

namespace Block

variable {Cell : Type}

def total (blocks : List (Block Cell)) : Nat := (blocks.map size).sum

@[simp] theorem total_nil : total ([] : List (Block Cell)) = 0 := rfl

@[simp] theorem total_cons (block : Block Cell) (blocks : List (Block Cell)) :
    total (block :: blocks) = block.size + total blocks := List.sum_cons

@[simp] theorem total_append (front back : List (Block Cell)) :
    total (front ++ back) = total front + total back := by
  simp [total]

end Block

section Layout

variable {Cell : Type} {ring : Nat} {memory : Nat → Cell}

/-- The cells stand in memory from an address on. -/
def Stands (memory : Nat → Cell) (start : Nat) (cells : List Cell) : Prop :=
  ∀ offset (inRange : offset < cells.length), memory (start + offset) = cells[offset]

/-- The blocks stand one after another, the first at position `start` of the ring. -/
def Laid (ring : Nat) (memory : Nat → Cell) : Nat → List (Block Cell) → Prop
  | _, [] => True
  | start, block :: blocks =>
      start % ring + block.size ≤ ring ∧ Stands memory (start % ring) block.cells ∧
        Laid ring memory (start + block.size) blocks

theorem Stands.update {start address : Nat} {cells : List Cell} {value : Cell}
    (stands : Stands memory start cells)
    (apart : ∀ offset, offset < cells.length → start + offset ≠ address) :
    Stands (Function.update memory address value) start cells := by
  intro offset inRange
  rw [Function.update_of_ne (apart offset inRange)]
  exact stands offset inRange

theorem stands_singleton (start : Nat) (value : Cell) :
    Stands (Function.update memory start value) start [value] := by
  intro offset inRange
  obtain rfl : offset = 0 := Nat.lt_one_iff.mp inRange
  exact Function.update_self ..

/-- Writing the cells one by one. -/
theorem Stands.extend {start count : Nat} {cells : List Cell} (inRange : count < cells.length)
    (stands : Stands memory start (cells.take count)) :
    Stands (Function.update memory (start + count) cells[count]) start
      (cells.take (count + 1)) := by
  intro offset below
  rw [List.getElem_take]
  rw [List.length_take] at below
  by_cases last : offset = count
  · subst last
    exact Function.update_self ..
  · rw [Function.update_of_ne (by omega)]
    have earlier := stands offset (by rw [List.length_take]; omega)
    rw [List.getElem_take] at earlier
    exact earlier

theorem laid_append {start : Nat} {front back : List (Block Cell)} :
    Laid ring memory start (front ++ back) ↔
      Laid ring memory start front ∧ Laid ring memory (start + Block.total front) back := by
  induction front generalizing start with
  | nil => simp [Laid]
  | cons block front ih => simp [Laid, ih, Nat.add_assoc, and_assoc]

/-- Only the position modulo the ring counts. -/
theorem Laid.congr {start start' : Nat} {blocks : List (Block Cell)}
    (laid : Laid ring memory start blocks) (same : start % ring = start' % ring) :
    Laid ring memory start' blocks := by
  induction blocks generalizing start start' with
  | nil => trivial
  | cons block blocks ih =>
      obtain ⟨contiguous, stands, rest⟩ := laid
      rw [same] at contiguous stands
      exact ⟨contiguous, stands, ih rest (Nat.ModEq.add_right _ same)⟩

/-- A write behind the blocks leaves them alone. -/
theorem Laid.update {start offset : Nat} {blocks : List (Block Cell)} {value : Cell}
    (laid : Laid ring memory start blocks) (behind : Block.total blocks ≤ offset)
    (inRing : offset < ring) :
    Laid ring (Function.update memory ((start + offset) % ring) value) start blocks := by
  induction blocks generalizing start offset with
  | nil => trivial
  | cons block blocks ih =>
      obtain ⟨contiguous, stands, rest⟩ := laid
      rw [Block.total_cons] at behind
      refine ⟨contiguous, stands.update ?_, ?_⟩
      · intro within inBlock same
        have fits := block.fits
        have address : (start + within) % ring = start % ring + within := by
          rw [Nat.add_mod, Nat.mod_eq_of_lt (by omega : within < ring)]
          exact Nat.mod_eq_of_lt (by omega)
        have equal : within % ring = offset % ring :=
          Nat.ModEq.add_left_cancel' start (address.trans same)
        rw [Nat.mod_eq_of_lt (by omega), Nat.mod_eq_of_lt inRing] at equal
        omega
      · have later := ih rest (show Block.total blocks ≤ offset - block.size by omega) (by omega)
        rw [show start + block.size + (offset - block.size) = start + offset by omega] at later
        exact later

end Layout

end Ghost.Lib
