import Mathlib.Data.Tree.Basic
import Mathlib.Data.List.Nodup
import Mathlib.Data.Nat.Fib.Basic
import Mathlib.Tactic

/-!
# Binary trees and their zippers

In-order sequences, height balance, and one-hole contexts for Mathlib's
`BinaryTree`. A context lists the frames from the hole up to the root, so a
walk from a node towards the root is structural recursion on the context.
-/

set_option autoImplicit false

namespace BinaryTree

variable {α : Type}

/-- The in-order sequence of the stored values. -/
def inorder : BinaryTree α → List α
  | .nil => []
  | .node value left right => left.inorder ++ value :: right.inorder

@[simp] theorem inorder_nil : (nil : BinaryTree α).inorder = [] := rfl

@[simp] theorem inorder_node (value : α) (left right : BinaryTree α) :
    (node value left right).inorder = left.inorder ++ value :: right.inorder := rfl

/-- The value at the root, or the given null value for the empty tree. -/
def rootD (null : α) : BinaryTree α → α
  | .nil => null
  | .node value _ _ => value

@[simp] theorem rootD_nil (null : α) : (nil : BinaryTree α).rootD null = null := rfl

@[simp] theorem rootD_node (null value : α) (left right : BinaryTree α) :
    (node value left right).rootD null = value := rfl

theorem rootD_mem {null : α} {tree : BinaryTree α} (present : tree ≠ nil) :
    tree.rootD null ∈ tree.inorder := by
  cases tree with
  | nil => exact absurd rfl present
  | node value left right => simp

/-- Sibling heights differ by at most one everywhere. -/
def Balanced : BinaryTree α → Prop
  | .nil => True
  | .node _ left right =>
      left.height ≤ right.height + 1 ∧ right.height ≤ left.height + 1 ∧
        Balanced left ∧ Balanced right

@[simp] theorem balanced_nil : (nil : BinaryTree α).Balanced := trivial

@[simp] theorem balanced_node (value : α) (left right : BinaryTree α) :
    (node value left right).Balanced ↔
      left.height ≤ right.height + 1 ∧ right.height ≤ left.height + 1 ∧
        left.Balanced ∧ right.Balanced := Iff.rfl

theorem inorder_eq_nil {tree : BinaryTree α} : tree.inorder = [] ↔ tree = nil := by
  cases tree <;> simp

theorem height_pos {tree : BinaryTree α} : 0 < tree.height ↔ tree ≠ nil := by
  cases tree <;> simp [height]

/-- A balanced tree of a given height has no fewer values than a Fibonacci tree. -/
theorem Balanced.fib_le {tree : BinaryTree α} (balanced : tree.Balanced) :
    Nat.fib (tree.height + 2) ≤ tree.inorder.length + 1 := by
  induction tree with
  | nil => simp
  | node value left right leftIH rightIH =>
      obtain ⟨leftLow, rightLow, leftBalanced, rightBalanced⟩ := balanced
      have leftBound := leftIH leftBalanced
      have rightBound := rightIH rightBalanced
      simp only [height, inorder_node, List.length_append, List.length_cons]
      rcases le_total left.height right.height with lower | lower
      · have least : Nat.fib (right.height + 1) ≤ Nat.fib (left.height + 2) :=
          Nat.fib_mono (by omega)
        have sum : Nat.fib (right.height + 1 + 2) =
            Nat.fib (right.height + 1) + Nat.fib (right.height + 2) := Nat.fib_add_two
        rw [max_eq_right lower]
        omega
      · have least : Nat.fib (left.height + 1) ≤ Nat.fib (right.height + 2) :=
          Nat.fib_mono (by omega)
        have sum : Nat.fib (left.height + 1 + 2) =
            Nat.fib (left.height + 1) + Nat.fib (left.height + 2) := Nat.fib_add_two
        rw [max_eq_left lower]
        omega

end BinaryTree

namespace Ghost.Lib

/-- The child slot of a node that a path goes through. -/
inductive Side where
  | left
  | right
  deriving DecidableEq, Repr

/-- One step of a path towards the root: the node passed, the slot the path
came from, and the subtree in the other slot. -/
structure Frame (α : Type) where
  side : Side
  value : α
  sibling : BinaryTree α

/-- A one-hole context, innermost frame first. -/
abbrev Context (α : Type) := List (Frame α)

variable {α : Type}

def Frame.attach : Frame α → BinaryTree α → BinaryTree α
  | ⟨.left, value, sibling⟩, tree => .node value tree sibling
  | ⟨.right, value, sibling⟩, tree => .node value sibling tree

namespace Context

def plug : Context α → BinaryTree α → BinaryTree α
  | [], tree => tree
  | frame :: rest, tree => plug rest (frame.attach tree)

/-- Values left of the hole, in order. -/
def before : Context α → List α
  | [] => []
  | ⟨.left, _, _⟩ :: rest => before rest
  | ⟨.right, value, sibling⟩ :: rest => before rest ++ sibling.inorder ++ [value]

/-- Values right of the hole, in order. -/
def after : Context α → List α
  | [] => []
  | ⟨.left, value, sibling⟩ :: rest => value :: (sibling.inorder ++ after rest)
  | ⟨.right, _, _⟩ :: rest => after rest

/-- The value of the node that owns the hole. -/
def parentD (null : α) : Context α → α
  | [] => null
  | frame :: _ => frame.value

/-- Height of the whole tree when the hole holds a subtree of the given height. -/
def heightAt : Nat → Context α → Nat
  | height, [] => height
  | height, frame :: rest => heightAt (max height frame.sibling.height + 1) rest

/-- Height balance of every frame when the hole has the given height. -/
def BalancedAt : Nat → Context α → Prop
  | _, [] => True
  | height, frame :: rest =>
      height ≤ frame.sibling.height + 1 ∧ frame.sibling.height ≤ height + 1 ∧
        frame.sibling.Balanced ∧ BalancedAt (max height frame.sibling.height + 1) rest

@[simp] theorem plug_nil (tree : BinaryTree α) : plug [] tree = tree := rfl

@[simp] theorem plug_cons (frame : Frame α) (rest : Context α) (tree : BinaryTree α) :
    plug (frame :: rest) tree = plug rest (frame.attach tree) := rfl

@[simp] theorem parentD_nil (null : α) : parentD null [] = null := rfl

@[simp] theorem parentD_cons (null : α) (frame : Frame α) (rest : Context α) :
    parentD null (frame :: rest) = frame.value := rfl

@[simp] theorem heightAt_nil (height : Nat) : heightAt height ([] : Context α) = height := rfl

@[simp] theorem heightAt_cons (height : Nat) (frame : Frame α) (rest : Context α) :
    heightAt height (frame :: rest) =
      heightAt (max height frame.sibling.height + 1) rest := rfl

@[simp] theorem balancedAt_nil (height : Nat) : BalancedAt height ([] : Context α) := trivial

@[simp] theorem balancedAt_cons (height : Nat) (frame : Frame α) (rest : Context α) :
    BalancedAt height (frame :: rest) ↔
      height ≤ frame.sibling.height + 1 ∧ frame.sibling.height ≤ height + 1 ∧
        frame.sibling.Balanced ∧ BalancedAt (max height frame.sibling.height + 1) rest :=
  Iff.rfl

@[simp] theorem height_attach (frame : Frame α) (tree : BinaryTree α) :
    (frame.attach tree).height = max tree.height frame.sibling.height + 1 := by
  rcases frame with ⟨side, value, sibling⟩
  cases side with
  | left => simp [Frame.attach]
  | right => simp [Frame.attach, max_comm]

theorem plug_append (inner outer : Context α) (tree : BinaryTree α) :
    plug (inner ++ outer) tree = plug outer (plug inner tree) := by
  induction inner generalizing tree with
  | nil => rfl
  | cons frame inner ih => simp [ih]

theorem height_plug (context : Context α) (tree : BinaryTree α) :
    (plug context tree).height = heightAt tree.height context := by
  induction context generalizing tree with
  | nil => rfl
  | cons frame rest ih => simp [ih]

theorem balanced_plug {context : Context α} {tree : BinaryTree α} :
    (plug context tree).Balanced ↔ tree.Balanced ∧ BalancedAt tree.height context := by
  induction context generalizing tree with
  | nil => simp
  | cons frame rest ih =>
      rcases frame with ⟨side, value, sibling⟩
      cases side <;> simp [ih, Frame.attach, max_comm] <;> tauto

/-- The hole sits between the values before and after it. -/
theorem inorder_plug (context : Context α) (tree : BinaryTree α) :
    (plug context tree).inorder = before context ++ tree.inorder ++ after context := by
  induction context generalizing tree with
  | nil => simp [before, after]
  | cons frame rest ih =>
      rcases frame with ⟨side, value, sibling⟩
      cases side <;> simp [ih, Frame.attach, before, after]

/-- The path from the hole to the root fits into the height of the tree. -/
theorem length_add_le_heightAt (height : Nat) (context : Context α) :
    height + context.length ≤ heightAt height context := by
  induction context generalizing height with
  | nil => simp
  | cons frame rest ih =>
      have bound := ih (max height frame.sibling.height + 1)
      simp only [heightAt_cons, List.length_cons]
      omega

/-- Every stored value is the root of some plugged subtree. -/
theorem exists_plug_of_mem {value : α} {tree : BinaryTree α} (member : value ∈ tree.inorder) :
    ∃ (context : Context α) (left right : BinaryTree α),
      tree = plug context (.node value left right) := by
  induction tree with
  | nil => simp at member
  | node root left right leftIH rightIH =>
      simp only [BinaryTree.inorder_node, List.mem_append, List.mem_cons] at member
      rcases member with inLeft | rfl | inRight
      · obtain ⟨context, subLeft, subRight, split⟩ := leftIH inLeft
        refine ⟨context ++ [⟨.left, root, right⟩], subLeft, subRight, ?_⟩
        simp [plug_append, ← split, Frame.attach]
      · exact ⟨[], left, right, rfl⟩
      · obtain ⟨context, subLeft, subRight, split⟩ := rightIH inRight
        refine ⟨context ++ [⟨.right, root, left⟩], subLeft, subRight, ?_⟩
        simp [plug_append, ← split, Frame.attach]

theorem heightAt_append (height : Nat) (inner outer : Context α) :
    heightAt height (inner ++ outer) = heightAt (heightAt height inner) outer := by
  induction inner generalizing height with
  | nil => rfl
  | cons frame inner ih => simp [ih]

theorem balancedAt_append {height : Nat} {inner outer : Context α} :
    BalancedAt height (inner ++ outer) ↔
      BalancedAt height inner ∧ BalancedAt (heightAt height inner) outer := by
  induction inner generalizing height with
  | nil => simp
  | cons frame inner ih => simp [ih, and_assoc]

theorem before_of_left {context : Context α} (allLeft : ∀ frame ∈ context, frame.side = .left) :
    before context = [] := by
  induction context with
  | nil => rfl
  | cons frame rest ih =>
      rcases frame with ⟨side, value, sibling⟩
      obtain rfl : side = .left := allLeft ⟨side, value, sibling⟩ (by simp)
      exact ih fun frame inside => allLeft frame (by simp [inside])

/-- The first value of a tree sits at the end of a path of left slots. -/
theorem exists_leftmost {tree : BinaryTree α} (present : tree ≠ .nil) :
    ∃ (inner : Context α) (value : α) (right : BinaryTree α),
      tree = plug inner (.node value .nil right) ∧ ∀ frame ∈ inner, frame.side = .left := by
  induction tree with
  | nil => exact absurd rfl present
  | node root left right leftIH _ =>
      by_cases none : left = .nil
      · subst none
        exact ⟨[], root, right, rfl, by simp⟩
      · obtain ⟨inner, value, subRight, split, allLeft⟩ := leftIH none
        refine ⟨inner ++ [⟨.left, root, right⟩], value, subRight, ?_, ?_⟩
        · rw [plug_append, ← split]
          rfl
        · intro frame inside
          rcases List.mem_append.mp inside with inside | inside
          · exact allLeft frame inside
          · rw [List.mem_singleton.mp inside]

theorem parentD_mem {null : α} {context : Context α} (nonempty : context ≠ []) :
    parentD null context ∈ before context ++ after context := by
  cases context with
  | nil => exact absurd rfl nonempty
  | cons frame rest =>
      rcases frame with ⟨side, value, sibling⟩
      cases side <;> simp [before, after]

end Context

end Ghost.Lib
