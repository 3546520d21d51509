import Ghost.Avl.Sessions

/-!
# Lookup

Rotations and the successor swap may leave a tie on either side of a node, so
the descent relies only on the weak order of the in-order sequence: a strictly
smaller key rules out the node and its right half, any other mismatch the node
and its left half.
-/

set_option autoImplicit false

namespace Ghost.Avl

open Lib

/-- The descent finds a node with the key, or there is none in the tree. -/
theorem lookupLoop_cases {arr : Arr} {parent fuel : Nat} {tree : BinaryTree Nat}
    (linked : Linked arr parent tree)
    (sorted : tree.inorder.Pairwise fun left right => (arr left).key ≤ (arr right).key)
    (enough : tree.height ≤ fuel) (key : Nat) :
    (lookupLoop arr key fuel (rootId tree) ∈ tree.inorder ∧
        (arr (lookupLoop arr key fuel (rootId tree))).key = key) ∨
      (lookupLoop arr key fuel (rootId tree) = 0 ∧ ∀ id ∈ tree.inorder, (arr id).key ≠ key) := by
  induction tree generalizing parent fuel with
  | nil =>
      right
      constructor
      · cases fuel <;> rfl
      · simp
  | node id left right leftIH rightIH =>
      obtain ⟨present, -, leftEq, rightEq, -, leftLinked, rightLinked⟩ := linked
      rw [BinaryTree.inorder_node, List.pairwise_append, List.pairwise_cons] at sorted
      obtain ⟨leftSorted, ⟨idFirst, rightSorted⟩, leftBelow⟩ := sorted
      cases fuel with
      | zero => simp at enough
      | succ fuel =>
          simp only [BinaryTree.height] at enough
          have leftEnough : left.height ≤ fuel := by omega
          have rightEnough : right.height ≤ fuel := by omega
          simp only [lookupLoop, BinaryTree.rootD_node, present, if_false, leftEq, rightEq,
            BinaryTree.inorder_node, List.mem_append, List.mem_cons]
          by_cases here : (arr id).key = key
          · simp [here]
          · rw [if_neg here]
            by_cases below : key < (arr id).key
            · rw [if_pos below]
              rcases leftIH leftLinked leftSorted leftEnough with found | ⟨null, absent⟩
              · exact .inl ⟨.inl found.1, found.2⟩
              · refine .inr ⟨null, ?_⟩
                intro other inside
                rcases inside with inLeft | rfl | inRight
                · exact absent other inLeft
                · exact here
                · have after := idFirst other inRight
                  omega
            · rw [if_neg below]
              rcases rightIH rightLinked rightSorted rightEnough with found | ⟨null, absent⟩
              · exact .inl ⟨.inr (.inr found.1), found.2⟩
              · refine .inr ⟨null, ?_⟩
                intro other inside
                rcases inside with inLeft | rfl | inRight
                · have before := leftBelow other inLeft id (by simp)
                  omega
                · exact here
                · exact absent other inRight

private theorem lookupLoop_enough {arr : Arr} {parent fuel : Nat} {tree : BinaryTree Nat}
    (linked : Linked arr parent tree) (enough : tree.height ≤ fuel) (key : Nat) :
    lookupLoop arr key fuel (rootId tree) = lookupLoop arr key tree.height (rootId tree) := by
  induction tree generalizing parent fuel with
  | nil => cases fuel <;> rfl
  | node id left right leftIH rightIH =>
      obtain ⟨-, -, leftEq, rightEq, -, leftLinked, rightLinked⟩ := linked
      cases fuel with
      | zero => simp at enough
      | succ fuel =>
          simp only [BinaryTree.height] at enough
          have leftSame := (leftIH leftLinked (by omega : left.height ≤ fuel)).trans
            (leftIH leftLinked (le_max_left _ right.height)).symm
          have rightSame := (rightIH rightLinked (by omega : right.height ≤ fuel)).trans
            (rightIH rightLinked (le_max_right left.height _)).symm
          simp only [BinaryTree.height, lookupLoop, BinaryTree.rootD_node, leftEq, rightEq, leftSame,
            rightSame]

/-- A lookup is a membership test on the tree part, orphans left out. The loop
bound is never what ends it: any larger bound gives the same answer. -/
structure CompleteLookup (build : Build) (state : AvlState) (tree : BinaryTree Nat)
    (orphans : List Nat) (key : Nat) : Prop where
  found : (avlTreeLookup build state key ∈ tree.inorder ∧
    (state.arr (avlTreeLookup build state key)).key = key) ↔
      ∃ id ∈ tree.inorder, (state.arr id).key = key
  null : avlTreeLookup build state key = 0 ↔ ∀ id ∈ tree.inorder, (state.arr id).key ≠ key
  unbounded : ∀ bound, build.maxAvlHeight ≤ bound →
    lookupLoop state.arr key bound state.tree.root = avlTreeLookup build state key
  notOrphan : avlTreeLookup build state key ∉ orphans

private theorem Represents.completeLookup {build : Build} {state : AvlState} {tree : BinaryTree Nat}
    {orphans : List Nat} (represents : Represents build state tree orphans) (key : Nat) :
    CompleteLookup build state tree orphans key := by
  obtain ⟨treeAt, orphansAt, disjoint, -⟩ := represents
  have answer := lookupLoop_cases treeAt.linked treeAt.sorted treeAt.bounded key
  rw [← treeAt.root] at answer
  change (avlTreeLookup build state key ∈ _ ∧ (state.arr (avlTreeLookup build state key)).key = _) ∨
    (avlTreeLookup build state key = 0 ∧ _) at answer
  have unbounded : ∀ bound, build.maxAvlHeight ≤ bound →
      lookupLoop state.arr key bound state.tree.root = avlTreeLookup build state key := by
    intro bound larger
    rw [avlTreeLookup, treeAt.root, lookupLoop_enough treeAt.linked (treeAt.bounded.trans larger),
      lookupLoop_enough treeAt.linked treeAt.bounded]
  rcases answer with ⟨inside, same⟩ | ⟨null, absent⟩
  · have nonzero := treeAt.linked.ne_zero _ inside
    refine ⟨?_, ?_, unbounded, disjoint _ inside⟩
    · exact iff_of_true ⟨inside, same⟩ ⟨_, inside, same⟩
    · exact iff_of_false nonzero fun absent => absent _ inside same
  · refine ⟨?_, iff_of_true null absent, unbounded, ?_⟩
    · constructor
      · intro found
        exact ⟨_, found⟩
      · intro found
        obtain ⟨id, inside, same⟩ := found
        exact absurd same (absent id inside)
    · intro orphan
      exact orphansAt.ne_zero _ orphan null

/-- Lookup is complete in every reachable session. -/
theorem sessions_completeLookup {build : Build} {session : Session}
    (reachable : (sessions build).Reachable session) :
    ∃ tree orphans, WellFormed build session tree orphans ∧
      ∀ key, CompleteLookup build session.state tree orphans key := by
  obtain ⟨tree, orphans, holds⟩ := Holds.of_reachable reachable
  exact ⟨tree, orphans, holds.wellFormed, holds.represents.completeLookup⟩

theorem sessions_completeLookup_rebalanced :
    ∃ tree orphans, WellFormed threeLevels (rebalanced threeLevels) tree orphans ∧
      ∀ key, CompleteLookup threeLevels (rebalanced threeLevels).state tree orphans key :=
  sessions_completeLookup rebalanced_reachable

end Ghost.Avl
