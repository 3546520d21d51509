import Ghost.Avl.Retrace

/-!
# Bounded walks

The descents to the leftmost and rightmost node and the in-order steps, on any
linked tree whose height is within the loop bound. None of them runs through all
iterations.
-/

set_option autoImplicit false

namespace Ghost.Avl

open Lib

theorem Checked.minLoop_eq {arr : Arr} {parent fuel : Nat} {tree : BinaryTree Nat}
    (linked : Linked arr parent tree) (enough : tree.height ≤ fuel) (rounds : 0 < fuel) :
    Checked.minLoop arr fuel (rootId tree) = .ok (tree.inorder.headD 0) := by
  induction tree generalizing parent fuel with
  | nil =>
      cases fuel with
      | zero => cases rounds
      | succ fuel => rfl
  | node id left right leftIH _ =>
      obtain ⟨present, -, leftEq, -, -, leftLinked, -⟩ := linked
      cases fuel with
      | zero => simp at enough
      | succ fuel =>
          simp only [BinaryTree.height] at enough
          change (if id = 0 then .ok 0 else if (arr id).leftId = 0 then .ok id
            else Checked.minLoop arr fuel (arr id).leftId) = _
          rw [if_neg present, leftEq]
          by_cases leaf : left = .nil
          · subst leaf; simp
          · have deeper := BinaryTree.height_pos.mpr leaf
            rw [if_neg (leftLinked.rootId_eq_zero.not.mpr leaf),
              leftIH leftLinked (by omega) (by omega)]
            cases ids : left.inorder with
            | nil => exact absurd (BinaryTree.inorder_eq_nil.mp ids) leaf
            | cons first rest => simp [ids]

theorem Checked.maxLoop_eq {arr : Arr} {parent fuel : Nat} {tree : BinaryTree Nat}
    (linked : Linked arr parent tree) (enough : tree.height ≤ fuel) (rounds : 0 < fuel) :
    Checked.maxLoop arr fuel (rootId tree) = .ok (tree.inorder.getLastD 0) := by
  induction tree generalizing parent fuel with
  | nil =>
      cases fuel with
      | zero => cases rounds
      | succ fuel => rfl
  | node id left right _ rightIH =>
      obtain ⟨present, -, -, rightEq, -, -, rightLinked⟩ := linked
      cases fuel with
      | zero => simp at enough
      | succ fuel =>
          simp only [BinaryTree.height] at enough
          change (if id = 0 then .ok 0 else if (arr id).rightId = 0 then .ok id
            else Checked.maxLoop arr fuel (arr id).rightId) = _
          rw [if_neg present, rightEq]
          by_cases leaf : right = .nil
          · subst leaf; simp
          · have deeper := BinaryTree.height_pos.mpr leaf
            rw [if_neg (rightLinked.rootId_eq_zero.not.mpr leaf),
              rightIH rightLinked (by omega) (by omega)]
            have more : right.inorder ≠ [] := BinaryTree.inorder_eq_nil.not.mpr leaf
            simp [List.getLastD_eq_getLast?, List.getLast?_cons, List.getLast?_eq_some_getLast more]

theorem minLoop_eq {arr : Arr} {parent fuel : Nat} {tree : BinaryTree Nat}
    (linked : Linked arr parent tree) (enough : tree.height ≤ fuel) (rounds : 0 < fuel) :
    minLoop arr fuel (rootId tree) = tree.inorder.headD 0 :=
  Checked.minLoop_plain (Checked.minLoop_eq linked enough rounds)

theorem maxLoop_eq {arr : Arr} {parent fuel : Nat} {tree : BinaryTree Nat}
    (linked : Linked arr parent tree) (enough : tree.height ≤ fuel) (rounds : 0 < fuel) :
    maxLoop arr fuel (rootId tree) = tree.inorder.getLastD 0 :=
  Checked.maxLoop_plain (Checked.maxLoop_eq linked enough rounds)

/-- Climbing from `x` finds the first node after the hole of its context. -/
theorem Checked.nextClimb_eq {arr : Arr} {root x height fuel : Nat} {context : Context Nat}
    (around : LinkedAt arr root x height context) (parentEq : (arr x).parentId = parentId context)
    (unique : (contextIds context).Nodup) (present : x ≠ 0) (outside : x ∉ contextIds context)
    (enough : context.length < fuel) :
    Checked.nextClimb arr fuel x = .ok (context.after.headD 0) := by
  induction context generalizing x height fuel with
  | nil =>
      cases fuel with
      | zero => simp at enough
      | succ fuel => simp [Checked.nextClimb, parentEq, Context.after]
  | cons frame rest ih =>
      cases fuel with
      | zero => simp at enough
      | succ fuel =>
          rcases frame with ⟨side, id, sibling⟩
          rw [mem_contextIds_cons] at outside
          cases side with
          | left =>
              obtain ⟨idPresent, -, leftEq, -, -, -, -⟩ := around
              simp [Checked.nextClimb, parentEq, idPresent, leftEq, Context.after]
          | right =>
              obtain ⟨idPresent, idParent, leftEq, -, -, -, restLinked⟩ := around
              have different : x ≠ rootId sibling :=
                (rootId_ne present fun member => outside (.inr (.inl member))).symm
              simp only [contextIds, Context.before, Context.after] at unique
              have idApart : id ∉ contextIds rest := by simp only [contextIds]; grind
              have restUnique : (contextIds rest).Nodup := by simp only [contextIds]; grind
              have above := ih restLinked idParent restUnique idPresent idApart
                (by simpa using enough)
              simpa [Checked.nextClimb, parentEq, idPresent, leftEq, different, Context.after] using above

/-- Climbing from `x` finds the last node before the hole of its context. -/
theorem Checked.prevClimb_eq {arr : Arr} {root x height fuel : Nat} {context : Context Nat}
    (around : LinkedAt arr root x height context) (parentEq : (arr x).parentId = parentId context)
    (unique : (contextIds context).Nodup) (present : x ≠ 0) (outside : x ∉ contextIds context)
    (enough : context.length < fuel) :
    Checked.prevClimb arr fuel x = .ok (context.before.getLastD 0) := by
  induction context generalizing x height fuel with
  | nil =>
      cases fuel with
      | zero => simp at enough
      | succ fuel => simp [Checked.prevClimb, parentEq, Context.before]
  | cons frame rest ih =>
      cases fuel with
      | zero => simp at enough
      | succ fuel =>
          rcases frame with ⟨side, id, sibling⟩
          rw [mem_contextIds_cons] at outside
          cases side with
          | left =>
              obtain ⟨idPresent, idParent, -, rightEq, -, -, restLinked⟩ := around
              have different : x ≠ rootId sibling :=
                (rootId_ne present fun member => outside (.inr (.inl member))).symm
              simp only [contextIds, Context.before, Context.after] at unique
              have idApart : id ∉ contextIds rest := by simp only [contextIds]; grind
              have restUnique : (contextIds rest).Nodup := by simp only [contextIds]; grind
              have above := ih restLinked idParent restUnique idPresent idApart
                (by simpa using enough)
              simpa [Checked.prevClimb, parentEq, idPresent, rightEq, different, Context.before] using above
          | right =>
              obtain ⟨idPresent, -, -, rightEq, -, -, -⟩ := around
              simp [Checked.prevClimb, parentEq, idPresent, rightEq, Context.before]

/-- `__avl_next_node` is the in-order successor, or null at the end. -/
theorem Checked.avlNextNode_eq {build : Build} {arr : Arr} {root x : Nat} {context : Context Nat}
    {left right : BinaryTree Nat}
    (linked : Linked arr (parentId context) (.node x left right))
    (around : LinkedAt arr root x (BinaryTree.node x left right).height context)
    (unique : (context.plug (.node x left right)).inorder.Nodup)
    (bounded : (context.plug (.node x left right)).height ≤ build.maxAvlHeight) :
    Checked.avlNextNode build arr x = .ok ((right.inorder ++ context.after).headD 0) := by
  obtain ⟨-, contextUnique, apart⟩ := plug_nodup_iff.mp unique
  obtain ⟨present, parentEq, -, rightEq, -, -, rightLinked⟩ := linked
  have depth := Context.length_add_le_heightAt (BinaryTree.node x left right).height context
  rw [← Context.height_plug] at depth
  simp only [BinaryTree.height] at depth
  unfold Checked.avlNextNode
  rw [if_neg present, rightEq]
  by_cases leaf : right = .nil
  · subst leaf
    rw [if_neg (by simp), Checked.nextClimb_eq around parentEq contextUnique present (apart x (by simp))
      (by omega)]
    simp
  · rw [if_pos (rightLinked.rootId_eq_zero.not.mpr leaf), Checked.avlMinNodeId,
      Checked.minLoop_eq rightLinked (by omega) build.height_pos]
    cases ids : right.inorder with
    | nil => exact absurd (BinaryTree.inorder_eq_nil.mp ids) leaf
    | cons first rest => simp

/-- `__avl_prev_node` is the in-order predecessor, or null at the start. -/
theorem Checked.avlPrevNode_eq {build : Build} {arr : Arr} {root x : Nat} {context : Context Nat}
    {left right : BinaryTree Nat}
    (linked : Linked arr (parentId context) (.node x left right))
    (around : LinkedAt arr root x (BinaryTree.node x left right).height context)
    (unique : (context.plug (.node x left right)).inorder.Nodup)
    (bounded : (context.plug (.node x left right)).height ≤ build.maxAvlHeight) :
    Checked.avlPrevNode build arr x = .ok ((context.before ++ left.inorder).getLastD 0) := by
  obtain ⟨-, contextUnique, apart⟩ := plug_nodup_iff.mp unique
  obtain ⟨present, parentEq, leftEq, -, -, leftLinked, -⟩ := linked
  have depth := Context.length_add_le_heightAt (BinaryTree.node x left right).height context
  rw [← Context.height_plug] at depth
  simp only [BinaryTree.height] at depth
  unfold Checked.avlPrevNode
  rw [if_neg present, leftEq]
  by_cases leaf : left = .nil
  · subst leaf
    rw [if_neg (by simp), Checked.prevClimb_eq around parentEq contextUnique present (apart x (by simp))
      (by omega)]
    simp
  · rw [if_pos (leftLinked.rootId_eq_zero.not.mpr leaf), Checked.avlMaxNodeId,
      Checked.maxLoop_eq leftLinked (by omega) build.height_pos]
    have more : left.inorder ≠ [] := BinaryTree.inorder_eq_nil.not.mpr leaf
    simp [List.getLastD_eq_getLast?, List.getLast?_append, List.getLast?_eq_some_getLast more]

theorem avlNextNode_eq {build : Build} {arr : Arr} {root x : Nat} {context : Context Nat}
    {left right : BinaryTree Nat}
    (linked : Linked arr (parentId context) (.node x left right))
    (around : LinkedAt arr root x (BinaryTree.node x left right).height context)
    (unique : (context.plug (.node x left right)).inorder.Nodup)
    (bounded : (context.plug (.node x left right)).height ≤ build.maxAvlHeight) :
    avlNextNode build arr x = (right.inorder ++ context.after).headD 0 :=
  Checked.avlNextNode_plain (Checked.avlNextNode_eq linked around unique bounded)

theorem avlPrevNode_eq {build : Build} {arr : Arr} {root x : Nat} {context : Context Nat}
    {left right : BinaryTree Nat}
    (linked : Linked arr (parentId context) (.node x left right))
    (around : LinkedAt arr root x (BinaryTree.node x left right).height context)
    (unique : (context.plug (.node x left right)).inorder.Nodup)
    (bounded : (context.plug (.node x left right)).height ≤ build.maxAvlHeight) :
    avlPrevNode build arr x = (context.before ++ left.inorder).getLastD 0 :=
  Checked.avlPrevNode_plain (Checked.avlPrevNode_eq linked around unique bounded)

end Ghost.Avl
