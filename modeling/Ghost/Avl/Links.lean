import Ghost.Avl.Basic
import Ghost.Lib.TreeZipper

/-!
# Linked trees in the node array

The representation judgments between the array and abstract trees of node
identifiers. `Linked` covers one subtree and the parent link of its root;
`LinkedAt` covers everything around a hole. Stored balances are exact height
differences, so both judgments determine every link and balance they reach.
-/

set_option autoImplicit false

namespace Ghost.Avl

open Lib

/-- The identifier stored in a child slot that holds the given subtree. -/
abbrev rootId (tree : BinaryTree Nat) : Nat := tree.rootD 0

/-- The identifier stored as the parent of whatever fills the hole. -/
abbrev parentId (context : Context Nat) : Nat := context.parentD 0

/-! ## Reads after writes -/

section Writes

variable (arr : Arr) (id other : Nat)

private theorem Arr.modify_self (change : AvlNode → AvlNode) :
    Arr.modify arr id change id = change (arr id) := by
  simp [Arr.modify]

theorem Arr.modify_of_ne (change : AvlNode → AvlNode) (different : other ≠ id) :
    Arr.modify arr id change other = arr other := by
  simp [Arr.modify, different]

@[simp] theorem Arr.setLeft_self (value : Nat) :
    arr.setLeft id value id = { arr id with leftId := value } := arr.modify_self id _

@[simp] theorem Arr.setRight_self (value : Nat) :
    arr.setRight id value id = { arr id with rightId := value } := arr.modify_self id _

@[simp] theorem Arr.setParent_self (value : Nat) :
    arr.setParent id value id = { arr id with parentId := value } := arr.modify_self id _

@[simp] theorem Arr.setBalance_self (value : Int) :
    arr.setBalance id value id = { arr id with balance := value } := arr.modify_self id _

@[simp] theorem Arr.setOrphan_self (value : Bool) :
    arr.setOrphan id value id = { arr id with isOrphan := value } := arr.modify_self id _

@[simp] theorem Arr.setPrevOrphan_self (value : Nat) :
    arr.setPrevOrphan id value id = { arr id with prevOrphanId := value } := arr.modify_self id _

@[simp] theorem Arr.setNextOrphan_self (value : Nat) :
    arr.setNextOrphan id value id = { arr id with nextOrphanId := value } := arr.modify_self id _

variable {id other}

@[simp] theorem Arr.setLeft_of_ne (value : Nat) (different : other ≠ id) :
    arr.setLeft id value other = arr other := arr.modify_of_ne id other _ different

@[simp] theorem Arr.setRight_of_ne (value : Nat) (different : other ≠ id) :
    arr.setRight id value other = arr other := arr.modify_of_ne id other _ different

@[simp] theorem Arr.setParent_of_ne (value : Nat) (different : other ≠ id) :
    arr.setParent id value other = arr other := arr.modify_of_ne id other _ different

@[simp] theorem Arr.setBalance_of_ne (value : Int) (different : other ≠ id) :
    arr.setBalance id value other = arr other := arr.modify_of_ne id other _ different

@[simp] theorem Arr.setOrphan_of_ne (value : Bool) (different : other ≠ id) :
    arr.setOrphan id value other = arr other := arr.modify_of_ne id other _ different

@[simp] theorem Arr.setPrevOrphan_of_ne (value : Nat) (different : other ≠ id) :
    arr.setPrevOrphan id value other = arr other := arr.modify_of_ne id other _ different

@[simp] theorem Arr.setNextOrphan_of_ne (value : Nat) (different : other ≠ id) :
    arr.setNextOrphan id value other = arr other := arr.modify_of_ne id other _ different

@[simp] theorem Arr.setParentIf_of_ne (value : Nat) (different : other ≠ id) :
    arr.setParentIf id value other = arr other := by
  unfold Arr.setParentIf
  split
  · rfl
  · exact arr.setParent_of_ne value different

end Writes

/-- The part of a node that no tree operation touches: its key and its place in
the orphan list. -/
def AvlNode.data (node : AvlNode) : Nat × Bool × Nat × Nat :=
  (node.key, node.isOrphan, node.prevOrphanId, node.nextOrphanId)

/-- The part of a node that no orphan list operation touches. -/
def AvlNode.core (node : AvlNode) : Nat × Nat × Nat × Nat × Int × Bool :=
  (node.key, node.leftId, node.rightId, node.parentId, node.balance, node.isOrphan)

section Data

variable (arr : Arr) (id other : Nat)

@[simp] theorem Arr.setPrevOrphan_core (value : Nat) :
    (arr.setPrevOrphan id value other).core = (arr other).core := by
  unfold Arr.setPrevOrphan Arr.modify
  split <;> rfl

@[simp] theorem Arr.setNextOrphan_core (value : Nat) :
    (arr.setNextOrphan id value other).core = (arr other).core := by
  unfold Arr.setNextOrphan Arr.modify
  split <;> rfl

private theorem Arr.modify_data {change : AvlNode → AvlNode}
    (keeps : ∀ node, (change node).data = node.data) :
    (arr.modify id change other).data = (arr other).data := by
  unfold Arr.modify
  split
  · exact keeps _
  · rfl

@[simp] theorem Arr.setLeft_data (value : Nat) :
    (arr.setLeft id value other).data = (arr other).data :=
  arr.modify_data id other fun _ => rfl

@[simp] theorem Arr.setRight_data (value : Nat) :
    (arr.setRight id value other).data = (arr other).data :=
  arr.modify_data id other fun _ => rfl

@[simp] theorem Arr.setParent_data (value : Nat) :
    (arr.setParent id value other).data = (arr other).data :=
  arr.modify_data id other fun _ => rfl

@[simp] theorem Arr.setBalance_data (value : Int) :
    (arr.setBalance id value other).data = (arr other).data :=
  arr.modify_data id other fun _ => rfl

@[simp] theorem Arr.setParentIf_data (value : Nat) :
    (arr.setParentIf id value other).data = (arr other).data := by
  unfold Arr.setParentIf
  split
  · rfl
  · exact arr.setParent_data id other value

end Data

theorem AvlNode.data_eq_iff {left right : AvlNode} :
    left.data = right.data ↔ left.key = right.key ∧ left.isOrphan = right.isOrphan ∧
      left.prevOrphanId = right.prevOrphanId ∧ left.nextOrphanId = right.nextOrphanId := by
  simp [AvlNode.data]

theorem AvlNode.core_eq_iff {left right : AvlNode} :
    left.core = right.core ↔ left.key = right.key ∧ left.leftId = right.leftId ∧
      left.rightId = right.rightId ∧ left.parentId = right.parentId ∧
      left.balance = right.balance ∧ left.isOrphan = right.isOrphan := by
  simp [AvlNode.core]

/-! ## Subtrees -/

/-- The array spells the tree below `parent`. Balances are exact. -/
def Linked (arr : Arr) (parent : Nat) : BinaryTree Nat → Prop
  | .nil => True
  | .node id left right =>
      id ≠ 0 ∧ (arr id).parentId = parent ∧ (arr id).leftId = rootId left ∧
        (arr id).rightId = rootId right ∧
        (arr id).balance = (right.height : Int) - left.height ∧
        Linked arr id left ∧ Linked arr id right

@[simp] theorem linked_nil (arr : Arr) (parent : Nat) : Linked arr parent .nil := trivial

@[simp] theorem linked_node (arr : Arr) (parent id : Nat) (left right : BinaryTree Nat) :
    Linked arr parent (.node id left right) ↔
      id ≠ 0 ∧ (arr id).parentId = parent ∧ (arr id).leftId = rootId left ∧
        (arr id).rightId = rootId right ∧
        (arr id).balance = (right.height : Int) - left.height ∧
        Linked arr id left ∧ Linked arr id right := Iff.rfl

/-- Only the links and balances of the tree's own nodes matter. -/
theorem Linked.congr_core {arr arr' : Arr} {parent : Nat} {tree : BinaryTree Nat}
    (linked : Linked arr parent tree)
    (same : ∀ id ∈ tree.inorder, (arr' id).core = (arr id).core) : Linked arr' parent tree := by
  induction tree generalizing parent with
  | nil => trivial
  | node id left right leftIH rightIH =>
      simp only [BinaryTree.inorder_node, List.mem_append, List.mem_cons] at same
      obtain ⟨-, sameLeft, sameRight, sameParent, sameBalance, -⟩ :=
        AvlNode.core_eq_iff.mp (same id (.inr (.inl rfl)))
      simp only [linked_node, sameLeft, sameRight, sameParent, sameBalance] at linked ⊢
      obtain ⟨present, parentEq, leftEq, rightEq, balanceEq, leftLinked, rightLinked⟩ := linked
      exact ⟨present, parentEq, leftEq, rightEq, balanceEq,
        leftIH leftLinked fun other member => same other (.inl member),
        rightIH rightLinked fun other member => same other (.inr (.inr member))⟩

theorem Linked.congr {arr arr' : Arr} {parent : Nat} {tree : BinaryTree Nat}
    (linked : Linked arr parent tree)
    (same : ∀ id ∈ tree.inorder, arr' id = arr id) : Linked arr' parent tree :=
  linked.congr_core fun id member => by rw [same id member]

theorem Linked.ne_zero {arr : Arr} {parent : Nat} {tree : BinaryTree Nat}
    (linked : Linked arr parent tree) : ∀ id ∈ tree.inorder, id ≠ 0 := by
  induction tree generalizing parent with
  | nil => simp
  | node id left right leftIH rightIH =>
      obtain ⟨present, -, -, -, -, leftLinked, rightLinked⟩ := linked
      intro other member
      simp only [BinaryTree.inorder_node, List.mem_append, List.mem_cons] at member
      rcases member with inLeft | rfl | inRight
      · exact leftIH leftLinked other inLeft
      · exact present
      · exact rightIH rightLinked other inRight

theorem Linked.rootId_eq_zero {arr : Arr} {parent : Nat} {tree : BinaryTree Nat}
    (linked : Linked arr parent tree) : rootId tree = 0 ↔ tree = .nil := by
  cases tree with
  | nil => simp
  | node id left right => simpa using linked.1

/-- Moving a subtree under another parent only rewrites the root's parent link. -/
theorem Linked.setParentIf {arr : Arr} {parent : Nat} {tree : BinaryTree Nat}
    (linked : Linked arr parent tree) (unique : tree.inorder.Nodup) (parent' : Nat) :
    Linked (arr.setParentIf (rootId tree) parent') parent' tree := by
  cases tree with
  | nil => trivial
  | node id left right =>
      obtain ⟨present, -, leftEq, rightEq, balanceEq, leftLinked, rightLinked⟩ := linked
      simp only [BinaryTree.inorder_node, List.nodup_append, List.nodup_cons,
        List.mem_cons] at unique
      obtain ⟨-, ⟨notRight, -⟩, apart⟩ := unique
      simp only [Arr.setParentIf, BinaryTree.rootD_node, present, if_false, linked_node,
        Arr.setParent_self]
      refine ⟨present, trivial, leftEq, rightEq, balanceEq, leftLinked.congr ?_,
        rightLinked.congr ?_⟩
      · intro other member
        exact Arr.setParent_of_ne _ _ (apart other member id (.inl rfl))
      · intro other member
        exact Arr.setParent_of_ne _ _ (fun same => notRight (same ▸ member))

theorem Arr.setParentIf_apply (arr : Arr) {id value other : Nat} (present : other ≠ 0) :
    arr.setParentIf id value other =
      if other = id then { arr other with parentId := value } else arr other := by
  unfold Arr.setParentIf
  split
  · next absent => rw [if_neg (absent ▸ present)]
  · rfl

/-- A subtree whose root received a new parent link, in an array that agrees
otherwise, hangs below that parent. -/
theorem Linked.moved {arr arr' : Arr} {parent parent' : Nat} {tree : BinaryTree Nat}
    (linked : Linked arr parent tree) (unique : tree.inorder.Nodup)
    (cells : ∀ id ∈ tree.inorder, arr' id =
      if id = rootId tree then { arr id with parentId := parent' } else arr id) :
    Linked arr' parent' tree := by
  refine (linked.setParentIf unique parent').congr fun id member => ?_
  rw [cells id member, Arr.setParentIf_apply arr (linked.ne_zero id member)]

/-- The root of a subtree differs from every node outside it. -/
theorem rootId_ne {other : Nat} {tree : BinaryTree Nat} (present : other ≠ 0)
    (outside : other ∉ tree.inorder) : rootId tree ≠ other := by
  intro same
  cases tree with
  | nil => exact present same.symm
  | node id left right => exact outside (by simp [← same])

/-- Moving a subtree leaves every cell outside it alone. -/
@[simp] theorem Arr.setParentIf_rootId (arr : Arr) {id value : Nat} {tree : BinaryTree Nat}
    (outside : id ∉ tree.inorder) : arr.setParentIf (rootId tree) value id = arr id := by
  cases tree with
  | nil => rfl
  | node root left right =>
      exact arr.setParentIf_of_ne value fun same => outside (by simp [same])

/-- The array leaves no choice: a root and its parent determine the tree. -/
theorem Linked.unique {arr : Arr} {parent : Nat} {left right : BinaryTree Nat}
    (leftLinked : Linked arr parent left) (rightLinked : Linked arr parent right)
    (sameRoot : rootId left = rootId right) : left = right := by
  induction left generalizing parent right with
  | nil => exact (rightLinked.rootId_eq_zero.mp sameRoot.symm).symm
  | node id first second firstIH secondIH =>
      cases right with
      | nil => exact absurd sameRoot leftLinked.1
      | node id' first' second' =>
          obtain rfl : id = id' := sameRoot
          obtain ⟨-, -, leftEq, rightEq, -, firstLinked, secondLinked⟩ := leftLinked
          obtain ⟨-, -, leftEq', rightEq', -, firstLinked', secondLinked'⟩ := rightLinked
          rw [firstIH firstLinked firstLinked' (leftEq.symm.trans leftEq'),
            secondIH secondLinked secondLinked' (rightEq.symm.trans rightEq')]

/-! ## Contexts -/

/-- The array spells the context around a hole whose slot stores `hole` and
whose content has the given height. -/
def LinkedAt (arr : Arr) (root : Nat) : Nat → Nat → Context Nat → Prop
  | hole, _, [] => root = hole
  | hole, height, ⟨.left, id, sibling⟩ :: rest =>
      id ≠ 0 ∧ (arr id).parentId = parentId rest ∧ (arr id).leftId = hole ∧
        (arr id).rightId = rootId sibling ∧ (arr id).balance = (sibling.height : Int) - height ∧
        Linked arr id sibling ∧ LinkedAt arr root id (max height sibling.height + 1) rest
  | hole, height, ⟨.right, id, sibling⟩ :: rest =>
      id ≠ 0 ∧ (arr id).parentId = parentId rest ∧ (arr id).leftId = rootId sibling ∧
        (arr id).rightId = hole ∧ (arr id).balance = (height : Int) - sibling.height ∧
        Linked arr id sibling ∧ LinkedAt arr root id (max height sibling.height + 1) rest

@[simp] theorem linkedAt_nil (arr : Arr) (root hole height : Nat) :
    LinkedAt arr root hole height [] ↔ root = hole := Iff.rfl

@[simp] theorem linkedAt_left (arr : Arr) (root hole height id : Nat)
    (sibling : BinaryTree Nat) (rest : Context Nat) :
    LinkedAt arr root hole height (⟨.left, id, sibling⟩ :: rest) ↔
      id ≠ 0 ∧ (arr id).parentId = parentId rest ∧ (arr id).leftId = hole ∧
        (arr id).rightId = rootId sibling ∧ (arr id).balance = (sibling.height : Int) - height ∧
        Linked arr id sibling ∧ LinkedAt arr root id (max height sibling.height + 1) rest :=
  Iff.rfl

@[simp] theorem linkedAt_right (arr : Arr) (root hole height id : Nat)
    (sibling : BinaryTree Nat) (rest : Context Nat) :
    LinkedAt arr root hole height (⟨.right, id, sibling⟩ :: rest) ↔
      id ≠ 0 ∧ (arr id).parentId = parentId rest ∧ (arr id).leftId = rootId sibling ∧
        (arr id).rightId = hole ∧ (arr id).balance = (height : Int) - sibling.height ∧
        Linked arr id sibling ∧ LinkedAt arr root id (max height sibling.height + 1) rest :=
  Iff.rfl

/-- The identifiers of a context: everything outside the hole. -/
abbrev contextIds (context : Context Nat) : List Nat := context.before ++ context.after

theorem LinkedAt.congr {arr arr' : Arr} {root hole height : Nat} {context : Context Nat}
    (linked : LinkedAt arr root hole height context)
    (same : ∀ id ∈ contextIds context, arr' id = arr id) :
    LinkedAt arr' root hole height context := by
  induction context generalizing hole height with
  | nil => exact linked
  | cons frame rest ih =>
      rcases frame with ⟨side, id, sibling⟩
      cases side with
      | left =>
          simp only [contextIds, Context.before, Context.after, List.mem_append,
            List.mem_cons] at same
          simp only [linkedAt_left, same id (.inr (.inl rfl))] at linked ⊢
          obtain ⟨present, parentEq, leftEq, rightEq, balanceEq, sibLinked, restLinked⟩ := linked
          refine ⟨present, parentEq, leftEq, rightEq, balanceEq, sibLinked.congr ?_,
            ih restLinked ?_⟩
          · exact fun other member => same other (.inr (.inr (.inl member)))
          · intro other member
            rcases List.mem_append.mp member with earlier | later
            · exact same other (.inl earlier)
            · exact same other (.inr (.inr (.inr later)))
      | right =>
          simp only [contextIds, Context.before, Context.after, List.mem_append,
            List.mem_cons, List.not_mem_nil, or_false] at same
          simp only [linkedAt_right, same id (.inl (.inr rfl))] at linked ⊢
          obtain ⟨present, parentEq, leftEq, rightEq, balanceEq, sibLinked, restLinked⟩ := linked
          refine ⟨present, parentEq, leftEq, rightEq, balanceEq, sibLinked.congr ?_,
            ih restLinked ?_⟩
          · exact fun other member => same other (.inl (.inl (.inr member)))
          · intro other member
            rcases List.mem_append.mp member with earlier | later
            · exact same other (.inl (.inl (.inl earlier)))
            · exact same other (.inr later)

/-- A whole linked tree is a linked subtree inside a linked context. -/
theorem linked_plug {arr : Arr} {root : Nat} {context : Context Nat} {tree : BinaryTree Nat} :
    (root = rootId (context.plug tree) ∧ Linked arr 0 (context.plug tree)) ↔
      Linked arr (parentId context) tree ∧
        LinkedAt arr root (rootId tree) tree.height context := by
  induction context generalizing tree with
  | nil => simp [and_comm]
  | cons frame rest ih =>
      rcases frame with ⟨side, id, sibling⟩
      cases side with
      | left =>
          simp only [Context.plug_cons, Frame.attach, ih, linked_node, linkedAt_left,
            BinaryTree.rootD_node, BinaryTree.height, Context.parentD_cons]
          tauto
      | right =>
          simp only [Context.plug_cons, Frame.attach, ih, linked_node, linkedAt_right,
            BinaryTree.rootD_node, BinaryTree.height, Context.parentD_cons,
            max_comm sibling.height]
          tauto

theorem LinkedAt.parentId_ne_zero {arr : Arr} {root hole height : Nat} {context : Context Nat}
    (linked : LinkedAt arr root hole height context) :
    parentId context = 0 ↔ context = [] := by
  cases context with
  | nil => simp
  | cons frame rest =>
      rcases frame with ⟨side, id, sibling⟩
      cases side <;> simpa using linked.1

end Ghost.Avl
