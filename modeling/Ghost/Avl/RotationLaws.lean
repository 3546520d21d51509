import Ghost.Avl.Rotations

/-!
# What the rotations restore

Each rotation from its documented precondition to its result, and the double rotations
against the two single ones that they replace.
-/

set_option autoImplicit false

namespace Ghost.Avl

open Lib

/-- The range of a balance. -/
def Near (balance : Int) : Prop := -1 ≤ balance ∧ balance ≤ 1

/-- Everything below `x` is linked, with exact balances. The balance of `x` is open. -/
structure Below (arr : Arr) (x : Nat) (left right : BinaryTree Nat) : Prop where
  present : x ≠ 0
  unique : (left.inorder ++ x :: right.inorder).Nodup
  leftEq : (arr x).leftId = rootId left
  rightEq : (arr x).rightId = rootId right
  leftLinked : Linked arr x left
  rightLinked : Linked arr x right

/-- The rotated subtree has the given shape. -/
structure Restores (arr : Arr) (x : Nat) (left right : BinaryTree Nat) (rotated : Arr × Nat)
    (tree : BinaryTree Nat) : Prop where
  root : rotated.2 = rootId tree
  order : tree.inorder = left.inorder ++ x :: right.inorder
  /-- The parent of the root is for the caller to set. -/
  linked : ∀ parent, Linked (rotated.1.setParent rotated.2 parent) parent tree
  near : (∀ id ∈ left.inorder ++ right.inorder, Near (arr id).balance) →
    ∀ id ∈ tree.inorder, Near (rotated.1 id).balance
  frame : ∀ id ∉ tree.inorder, rotated.1 id = arr id
  data : ∀ id, (rotated.1 id).data = (arr id).data

/-- Where balances are exact, those in range are the balanced nodes. -/
theorem Linked.balanced_iff {arr : Arr} {parent : Nat} {tree : BinaryTree Nat}
    (linked : Linked arr parent tree) :
    tree.Balanced ↔ ∀ id ∈ tree.inorder, Near (arr id).balance := by
  induction tree generalizing parent with
  | nil => simp
  | node id left right leftIH rightIH =>
      obtain ⟨-, -, -, -, balance, leftLinked, rightLinked⟩ := linked
      have own : Near (arr id).balance ↔
          left.height ≤ right.height + 1 ∧ right.height ≤ left.height + 1 := by
        rw [Near, balance]
        omega
      simp only [BinaryTree.balanced_node, BinaryTree.inorder_node, List.mem_append,
        List.mem_cons, leftIH leftLinked, rightIH rightLinked]
      constructor
      · rintro ⟨low, high, nearLeft, nearRight⟩ other (inLeft | rfl | inRight)
        · exact nearLeft other inLeft
        · exact own.mpr ⟨low, high⟩
        · exact nearRight other inRight
      · intro near
        obtain ⟨low, high⟩ := own.mp (near id (.inr (.inl rfl)))
        exact ⟨low, high, fun other member => near other (.inl member),
          fun other member => near other (.inr (.inr member))⟩

private theorem Rotated.restores {arr : Arr} {x : Nat} {left right tree : BinaryTree Nat}
    {rotated : Arr × Nat} (below : Below arr x left right)
    (isRotated : ∀ parent, Rotated arr rotated parent tree)
    (order : tree.inorder = left.inorder ++ x :: right.inorder)
    (balanced : left.Balanced → right.Balanced → tree.Balanced) :
    Restores arr x left right rotated tree := by
  refine ⟨(isRotated 0).root, order, fun parent => (isRotated parent).linked, ?_,
    (isRotated 0).frame, (isRotated 0).data⟩
  intro near id member
  have leftBalanced : left.Balanced := below.leftLinked.balanced_iff.mpr fun other inLeft =>
    near other (List.mem_append_left _ inLeft)
  have rightBalanced : right.Balanced := below.rightLinked.balanced_iff.mpr fun other inRight =>
    near other (List.mem_append_right _ inRight)
  have restored := (isRotated 0).linked.balanced_iff.mp (balanced leftBalanced rightBalanced)
    id member
  have same : (rotated.1.setParent rotated.2 0 id).balance = (rotated.1 id).balance := by
    by_cases isRoot : id = rotated.2
    · rw [isRoot, Arr.setParent_self]
    · rw [Arr.setParent_of_ne _ _ isRoot]
  rwa [same] at restored

section Single

variable {arr : Arr} {x : Nat} {left right : BinaryTree Nat}

/-- A left rotation, from `X` with balance +2 over `Z` that is right heavy or balanced. -/
theorem Below.rotateLeft (below : Below arr x left right)
    (heavy : right.height = left.height + 2)
    (leans : (arr (arr x).rightId).balance = 0 ∨ (arr (arr x).rightId).balance = 1) :
    ∃ tree, Restores arr x left right (avlRotateLeft arr x (arr x).rightId) tree ∧
      (BinaryTree.node x left right).height =
        tree.height + if (arr (arr x).rightId).balance = 0 then 0 else 1 := by
  cases right with
  | nil => simp [BinaryTree.height] at heavy
  | node z t23 t4 =>
      have isZ : (arr x).rightId = z := below.rightEq
      rw [isZ] at leans ⊢
      have linked := below.rightLinked
      have balance : (arr z).balance = (t4.height : Int) - t23.height := linked.2.2.2.2.1
      simp only [BinaryTree.height] at heavy
      refine ⟨.node z (.node x left t23) t4, Rotated.restores below ?_ (by simp) ?_, ?_⟩
      · intro parent
        exact avlRotateLeft_rotated below.unique below.present below.leftEq below.leftLinked linked
          (by omega) (by omega) parent
      · simp only [BinaryTree.balanced_node, BinaryTree.height]
        intro leftBalanced rightBalanced
        refine ⟨by omega, by omega, ⟨by omega, by omega, leftBalanced, rightBalanced.2.2.1⟩,
          rightBalanced.2.2.2⟩
      · simp only [BinaryTree.height]
        split <;> omega

/-- A right rotation, from `X` with balance -2 over `Z` that is left heavy or balanced. -/
theorem Below.rotateRight (below : Below arr x left right)
    (heavy : left.height = right.height + 2)
    (leans : (arr (arr x).leftId).balance = 0 ∨ (arr (arr x).leftId).balance = -1) :
    ∃ tree, Restores arr x left right (avlRotateRight arr x (arr x).leftId) tree ∧
      (BinaryTree.node x left right).height =
        tree.height + if (arr (arr x).leftId).balance = 0 then 0 else 1 := by
  cases left with
  | nil => simp [BinaryTree.height] at heavy
  | node z t1 t23 =>
      have isZ : (arr x).leftId = z := below.leftEq
      rw [isZ] at leans ⊢
      have linked := below.leftLinked
      have balance : (arr z).balance = (t23.height : Int) - t1.height := linked.2.2.2.2.1
      simp only [BinaryTree.height] at heavy
      refine ⟨.node z t1 (.node x t23 right), Rotated.restores below ?_ (by simp) ?_, ?_⟩
      · intro parent
        exact avlRotateRight_rotated below.unique below.present below.rightEq linked
          below.rightLinked (by omega) (by omega) parent
      · simp only [BinaryTree.balanced_node, BinaryTree.height]
        intro leftBalanced rightBalanced
        refine ⟨by omega, by omega, leftBalanced.2.2.1, by omega, by omega,
          leftBalanced.2.2.2, rightBalanced⟩
      · simp only [BinaryTree.height]
        split <;> omega

end Single

/-! ## Double rotations -/

/-- "Z-Y right", then "X-Y left", with the link between `X` and `Y` made in between. -/
def rotateRightThenLeft (arr : Arr) (x z : Nat) : Arr × Nat :=
  let inner := avlRotateRight arr z (arr z).leftId
  avlRotateLeft ((inner.1.setRight x inner.2).setParent inner.2 x) x inner.2

/-- "Z-Y left", then "X-Y right". -/
def rotateLeftThenRight (arr : Arr) (x z : Nat) : Arr × Nat :=
  let inner := avlRotateLeft arr z (arr z).rightId
  avlRotateRight ((inner.1.setLeft x inner.2).setParent inner.2 x) x inner.2

def AvlNode.links (node : AvlNode) : Nat × Nat × Nat := (node.leftId, node.rightId, node.parentId)

/-- The same root, and the same links once the caller has set its parent. -/
def SameLinks (rotated rotated' : Arr × Nat) : Prop :=
  rotated.2 = rotated'.2 ∧ ∀ parent id,
    (rotated.1.setParent rotated.2 parent id).links =
      (rotated'.1.setParent rotated'.2 parent id).links

section Links

variable (arr : Arr) {x z : Nat}

@[simp] theorem Arr.setBalance_links (id other : Nat) (value : Int) :
    (arr.setBalance id value other).links = (arr other).links := by
  unfold Arr.setBalance Arr.modify
  split <;> rfl

private theorem Arr.setLeft_links (id other value : Nat) : (arr.setLeft id value other).links =
    (if other = id then value else (arr other).links.1, (arr other).links.2) := by
  unfold Arr.setLeft Arr.modify
  split <;> rfl

private theorem Arr.setRight_links (id other value : Nat) : (arr.setRight id value other).links =
    ((arr other).links.1, if other = id then value else (arr other).links.2.1,
      (arr other).links.2.2) := by
  unfold Arr.setRight Arr.modify
  split <;> rfl

private theorem Arr.setParent_links (id other value : Nat) : (arr.setParent id value other).links =
    ((arr other).links.1, (arr other).links.2.1,
      if other = id then value else (arr other).links.2.2) := by
  unfold Arr.setParent Arr.modify
  split <;> rfl

private theorem Arr.setParentIf_links (id other value : Nat) :
    (arr.setParentIf id value other).links =
    ((arr other).links.1, (arr other).links.2.1,
      if id ≠ 0 ∧ other = id then value else (arr other).links.2.2) := by
  unfold Arr.setParentIf
  split
  · next absent => simp [absent]
  · next present => simp [present, Arr.setParent_links]

private theorem avlRotateLeft_links (id : Nat) :
    ((avlRotateLeft arr x z).1 id).links =
      (((((arr.setRight x (arr z).links.1).setParentIf (arr z).links.1 x).setLeft z x).setParent x
        z) id).links := by
  unfold avlRotateLeft
  dsimp only
  split <;> (rw [Arr.setBalance_links, Arr.setBalance_links]; rfl)

private theorem avlRotateRight_links (id : Nat) :
    ((avlRotateRight arr x z).1 id).links =
      (((((arr.setLeft x (arr z).links.2.1).setParentIf (arr z).links.2.1 x).setRight z x).setParent
        x z) id).links := by
  unfold avlRotateRight
  dsimp only
  split <;> (rw [Arr.setBalance_links, Arr.setBalance_links]; rfl)

@[simp] theorem avlRotateLeft_root : (avlRotateLeft arr x z).2 = z := by
  unfold avlRotateLeft
  dsimp only
  split <;> rfl

@[simp] theorem avlRotateRight_root : (avlRotateRight arr x z).2 = z := by
  unfold avlRotateRight
  dsimp only
  split <;> rfl

private theorem avlRotateRightLeft_links {y : Nat} (isY : (arr z).leftId = y) (present : y ≠ 0) :
    (avlRotateRightLeft arr x z).2 = y ∧ ∀ id, ((avlRotateRightLeft arr x z).1 id).links =
      (((((((((arr.setLeft y x).setParent x y).setRight x (arr y).links.1).setParentIf
        (arr y).links.1 x).setRight y z).setParent z y).setLeft z (arr y).links.2.1).setParentIf
        (arr y).links.2.1 z) id).links := by
  unfold avlRotateRightLeft
  dsimp only
  rw [isY, if_neg present]
  split
  · exact ⟨rfl, fun id => by simp only [Arr.setBalance_links]; rfl⟩
  · split
    · exact ⟨rfl, fun id => by simp only [Arr.setBalance_links]; rfl⟩
    · exact ⟨rfl, fun id => by simp only [Arr.setBalance_links]; rfl⟩

private theorem rightLeft_sameLinks {y : Nat} (isY : (arr z).leftId = y) (present : y ≠ 0)
    (xy : x ≠ y) (xz : x ≠ z) (yz : y ≠ z)
    (t2 : (arr y).leftId ≠ x ∧ (arr y).leftId ≠ y ∧ (arr y).leftId ≠ z)
    (t3 : (arr y).rightId ≠ x ∧ (arr y).rightId ≠ y ∧ (arr y).rightId ≠ z)
    (apart : (arr y).leftId = (arr y).rightId → (arr y).leftId = 0) :
    SameLinks (avlRotateRightLeft arr x z) (rotateRightThenLeft arr x z) := by
  obtain ⟨root, links⟩ := avlRotateRightLeft_links arr isY present
  unfold SameLinks rotateRightThenLeft
  rw [root, isY]
  refine ⟨by simp, ?_⟩
  intro parent id
  have left : (arr y).links.1 = (arr y).leftId := rfl
  have right : (arr y).links.2.1 = (arr y).rightId := rfl
  simp only [Arr.setParent_links, links, avlRotateLeft_links, avlRotateLeft_root,
    avlRotateRight_root, avlRotateRight_links, Arr.setLeft_links, Arr.setRight_links,
    Arr.setParentIf_links, left, right]
  clear links root isY
  generalize (arr id).links = links
  generalize (arr y).leftId = t2Id at *
  generalize (arr y).rightId = t3Id at *
  grind

private theorem avlRotateLeftRight_links {y : Nat} (isY : (arr z).rightId = y) (present : y ≠ 0) :
    (avlRotateLeftRight arr x z).2 = y ∧ ∀ id, ((avlRotateLeftRight arr x z).1 id).links =
      (((((((((arr.setLeft y z).setParent z y).setRight z (arr y).links.1).setParentIf
        (arr y).links.1 z).setRight y x).setParent x y).setLeft x (arr y).links.2.1).setParentIf
        (arr y).links.2.1 x) id).links := by
  unfold avlRotateLeftRight
  dsimp only
  rw [isY, if_neg present]
  split
  · exact ⟨rfl, fun id => by simp only [Arr.setBalance_links]; rfl⟩
  · split
    · exact ⟨rfl, fun id => by simp only [Arr.setBalance_links]; rfl⟩
    · exact ⟨rfl, fun id => by simp only [Arr.setBalance_links]; rfl⟩

private theorem leftRight_sameLinks {y : Nat} (isY : (arr z).rightId = y) (present : y ≠ 0)
    (xy : x ≠ y) (yz : y ≠ z)
    (t2 : (arr y).leftId ≠ x ∧ (arr y).leftId ≠ y ∧ (arr y).leftId ≠ z)
    (t3 : (arr y).rightId ≠ x ∧ (arr y).rightId ≠ y ∧ (arr y).rightId ≠ z) :
    SameLinks (avlRotateLeftRight arr x z) (rotateLeftThenRight arr x z) := by
  obtain ⟨root, links⟩ := avlRotateLeftRight_links arr isY present
  unfold SameLinks rotateLeftThenRight
  rw [root, isY]
  refine ⟨by simp, ?_⟩
  intro parent id
  have left : (arr y).links.1 = (arr y).leftId := rfl
  have right : (arr y).links.2.1 = (arr y).rightId := rfl
  simp only [Arr.setParent_links, links, avlRotateLeft_links, avlRotateLeft_root,
    avlRotateRight_root, avlRotateRight_links, Arr.setLeft_links, Arr.setRight_links,
    Arr.setParentIf_links, left, right]
  clear links root isY
  generalize (arr id).links = links
  generalize (arr y).leftId = t2Id at *
  generalize (arr y).rightId = t3Id at *
  grind

/-- The roots of the subtrees of `Y` are none of the three nodes, and differ if there
are two. -/
theorem innerRoots_apart {a y b : Nat} {t1 t2 t3 t4 : BinaryTree Nat}
    (unique : (BinaryTree.node y (.node a t1 t2) (.node b t3 t4)).inorder.Nodup)
    (present : a ≠ 0 ∧ y ≠ 0 ∧ b ≠ 0) :
    (rootId t2 ≠ a ∧ rootId t2 ≠ y ∧ rootId t2 ≠ b) ∧
    (rootId t3 ≠ a ∧ rootId t3 ≠ y ∧ rootId t3 ≠ b) ∧
    (rootId t2 = rootId t3 → rootId t2 = 0) := by
  obtain ⟨-, -, -, -, -, -, a2, a3, y2, y3, b2, b3⟩ := arranged_apart unique
  obtain ⟨aPresent, yPresent, bPresent⟩ := present
  refine ⟨⟨rootId_ne aPresent a2, rootId_ne yPresent y2, rootId_ne bPresent b2⟩,
    ⟨rootId_ne aPresent a3, rootId_ne yPresent y3, rootId_ne bPresent b3⟩, ?_⟩
  intro same
  by_contra root
  have in2 : rootId t2 ∈ t2.inorder := by
    apply BinaryTree.rootD_mem
    rintro rfl
    exact root rfl
  have in3 : rootId t3 ∈ t3.inorder := by
    apply BinaryTree.rootD_mem
    rintro rfl
    exact root same
  rw [← same] at in3
  simp only [BinaryTree.inorder_node, List.nodup_append, List.mem_append, List.mem_cons] at unique
  exact unique.2.2 _ (.inr (.inr in2)) _ (.inr (.inl in3)) rfl

end Links

section Double

variable {arr : Arr} {x : Nat} {left right : BinaryTree Nat}

/-- A right-left rotation, from `X` with balance +2 over `Z` that is left heavy. -/
theorem Below.rotateRightLeft (below : Below arr x left right)
    (heavy : right.height = left.height + 2)
    (leans : (arr (arr x).rightId).balance = -1)
    (near : Near (arr (arr (arr x).rightId).leftId).balance) :
    ∃ tree, Restores arr x left right (avlRotateRightLeft arr x (arr x).rightId) tree ∧
      (BinaryTree.node x left right).height = tree.height + 1 ∧
      SameLinks (avlRotateRightLeft arr x (arr x).rightId)
        (rotateRightThenLeft arr x (arr x).rightId) := by
  cases right with
  | nil => simp [BinaryTree.height] at heavy
  | node z t23 t4 =>
      have isZ : (arr x).rightId = z := below.rightEq
      rw [isZ] at leans near ⊢
      have linked := below.rightLinked
      have balance : (arr z).balance = (t4.height : Int) - t23.height := linked.2.2.2.2.1
      cases t23 with
      | nil =>
          simp only [BinaryTree.height] at balance
          omega
      | node y t2 t3 =>
          have isY : (arr z).leftId = y := linked.2.2.1
          have inner : Linked arr z (.node y t2 t3) := linked.2.2.2.2.2.1
          have innerBalance : (arr y).balance = (t3.height : Int) - t2.height := inner.2.2.2.2.1
          rw [isY, Near, innerBalance] at near
          simp only [BinaryTree.height] at heavy balance
          have unique : (BinaryTree.node y (.node x left t2) (.node z t3 t4)).inorder.Nodup := by
            simpa using below.unique
          refine ⟨.node y (.node x left t2) (.node z t3 t4),
            Rotated.restores below ?_ (by simp) ?_, ?_, ?_⟩
          · intro parent
            exact avlRotateRightLeft_rotated below.unique below.present below.leftEq
              below.leftLinked linked (by omega) (by omega) (by omega) parent
          · simp only [BinaryTree.balanced_node, BinaryTree.height]
            intro leftBalanced rightBalanced
            obtain ⟨-, -, ⟨-, -, balanced2, balanced3⟩, balanced4⟩ := rightBalanced
            exact ⟨by omega, by omega, ⟨by omega, by omega, leftBalanced, balanced2⟩,
              by omega, by omega, balanced3, balanced4⟩
          · simp only [BinaryTree.height]
            omega
          · obtain ⟨xy, -, xz, -, yz, -⟩ := arranged_apart unique
            obtain ⟨apart2, apart3, apart⟩ :=
              innerRoots_apart unique ⟨below.present, inner.1, linked.1⟩
            rw [← inner.2.2.1] at apart2 apart
            rw [← inner.2.2.2.1] at apart3 apart
            exact rightLeft_sameLinks arr isY inner.1 xy xz yz apart2 apart3 apart

/-- A left-right rotation, from `X` with balance -2 over `Z` that is right heavy. -/
theorem Below.rotateLeftRight (below : Below arr x left right)
    (heavy : left.height = right.height + 2)
    (leans : (arr (arr x).leftId).balance = 1)
    (near : Near (arr (arr (arr x).leftId).rightId).balance) :
    ∃ tree, Restores arr x left right (avlRotateLeftRight arr x (arr x).leftId) tree ∧
      (BinaryTree.node x left right).height = tree.height + 1 ∧
      SameLinks (avlRotateLeftRight arr x (arr x).leftId)
        (rotateLeftThenRight arr x (arr x).leftId) := by
  cases left with
  | nil => simp [BinaryTree.height] at heavy
  | node z t1 t23 =>
      have isZ : (arr x).leftId = z := below.leftEq
      rw [isZ] at leans near ⊢
      have linked := below.leftLinked
      have balance : (arr z).balance = (t23.height : Int) - t1.height := linked.2.2.2.2.1
      cases t23 with
      | nil =>
          simp only [BinaryTree.height] at balance
          omega
      | node y t2 t3 =>
          have isY : (arr z).rightId = y := linked.2.2.2.1
          have inner : Linked arr z (.node y t2 t3) := linked.2.2.2.2.2.2
          have innerBalance : (arr y).balance = (t3.height : Int) - t2.height := inner.2.2.2.2.1
          rw [isY, Near, innerBalance] at near
          simp only [BinaryTree.height] at heavy balance
          have unique : (BinaryTree.node y (.node z t1 t2) (.node x t3 right)).inorder.Nodup := by
            simpa using below.unique
          refine ⟨.node y (.node z t1 t2) (.node x t3 right),
            Rotated.restores below ?_ (by simp) ?_, ?_, ?_⟩
          · intro parent
            exact avlRotateLeftRight_rotated below.unique below.present below.rightEq linked
              below.rightLinked (by omega) (by omega) (by omega) parent
          · simp only [BinaryTree.balanced_node, BinaryTree.height]
            intro leftBalanced rightBalanced
            obtain ⟨-, -, balanced1, -, -, balanced2, balanced3⟩ := leftBalanced
            exact ⟨by omega, by omega, ⟨by omega, by omega, balanced1, balanced2⟩,
              by omega, by omega, balanced3, rightBalanced⟩
          · simp only [BinaryTree.height]
            omega
          · obtain ⟨zy, -, -, -, yx, -⟩ := arranged_apart unique
            obtain ⟨apart2, apart3, -⟩ :=
              innerRoots_apart unique ⟨linked.1, inner.1, below.present⟩
            rw [← inner.2.2.1] at apart2
            rw [← inner.2.2.2.1] at apart3
            exact leftRight_sameLinks arr isY inner.1 yx.symm zy.symm
              ⟨apart2.2.2, apart2.2.1, apart2.1⟩ ⟨apart3.2.2, apart3.2.1, apart3.1⟩

end Double

/-- Every rotation restores the subtree at `X`. Its height drops by one, except after a single
rotation over a balanced `Z`, the case that the deletion absorbs. -/
theorem rotations_restore {arr : Arr} {x : Nat} {left right : BinaryTree Nat}
    (below : Below arr x left right) :
    (right.height = left.height + 2 →
      (arr (arr x).rightId).balance = 0 ∨ (arr (arr x).rightId).balance = 1 →
      ∃ tree, Restores arr x left right (avlRotateLeft arr x (arr x).rightId) tree ∧
        (BinaryTree.node x left right).height =
          tree.height + if (arr (arr x).rightId).balance = 0 then 0 else 1) ∧
    (left.height = right.height + 2 →
      (arr (arr x).leftId).balance = 0 ∨ (arr (arr x).leftId).balance = -1 →
      ∃ tree, Restores arr x left right (avlRotateRight arr x (arr x).leftId) tree ∧
        (BinaryTree.node x left right).height =
          tree.height + if (arr (arr x).leftId).balance = 0 then 0 else 1) ∧
    (right.height = left.height + 2 → (arr (arr x).rightId).balance = -1 →
      Near (arr (arr (arr x).rightId).leftId).balance →
      ∃ tree, Restores arr x left right (avlRotateRightLeft arr x (arr x).rightId) tree ∧
        (BinaryTree.node x left right).height = tree.height + 1 ∧
        SameLinks (avlRotateRightLeft arr x (arr x).rightId)
          (rotateRightThenLeft arr x (arr x).rightId)) ∧
    (left.height = right.height + 2 → (arr (arr x).leftId).balance = 1 →
      Near (arr (arr (arr x).leftId).rightId).balance →
      ∃ tree, Restores arr x left right (avlRotateLeftRight arr x (arr x).leftId) tree ∧
        (BinaryTree.node x left right).height = tree.height + 1 ∧
        SameLinks (avlRotateLeftRight arr x (arr x).leftId)
          (rotateLeftThenRight arr x (arr x).leftId)) :=
  ⟨below.rotateLeft, below.rotateRight, below.rotateRightLeft, below.rotateLeftRight⟩

/-- The chain 1, 3, with 2 between them. -/
def zigzag : Arr
  | 1 => ⟨10, 0, 3, 0, 2, false, 0, 0⟩
  | 3 => ⟨30, 2, 0, 1, -1, false, 0, 0⟩
  | 2 => ⟨20, 0, 0, 3, 0, false, 0, 0⟩
  | _ => ⟨0, 0, 0, 0, 0, false, 0, 0⟩

theorem zigzag_restored : ∃ tree,
    Restores zigzag 1 .nil (.node 3 (.node 2 .nil .nil) .nil) (avlRotateRightLeft zigzag 1 3) tree ∧
      (BinaryTree.node 1 .nil (.node 3 (.node 2 .nil .nil) .nil)).height = tree.height + 1 ∧
      SameLinks (avlRotateRightLeft zigzag 1 3) (rotateRightThenLeft zigzag 1 3) := by
  have below : Below zigzag 1 .nil (.node 3 (.node 2 .nil .nil) .nil) :=
    ⟨by decide, by decide, rfl, rfl, linked_nil _ _, by
      simp [zigzag, rootId, BinaryTree.height]⟩
  exact (rotations_restore below).2.2.1 rfl rfl (by simp [Near, zigzag])

end Ghost.Avl
