import Ghost.Avl.Links

/-!
# Rotations

Each rotation rebuilds one subtree in place. The specifications start from the
state a retrace leaves: `x` still stores its old balance, its two subtrees are
linked, and their true heights differ by two. Afterwards the returned node is
the root of a linked subtree with exact balances, once the caller has set its
parent link, and no array cell outside the subtree has changed.
-/

set_option autoImplicit false

namespace Ghost.Avl

open Lib

/-- The outcome of a rotation: the subtree `tree` hangs below `parent` under the
returned root, other cells than `ids` are unchanged, and all data survives. -/
structure Rotated (arr : Arr) (rotated : Arr × Nat) (parent : Nat)
    (tree : BinaryTree Nat) : Prop where
  root : rotated.2 = rootId tree
  linked : Linked (rotated.1.setParent rotated.2 parent) parent tree
  frame : ∀ id ∉ tree.inorder, rotated.1 id = arr id
  data : ∀ id, (rotated.1 id).data = (arr id).data

private theorem avlRotateLeft_data (arr : Arr) (x z id : Nat) :
    ((avlRotateLeft arr x z).1 id).data = (arr id).data := by
  unfold avlRotateLeft
  dsimp only
  split <;> simp

private theorem avlRotateRight_data (arr : Arr) (x z id : Nat) :
    ((avlRotateRight arr x z).1 id).data = (arr id).data := by
  unfold avlRotateRight
  dsimp only
  split <;> simp

private theorem avlRotateRightLeft_data (arr : Arr) (x z id : Nat) :
    ((avlRotateRightLeft arr x z).1 id).data = (arr id).data := by
  unfold avlRotateRightLeft
  dsimp only
  split
  · rfl
  · split
    · simp
    · split <;> simp

private theorem avlRotateLeftRight_data (arr : Arr) (x z id : Nat) :
    ((avlRotateLeftRight arr x z).1 id).data = (arr id).data := by
  unfold avlRotateLeftRight
  dsimp only
  split
  · rfl
  · split
    · simp
    · split <;> simp

theorem avlRotateLeft_rotated {arr : Arr} {x z : Nat} {t1 t23 t4 : BinaryTree Nat}
    (unique : (t1.inorder ++ x :: (t23.inorder ++ z :: t4.inorder)).Nodup)
    (present : x ≠ 0) (leftEq : (arr x).leftId = rootId t1)
    (t1Linked : Linked arr x t1) (zLinked : Linked arr x (.node z t23 t4))
    (taller : t4.height = t1.height + 1)
    (leaning : t23.height = t4.height ∨ t23.height + 1 = t4.height) (parent : Nat) :
    Rotated arr (avlRotateLeft arr x z) parent (.node z (.node x t1 t23) t4) := by
  obtain ⟨zPresent, -, zLeft, zRight, zBalance, t23Linked, t4Linked⟩ := zLinked
  simp only [List.nodup_append, List.nodup_cons, List.mem_append, List.mem_cons, not_or] at unique
  have apart : x ≠ z ∧ z ≠ x ∧ x ∉ t23.inorder ∧ z ∉ t23.inorder := by grind
  have shape : avlRotateLeft arr x z =
      ((((((arr.setRight x (rootId t23)).setParentIf (rootId t23) x).setLeft z x).setParent x
        z).setBalance x (t23.height - t1.height)).setBalance z
        (t4.height - (max t1.height t23.height + 1 : Nat)), z) := by
    have zKept : ((((arr.setRight x (rootId t23)).setParentIf (rootId t23) x).setLeft z
        x).setParent x z z).balance = (t4.height : Int) - t23.height := by
      simp [apart, zBalance]
    unfold avlRotateLeft
    dsimp only
    rw [zLeft, zKept]
    split <;> congr 3 <;> omega
  refine ⟨by rw [shape]; rfl, ?_, ?_, avlRotateLeft_data arr x z⟩
  · rw [shape]
    simp only [linked_node]
    refine ⟨zPresent, by simp, by simp [apart], by simp [apart, zRight], by simp,
      ⟨present, by simp [apart], by simp [apart, leftEq], by simp [apart], by simp [apart],
        t1Linked.congr ?_, t23Linked.moved (by grind) ?_⟩, t4Linked.congr ?_⟩
    · intro id member
      have idApart : id ≠ x ∧ id ≠ z ∧ id ∉ t23.inorder := by grind
      simp [idApart]
    · intro id member
      have idApart : id ≠ x ∧ id ≠ z := by grind
      simp [idApart, Arr.setParentIf_apply _ (t23Linked.ne_zero id member)]
    · intro id member
      have idApart : id ≠ x ∧ id ≠ z ∧ id ∉ t23.inorder := by grind
      simp [idApart]
  · intro id outside
    simp only [BinaryTree.inorder_node, List.mem_append, List.mem_cons, not_or] at outside
    rw [shape]
    simp [outside]

theorem avlRotateRight_rotated {arr : Arr} {x z : Nat} {t1 t23 t4 : BinaryTree Nat}
    (unique : ((t1.inorder ++ z :: t23.inorder) ++ x :: t4.inorder).Nodup)
    (present : x ≠ 0) (rightEq : (arr x).rightId = rootId t4)
    (zLinked : Linked arr x (.node z t1 t23)) (t4Linked : Linked arr x t4)
    (taller : t1.height = t4.height + 1)
    (leaning : t23.height = t1.height ∨ t23.height + 1 = t1.height) (parent : Nat) :
    Rotated arr (avlRotateRight arr x z) parent (.node z t1 (.node x t23 t4)) := by
  obtain ⟨zPresent, -, zLeft, zRight, zBalance, t1Linked, t23Linked⟩ := zLinked
  simp only [List.nodup_append, List.nodup_cons, List.mem_append, List.mem_cons] at unique
  have apart : x ≠ z ∧ z ≠ x ∧ x ∉ t23.inorder ∧ z ∉ t23.inorder := by grind
  have shape : avlRotateRight arr x z =
      ((((((arr.setLeft x (rootId t23)).setParentIf (rootId t23) x).setRight z x).setParent x
        z).setBalance x (t4.height - t23.height)).setBalance z
        ((max t23.height t4.height + 1 : Nat) - t1.height), z) := by
    have zKept : ((((arr.setLeft x (rootId t23)).setParentIf (rootId t23) x).setRight z
        x).setParent x z z).balance = (t23.height : Int) - t1.height := by
      simp [apart, zBalance]
    unfold avlRotateRight
    dsimp only
    rw [zRight, zKept]
    split <;> congr 3 <;> omega
  refine ⟨by rw [shape]; rfl, ?_, ?_, avlRotateRight_data arr x z⟩
  · rw [shape]
    simp only [linked_node]
    refine ⟨zPresent, by simp, by simp [apart, zLeft], by simp [apart], by simp,
      t1Linked.congr ?_, present, by simp [apart], by simp [apart], by simp [apart, rightEq],
      by simp [apart], t23Linked.moved (by grind) ?_, t4Linked.congr ?_⟩
    · intro id member
      have idApart : id ≠ x ∧ id ≠ z ∧ id ∉ t23.inorder := by grind
      simp [idApart]
    · intro id member
      have idApart : id ≠ x ∧ id ≠ z := by grind
      simp [idApart, Arr.setParentIf_apply _ (t23Linked.ne_zero id member)]
    · intro id member
      have idApart : id ≠ x ∧ id ≠ z ∧ id ∉ t23.inorder := by grind
      simp [idApart]
  · intro id outside
    simp only [BinaryTree.inorder_node, List.mem_append, List.mem_cons, not_or] at outside
    rw [shape]
    simp [outside]

private theorem Arr.setBalance_comm (arr : Arr) {id other : Nat} (differ : id ≠ other)
    (value value' : Int) : (arr.setBalance id value).setBalance other value' =
      (arr.setBalance other value').setBalance id value := by
  funext cell
  by_cases isId : cell = id
  · simp [isId, differ]
  · by_cases isOther : cell = other
    · simp [isOther, differ.symm]
    · simp [isId, isOther]

/-- The links and balances that a double rotation leaves: `y` above `a` and `b`, whose
inner subtrees are the former ones of `y`. -/
def arranged (arr : Arr) (a y b : Nat) (t1 t2 t3 t4 : BinaryTree Nat) : Arr :=
  ((((((((((arr.setLeft y a).setParent a y).setRight a (rootId t2)).setParentIf (rootId t2)
    a).setRight y b).setParent b y).setLeft b (rootId t3)).setParentIf (rootId t3)
    b).setBalance a (t2.height - t1.height)).setBalance y
    ((max t3.height t4.height + 1 : Nat) - (max t1.height t2.height + 1 : Nat))).setBalance b
    (t4.height - t3.height)

section Arranged

variable {arr : Arr} {a y b : Nat} {t1 t2 t3 t4 : BinaryTree Nat}

theorem arranged_apart
    (unique : (BinaryTree.node y (.node a t1 t2) (.node b t3 t4)).inorder.Nodup) :
    a ≠ y ∧ y ≠ a ∧ a ≠ b ∧ b ≠ a ∧ y ≠ b ∧ b ≠ y ∧ a ∉ t2.inorder ∧ a ∉ t3.inorder ∧
      y ∉ t2.inorder ∧ y ∉ t3.inorder ∧ b ∉ t2.inorder ∧ b ∉ t3.inorder := by
  simp only [BinaryTree.inorder_node, List.nodup_append, List.nodup_cons, List.mem_append,
    List.mem_cons, not_or] at unique
  grind

private theorem arranged_frame {id : Nat}
    (outside : id ∉ (BinaryTree.node y (.node a t1 t2) (.node b t3 t4)).inorder) :
    arranged arr a y b t1 t2 t3 t4 id = arr id := by
  simp only [BinaryTree.inorder_node, List.mem_append, List.mem_cons, not_or] at outside
  simp [arranged, outside]

private theorem arranged_linked
    (unique : (BinaryTree.node y (.node a t1 t2) (.node b t3 t4)).inorder.Nodup)
    (aPresent : a ≠ 0) (yPresent : y ≠ 0) (bPresent : b ≠ 0)
    (leftEq : (arr a).leftId = rootId t1) (rightEq : (arr b).rightId = rootId t4)
    (t1Linked : Linked arr a t1) (t2Linked : Linked arr y t2) (t3Linked : Linked arr y t3)
    (t4Linked : Linked arr b t4) (parent : Nat) :
    Linked ((arranged arr a y b t1 t2 t3 t4).setParent y parent) parent
      (.node y (.node a t1 t2) (.node b t3 t4)) := by
  have apart := arranged_apart unique
  simp only [BinaryTree.inorder_node, List.nodup_append, List.nodup_cons, List.mem_append,
    List.mem_cons, not_or] at unique
  unfold arranged
  simp only [linked_node]
  refine ⟨yPresent, by simp, by simp [apart], by simp [apart], by simp [apart],
    ⟨aPresent, by simp [apart], by simp [apart, leftEq], by simp [apart], by simp [apart],
      t1Linked.congr ?_, t2Linked.moved (by grind) ?_⟩,
    bPresent, by simp [apart], by simp [apart], by simp [apart, rightEq], by simp [apart],
    t3Linked.moved (by grind) ?_, t4Linked.congr ?_⟩
  · intro id member
    have idApart : id ≠ a ∧ id ≠ y ∧ id ≠ b ∧ id ∉ t2.inorder ∧ id ∉ t3.inorder := by grind
    simp [idApart]
  · intro id member
    have idApart : id ≠ a ∧ id ≠ y ∧ id ≠ b ∧ id ∉ t3.inorder := by grind
    have idPresent := t2Linked.ne_zero id member
    have idRoot := (rootId_ne idPresent idApart.2.2.2).symm
    simp [idApart, idRoot, Arr.setParentIf_apply _ idPresent]
  · intro id member
    have idApart : id ≠ a ∧ id ≠ y ∧ id ≠ b ∧ id ∉ t2.inorder := by grind
    have idPresent := t3Linked.ne_zero id member
    have idRoot := (rootId_ne idPresent idApart.2.2.2).symm
    simp [idApart, idRoot, Arr.setParentIf_apply _ idPresent]
  · intro id member
    have idApart : id ≠ a ∧ id ≠ y ∧ id ≠ b ∧ id ∉ t2.inorder ∧ id ∉ t3.inorder := by grind
    simp [idApart]

end Arranged

theorem avlRotateRightLeft_rotated {arr : Arr} {x y z : Nat} {t1 t2 t3 t4 : BinaryTree Nat}
    (unique : (t1.inorder ++ x :: ((t2.inorder ++ y :: t3.inorder) ++ z :: t4.inorder)).Nodup)
    (present : x ≠ 0) (leftEq : (arr x).leftId = rootId t1)
    (t1Linked : Linked arr x t1) (zLinked : Linked arr x (.node z (.node y t2 t3) t4))
    (outer : t4.height = t1.height)
    (inner : max t2.height t3.height = t1.height)
    (close : t2.height ≤ t3.height + 1 ∧ t3.height ≤ t2.height + 1) (parent : Nat) :
    Rotated arr (avlRotateRightLeft arr x z) parent
      (.node y (.node x t1 t2) (.node z t3 t4)) := by
  obtain ⟨zPresent, -, zLeft, zRight, zBalance, yLinked, t4Linked⟩ := zLinked
  obtain ⟨yPresent, -, yLeft, yRight, yBalance, t2Linked, t3Linked⟩ := yLinked
  have unique' : (BinaryTree.node y (.node x t1 t2) (.node z t3 t4)).inorder.Nodup := by
    simpa using unique
  have shape : avlRotateRightLeft arr x z = (arranged arr x y z t1 t2 t3 t4, y) := by
    have apart := arranged_apart unique'
    have yKept : ((((((((arr.setLeft y x).setParent x y).setRight x (rootId t2)).setParentIf
        (rootId t2) x).setRight y z).setParent z y).setLeft z (rootId t3)).setParentIf (rootId t3)
        z y).balance = (t3.height : Int) - t2.height := by
      simp [apart, yBalance]
    unfold avlRotateRightLeft arranged
    dsimp only
    rw [show (arr z).leftId = y from zLeft, if_neg yPresent, yLeft, yRight, yKept]
    clear unique unique' t1Linked t2Linked t3Linked t4Linked apart
    split
    · congr 4 <;> omega
    · split <;> congr 4 <;> omega
  rw [shape]
  refine ⟨rfl, ?_, fun id => arranged_frame, ?_⟩
  · exact arranged_linked unique' present yPresent zPresent leftEq zRight t1Linked t2Linked
      t3Linked t4Linked parent
  · intro id
    rw [← shape]
    exact avlRotateRightLeft_data arr x z id

theorem avlRotateLeftRight_rotated {arr : Arr} {x y z : Nat} {t1 t2 t3 t4 : BinaryTree Nat}
    (unique : ((t1.inorder ++ z :: (t2.inorder ++ y :: t3.inorder)) ++ x :: t4.inorder).Nodup)
    (present : x ≠ 0) (rightEq : (arr x).rightId = rootId t4)
    (zLinked : Linked arr x (.node z t1 (.node y t2 t3))) (t4Linked : Linked arr x t4)
    (outer : t1.height = t4.height)
    (inner : max t2.height t3.height = t4.height)
    (close : t2.height ≤ t3.height + 1 ∧ t3.height ≤ t2.height + 1) (parent : Nat) :
    Rotated arr (avlRotateLeftRight arr x z) parent
      (.node y (.node z t1 t2) (.node x t3 t4)) := by
  obtain ⟨zPresent, -, zLeft, zRight, zBalance, t1Linked, yLinked⟩ := zLinked
  obtain ⟨yPresent, -, yLeft, yRight, yBalance, t2Linked, t3Linked⟩ := yLinked
  have unique' : (BinaryTree.node y (.node z t1 t2) (.node x t3 t4)).inorder.Nodup := by
    simpa using unique
  have shape : avlRotateLeftRight arr x z = (arranged arr z y x t1 t2 t3 t4, y) := by
    have apart := arranged_apart unique'
    have yKept : ((((((((arr.setLeft y z).setParent z y).setRight z (rootId t2)).setParentIf
        (rootId t2) z).setRight y x).setParent x y).setLeft x (rootId t3)).setParentIf (rootId t3)
        x y).balance = (t3.height : Int) - t2.height := by
      simp [apart, yBalance]
    unfold avlRotateLeftRight arranged
    dsimp only
    rw [show (arr z).rightId = y from zRight, if_neg yPresent, yLeft, yRight, yKept]
    obtain ⟨zy, -, zx, -, yx, -⟩ := apart
    rw [Arr.setBalance_comm _ yx, Arr.setBalance_comm _ zx, Arr.setBalance_comm _ zy]
    clear unique unique' t1Linked t2Linked t3Linked t4Linked zy zx yx
    split
    · congr 4 <;> omega
    · split <;> congr 4 <;> omega
  rw [shape]
  refine ⟨rfl, ?_, fun id => arranged_frame, ?_⟩
  · exact arranged_linked unique' zPresent yPresent present zLeft rightEq t1Linked t2Linked
      t3Linked t4Linked parent
  · intro id
    rw [← shape]
    exact avlRotateLeftRight_data arr x z id

end Ghost.Avl
