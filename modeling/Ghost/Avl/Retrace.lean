import Ghost.Avl.Exits
import Ghost.Avl.Rotations

/-!
# Retraces

The rebalancing loops of insertion and deletion climb from a changed subtree
to the root. Both are verified by induction on the context of that subtree:
the subtree is already linked and balanced, while the context still stores the
balances of the subtree's old height.
-/

set_option autoImplicit false

namespace Ghost.Avl

open Lib

/-- The slot of the owner that the hole occupies. -/
def fromLeft : Context Nat → Bool
  | ⟨.left, _, _⟩ :: _ => true
  | _ => false

/-- A whole tree linked at the root that differs from the old array only inside
its own nodes and in no data. -/
structure Rebalanced (arr arr' : Arr) (root' : Nat) (ids : List Nat)
    (tree : BinaryTree Nat) : Prop where
  root : root' = rootId tree
  linked : Linked arr' 0 tree
  balanced : tree.Balanced
  inorder : tree.inorder = ids
  frame : ∀ id ∉ ids, arr' id = arr id
  data : ∀ id, (arr' id).data = (arr id).data

theorem mem_plug_iff {context : Context Nat} {tree : BinaryTree Nat} {id : Nat} :
    id ∈ (context.plug tree).inorder ↔ id ∈ tree.inorder ∨ id ∈ contextIds context := by
  simp only [Context.inorder_plug, List.mem_append, contextIds]
  tauto

theorem plug_nodup_iff {context : Context Nat} {tree : BinaryTree Nat} :
    (context.plug tree).inorder.Nodup ↔ tree.inorder.Nodup ∧ (contextIds context).Nodup ∧
      ∀ id ∈ tree.inorder, id ∉ contextIds context := by
  simp only [Context.inorder_plug, contextIds, List.nodup_append, List.mem_append]
  grind

theorem mem_contextIds_cons {frame : Frame Nat} {rest : Context Nat} {id : Nat} :
    id ∈ contextIds (frame :: rest) ↔
      id = frame.value ∨ id ∈ frame.sibling.inorder ∨ id ∈ contextIds rest := by
  rcases frame with ⟨side, value, sibling⟩
  cases side <;> simp [contextIds, Context.before, Context.after] <;> tauto

/-- The left slot of the owner tells on which side the hole is. -/
theorem LinkedAt.leftId_eq_iff {arr : Arr} {root x height : Nat} {context : Context Nat}
    (around : LinkedAt arr root x height context) (nonempty : context ≠ [])
    (present : x ≠ 0) (outside : x ∉ contextIds context) :
    decide ((arr (parentId context)).leftId = x) = fromLeft context := by
  cases context with
  | nil => exact absurd rfl nonempty
  | cons frame rest =>
      rcases frame with ⟨side, id, sibling⟩
      rw [mem_contextIds_cons] at outside
      cases side with
      | left => simp [fromLeft, around.2.2.1]
      | right =>
          have different : rootId sibling ≠ x :=
            rootId_ne present fun member => outside (.inr (.inl member))
          simp [fromLeft, around.2.2.1, different]

/-- Store another identifier in the slot of the hole. -/
def fillSlot (arr : Arr) (context : Context Nat) (id : Nat) : Arr :=
  if fromLeft context then arr.setLeft (parentId context) id
  else arr.setRight (parentId context) id

@[simp] theorem fillSlot_data (arr : Arr) (context : Context Nat) (value id : Nat) :
    (fillSlot arr context value id).data = (arr id).data := by
  unfold fillSlot
  split <;> simp

/-- Changing the content of the hole's slot, for a hole below some node. -/
theorem LinkedAt.fillSlot {arr : Arr} {root hole height : Nat} {context : Context Nat}
    (around : LinkedAt arr root hole height context) (nonempty : context ≠ [])
    (unique : (contextIds context).Nodup) (hole' : Nat) :
    LinkedAt (fillSlot arr context hole') root hole' height context ∧
      (∀ id ∉ contextIds context, fillSlot arr context hole' id = arr id) ∧
      ∀ id, (fillSlot arr context hole' id).data = (arr id).data := by
  cases context with
  | nil => exact absurd rfl nonempty
  | cons frame rest =>
      rcases frame with ⟨side, id, sibling⟩
      simp only [mem_contextIds_cons, not_or]
      have idApart : id ∉ sibling.inorder ∧ id ∉ contextIds rest := by
        cases side <;> simp only [contextIds, Context.before, Context.after] at unique ⊢ <;> grind
      cases side with
      | left =>
          obtain ⟨idPresent, parentEq, -, rightEq, balanceEq, sibLinked, restLinked⟩ := around
          rw [show Avl.fillSlot arr (⟨.left, id, sibling⟩ :: rest) hole' = arr.setLeft id hole'
            from rfl]
          simp only [linkedAt_left, Arr.setLeft_self, Arr.setLeft_data, implies_true, and_true]
          refine ⟨⟨idPresent, parentEq, trivial, rightEq, balanceEq, sibLinked.congr ?_,
            restLinked.congr ?_⟩, ?_⟩
          · exact fun other member => Arr.setLeft_of_ne _ _ fun same => idApart.1 (same ▸ member)
          · exact fun other member => Arr.setLeft_of_ne _ _ fun same => idApart.2 (same ▸ member)
          · exact fun other apart => Arr.setLeft_of_ne _ _ apart.1
      | right =>
          obtain ⟨idPresent, parentEq, leftEq, -, balanceEq, sibLinked, restLinked⟩ := around
          rw [show Avl.fillSlot arr (⟨.right, id, sibling⟩ :: rest) hole' = arr.setRight id hole'
            from rfl]
          simp only [linkedAt_right, Arr.setRight_self, Arr.setRight_data, implies_true, and_true]
          refine ⟨⟨idPresent, parentEq, leftEq, trivial, balanceEq, sibLinked.congr ?_,
            restLinked.congr ?_⟩, ?_⟩
          · exact fun other member => Arr.setRight_of_ne _ _ fun same => idApart.1 (same ▸ member)
          · exact fun other member => Arr.setRight_of_ne _ _ fun same => idApart.2 (same ▸ member)
          · exact fun other apart => Arr.setRight_of_ne _ _ apart.1

/-- Reconnecting finds the slot that held `x`, or the root field. -/
theorem LinkedAt.reconnect {arr : Arr} {root x height : Nat} {context : Context Nat}
    (around : LinkedAt arr root x height context) (unique : (contextIds context).Nodup)
    (present : x ≠ 0) (outside : x ∉ contextIds context) (str : Nat) :
    LinkedAt (reconnect arr root (parentId context) x str).1
        (reconnect arr root (parentId context) x str).2 str height context ∧
      (∀ id ∉ contextIds context,
        (reconnect arr root (parentId context) x str).1 id = arr id) ∧
      ∀ id, ((reconnect arr root (parentId context) x str).1 id).data = (arr id).data := by
  by_cases top : context = []
  · subst top
    simp [Avl.reconnect]
  · have side := around.leftId_eq_iff top present outside
    have filled : Avl.reconnect arr root (parentId context) x str =
        (Avl.fillSlot arr context str, root) := by
      unfold Avl.reconnect Avl.fillSlot
      rw [if_neg (around.parentId_ne_zero.not.mpr top), ← side]
      by_cases leftSlot : (arr (parentId context)).leftId = x <;> simp [leftSlot]
    rw [filled]
    exact around.fillSlot top unique str

/-- A rotation leaves the context of its subtree as it was. -/
theorem Rotated.around {arr : Arr} {rotated : Arr × Nat} {root x height : Nat}
    {rest : Context Nat} {tree : BinaryTree Nat}
    (turned : Rotated arr rotated (parentId rest) tree)
    (around : LinkedAt arr root x height rest) (unique : (rest.plug tree).inorder.Nodup)
    (member : x ∈ tree.inorder) :
    (∀ id ∉ tree.inorder, rotated.1.setParent rotated.2 (parentId rest) id = arr id) ∧
      LinkedAt (rotated.1.setParent rotated.2 (parentId rest)) root x height rest := by
  have treePresent : tree ≠ .nil := by rintro rfl; simp at member
  have rootIn : rotated.2 ∈ tree.inorder := turned.root ▸ BinaryTree.rootD_mem treePresent
  have kept : ∀ id ∉ tree.inorder,
      rotated.1.setParent rotated.2 (parentId rest) id = arr id := by
    intro id outside
    have different : id ≠ rotated.2 := fun same => outside (same ▸ rootIn)
    rw [Arr.setParent_of_ne _ _ different]
    exact turned.frame id outside
  exact ⟨kept, around.congr fun id inside =>
    kept id fun inTree => (plug_nodup_iff.mp unique).2.2 id inTree inside⟩

/-- A rotated subtree reconnected below the old parent of `x`. -/
theorem Rotated.reconnect {arr : Arr} {rotated : Arr × Nat} {root x height : Nat}
    {rest : Context Nat} {tree : BinaryTree Nat}
    (turned : Rotated arr rotated (parentId rest) tree)
    (around : LinkedAt arr root x height rest) (unique : (rest.plug tree).inorder.Nodup)
    (present : x ≠ 0) (member : x ∈ tree.inorder) {out : Arr × Nat}
    (connected : reconnect (rotated.1.setParent rotated.2 (parentId rest)) root (parentId rest) x
      rotated.2 = out) :
    Linked out.1 (parentId rest) tree ∧ LinkedAt out.1 out.2 (rootId tree) height rest ∧
      (∀ id ∉ (rest.plug tree).inorder, out.1 id = arr id) ∧
      ∀ id, (out.1 id).data = (arr id).data := by
  obtain ⟨-, restUnique, apart⟩ := plug_nodup_iff.mp unique
  obtain ⟨kept, around'⟩ := turned.around around unique member
  obtain ⟨linked, frame, data⟩ := around'.reconnect restUnique present
    (apart x member) rotated.2
  rw [connected] at linked frame data
  rw [turned.root] at linked
  refine ⟨turned.linked.congr fun id inTree => frame id (apart id inTree), linked, ?_, ?_⟩
  · intro id outside
    rw [mem_plug_iff, not_or] at outside
    rw [frame id outside.2, kept id outside.1]
  · intro id
    rw [data, Arr.setParent_data, turned.data]

/-- A finished retrace: the subtree and its context fit together. -/
theorem Rebalanced.of_plug {arr arr' : Arr} {root' : Nat} {context : Context Nat}
    {tree : BinaryTree Nat} {ids : List Nat} (linked : Linked arr' (parentId context) tree)
    (around : LinkedAt arr' root' (rootId tree) tree.height context)
    (balanced : tree.Balanced) (aroundBalanced : context.BalancedAt tree.height)
    (sameIds : (context.plug tree).inorder = ids)
    (frame : ∀ id ∉ ids, arr' id = arr id)
    (data : ∀ id, (arr' id).data = (arr id).data) :
    Rebalanced arr arr' root' ids (context.plug tree) := by
  obtain ⟨root, whole⟩ := linked_plug.mpr ⟨linked, around⟩
  exact ⟨root, whole, Context.balanced_plug.mpr ⟨balanced, aroundBalanced⟩, sameIds, frame, data⟩

private theorem Rebalanced.of_kept {arr arr₁ arr' : Arr} {root' : Nat} {ids : List Nat}
    {tree : BinaryTree Nat} (rebalanced : Rebalanced arr₁ arr' root' ids tree)
    (frame : ∀ id ∉ ids, arr₁ id = arr id) (data : ∀ id, (arr₁ id).data = (arr id).data) :
    Rebalanced arr arr' root' ids tree :=
  { rebalanced with
    frame := fun id outside => (rebalanced.frame id outside).trans (frame id outside)
    data := fun id => (rebalanced.data id).trans (data id) }

/-- The node and side above a subtree, with only its balance rewritten. -/
theorem linked_attach {arr : Arr} {root height : Nat} {frame : Frame Nat} {rest : Context Nat}
    {tree : BinaryTree Nat} (balance : Int)
    (linked : Linked arr frame.value tree)
    (around : LinkedAt arr root (rootId tree) height (frame :: rest))
    (unique : (Context.plug (frame :: rest) tree).inorder.Nodup)
    (exact : balance = match frame.side with
      | .left => (frame.sibling.height : Int) - tree.height
      | .right => (tree.height : Int) - frame.sibling.height) :
    Linked (arr.setBalance frame.value balance) (parentId rest) (frame.attach tree) ∧
      LinkedAt (arr.setBalance frame.value balance) root frame.value
        (max height frame.sibling.height + 1) rest := by
  rcases frame with ⟨side, id, sibling⟩
  rw [Context.plug_cons] at unique
  obtain ⟨attachUnique, -, apart⟩ := plug_nodup_iff.mp unique
  cases side with
  | left =>
      obtain ⟨present, parentEq, leftEq, rightEq, -, sibLinked, restLinked⟩ := around
      simp only [Frame.attach, BinaryTree.inorder_node] at attachUnique apart
      have idApart : id ∉ tree.inorder ∧ id ∉ sibling.inorder := by grind
      refine ⟨?_, restLinked.congr fun other inside =>
        Arr.setBalance_of_ne _ _ fun (same : other = id) => apart id (by simp) (same ▸ inside)⟩
      simp only [Frame.attach, linked_node, Arr.setBalance_self]
      refine ⟨present, parentEq, leftEq, rightEq, exact, linked.congr ?_, sibLinked.congr ?_⟩
      · exact fun other member => Arr.setBalance_of_ne _ _ fun same => idApart.1 (same ▸ member)
      · exact fun other member => Arr.setBalance_of_ne _ _ fun same => idApart.2 (same ▸ member)
  | right =>
      obtain ⟨present, parentEq, leftEq, rightEq, -, sibLinked, restLinked⟩ := around
      simp only [Frame.attach, BinaryTree.inorder_node] at attachUnique apart
      have idApart : id ∉ tree.inorder ∧ id ∉ sibling.inorder := by grind
      refine ⟨?_, restLinked.congr fun other inside =>
        Arr.setBalance_of_ne _ _ fun (same : other = id) => apart id (by simp) (same ▸ inside)⟩
      simp only [Frame.attach, linked_node, Arr.setBalance_self]
      refine ⟨present, parentEq, leftEq, rightEq, exact, sibLinked.congr ?_, linked.congr ?_⟩
      · exact fun other member => Arr.setBalance_of_ne _ _ fun same => idApart.2 (same ▸ member)
      · exact fun other member => Arr.setBalance_of_ne _ _ fun same => idApart.1 (same ▸ member)

/-- The rotation chosen at a node whose left subtree is two levels higher. It
keeps the order, restores balance, and keeps the height exactly when the left
child was level. -/
theorem rotate_leftHeavy {arr : Arr} {x z : Nat} {left right : BinaryTree Nat}
    (zEq : rootId left = z)
    (unique : (left.inorder ++ x :: right.inorder).Nodup) (present : x ≠ 0)
    (rightEq : (arr x).rightId = rootId right)
    (leftLinked : Linked arr x left) (rightLinked : Linked arr x right)
    (leftBalanced : left.Balanced) (rightBalanced : right.Balanced)
    (heavy : left.height = right.height + 2) (parent : Nat) :
    ∃ rotated tree, Checked.rotate arr x z true = .ok rotated ∧ Rotated arr rotated parent tree ∧
      tree.Balanced ∧ tree.inorder = left.inorder ++ x :: right.inorder ∧
      tree.height = if (arr z).balance = 0 then left.height + 1 else left.height := by
  cases left with
  | nil => simp at heavy
  | node root t1 t2 =>
      obtain rfl : root = z := zEq
      have zBalance : (arr root).balance = (t2.height : Int) - t1.height := leftLinked.2.2.2.2.1
      simp only [BinaryTree.height] at heavy
      simp only [BinaryTree.balanced_node] at leftBalanced
      simp only [BinaryTree.inorder_node] at unique
      simp only [BinaryTree.height]
      by_cases leaning : (arr root).balance ≤ 0
      · have turns : Checked.rotate arr x root true = .ok (avlRotateRight arr x root) := by
          simp [Checked.rotate, leaning]
        refine ⟨_, _, turns, avlRotateRight_rotated unique present rightEq leftLinked rightLinked
          (by omega) (by omega) parent, ?_, by simp, ?_⟩
        · simp only [BinaryTree.balanced_node, BinaryTree.height]
          refine ⟨by omega, by omega, leftBalanced.2.2.1, by omega, by omega,
            leftBalanced.2.2.2, rightBalanced⟩
        · simp only [BinaryTree.height]
          split <;> omega
      · cases t2 with
        | nil => simp only [BinaryTree.height] at zBalance; omega
        | node y t2 t3 =>
            have turns : Checked.rotate arr x root true = .ok (avlRotateLeftRight arr x root) := by
              have rightEq : (arr root).rightId = y := leftLinked.2.2.2.1
              have yPresent : y ≠ 0 := leftLinked.2.2.2.2.2.2.1
              simp [Checked.rotate, Checked.avlRotateLeftRight, leaning, rightEq, yPresent]
            simp only [BinaryTree.height, BinaryTree.balanced_node] at *
            refine ⟨_, _, turns, avlRotateLeftRight_rotated unique present rightEq leftLinked rightLinked
              (by omega) (by omega) (by omega) parent, ?_, by simp, ?_⟩
            · simp only [BinaryTree.balanced_node, BinaryTree.height]
              refine ⟨by omega, by omega, ⟨by omega, by omega, leftBalanced.2.2.1,
                leftBalanced.2.2.2.2.2.1⟩, by omega, by omega, leftBalanced.2.2.2.2.2.2,
                rightBalanced⟩
            · simp only [BinaryTree.height]
              split <;> omega

/-- The mirror image for a right subtree that is two levels higher. -/
theorem rotate_rightHeavy {arr : Arr} {x z : Nat} {left right : BinaryTree Nat}
    (zEq : rootId right = z)
    (unique : (left.inorder ++ x :: right.inorder).Nodup) (present : x ≠ 0)
    (leftEq : (arr x).leftId = rootId left)
    (leftLinked : Linked arr x left) (rightLinked : Linked arr x right)
    (leftBalanced : left.Balanced) (rightBalanced : right.Balanced)
    (heavy : right.height = left.height + 2) (parent : Nat) :
    ∃ rotated tree, Checked.rotate arr x z false = .ok rotated ∧ Rotated arr rotated parent tree ∧
      tree.Balanced ∧ tree.inorder = left.inorder ++ x :: right.inorder ∧
      tree.height = if (arr z).balance = 0 then right.height + 1 else right.height := by
  cases right with
  | nil => simp at heavy
  | node root t3 t4 =>
      obtain rfl : root = z := zEq
      have zBalance : (arr root).balance = (t4.height : Int) - t3.height := rightLinked.2.2.2.2.1
      simp only [BinaryTree.height] at heavy
      simp only [BinaryTree.balanced_node] at rightBalanced
      simp only [BinaryTree.inorder_node] at unique
      simp only [BinaryTree.height]
      by_cases leaning : (arr root).balance ≥ 0
      · have turns : Checked.rotate arr x root false = .ok (avlRotateLeft arr x root) := by
          simp [Checked.rotate, leaning]
        refine ⟨_, _, turns, avlRotateLeft_rotated unique present leftEq leftLinked rightLinked
          (by omega) (by omega) parent, ?_, by simp, ?_⟩
        · simp only [BinaryTree.balanced_node, BinaryTree.height]
          refine ⟨by omega, by omega, ⟨by omega, by omega, leftBalanced,
            rightBalanced.2.2.1⟩, rightBalanced.2.2.2⟩
        · simp only [BinaryTree.height]
          split <;> omega
      · cases t3 with
        | nil => simp only [BinaryTree.height] at zBalance; omega
        | node y t2 t3 =>
            have turns : Checked.rotate arr x root false = .ok (avlRotateRightLeft arr x root) := by
              have leftEq : (arr root).leftId = y := rightLinked.2.2.1
              have yPresent : y ≠ 0 := rightLinked.2.2.2.2.2.1.1
              simp [Checked.rotate, Checked.avlRotateRightLeft, leaning, leftEq, yPresent]
            simp only [BinaryTree.height, BinaryTree.balanced_node] at *
            refine ⟨_, _, turns, avlRotateRightLeft_rotated unique present leftEq leftLinked rightLinked
              (by omega) (by omega) (by omega) parent, ?_, by simp, ?_⟩
            · simp only [BinaryTree.balanced_node, BinaryTree.height]
              refine ⟨by omega, by omega, ⟨by omega, by omega, leftBalanced,
                rightBalanced.2.2.1.2.2.1⟩, by omega, by omega, rightBalanced.2.2.1.2.2.2,
                rightBalanced.2.2.2⟩
            · simp only [BinaryTree.height]
              split <;> omega

/-- One frame of an insertion retrace in which the growth is absorbed, either
by a balance that becomes level or by a rotation. -/
private theorem insertRetrace_absorbed {arr arr' : Arr} {root' : Nat} {frame : Frame Nat}
    {rest : Context Nat} {grown tree : BinaryTree Nat} {height : Nat}
    (linked : Linked arr' (parentId rest) tree)
    (around : LinkedAt arr' root' (rootId tree) (max height frame.sibling.height + 1) rest)
    (balanced : tree.Balanced)
    (aroundBalanced : rest.BalancedAt (max height frame.sibling.height + 1))
    (sameHeight : tree.height = max height frame.sibling.height + 1)
    (sameIds : tree.inorder = (frame.attach grown).inorder)
    (frameKept : ∀ id ∉ (rest.plug tree).inorder, arr' id = arr id)
    (data : ∀ id, (arr' id).data = (arr id).data) :
    ∃ out tree, (.ok (arr', root') : Except Exit (Arr × Nat)) = .ok out ∧
      Rebalanced arr out.1 out.2 (Context.plug (frame :: rest) grown).inorder tree ∧
      tree.height ≤ max (Context.heightAt height (frame :: rest))
        (grown.height + (frame :: rest).length) := by
  have ids : (rest.plug tree).inorder = (Context.plug (frame :: rest) grown).inorder := by
    rw [Context.plug_cons, Context.inorder_plug, Context.inorder_plug, sameIds]
  refine ⟨(arr', root'), rest.plug tree, rfl, .of_plug linked (sameHeight ▸ around) balanced
    (sameHeight ▸ aroundBalanced) ids (ids ▸ frameKept) data, ?_⟩
  rw [Context.height_plug, sameHeight, Context.heightAt_cons]
  exact Nat.le_max_left _ _

/-- What an insertion retrace has to deliver. -/
private def InsertRebalanced (arr : Arr) (outcome : Except Exit (Arr × Nat)) (ids : List Nat)
    (bound : Nat) : Prop :=
  ∃ out tree, outcome = .ok out ∧ Rebalanced arr out.1 out.2 ids tree ∧ tree.height ≤ bound

/-- What it delivers in the frames above one. -/
private def InsertAbove (fuel root : Nat) (rest : Context Nat) : Prop :=
  ∀ (arr : Arr) (grown : BinaryTree Nat) (height : Nat), (rest.plug grown).inorder.Nodup →
    grown.height = height + 1 → Linked arr (parentId rest) grown →
    LinkedAt arr root (rootId grown) height rest → grown.Balanced → rest.BalancedAt height →
    (height = 0 ∨ (arr (rootId grown)).balance ≠ 0) →
    InsertRebalanced arr (Checked.insertRetrace fuel arr root (parentId rest) (rootId grown))
      (rest.plug grown).inorder (max (rest.heightAt height) (grown.height + rest.length))

section InsertFrames

variable {fuel root x height : Nat} {rest : Context Nat} {arr : Arr} {side : Side}
  {grown sibling : BinaryTree Nat}

private theorem setBalance_kept (balance : Int) :
    ∀ id ∉ (Context.plug (⟨side, x, sibling⟩ :: rest) grown).inorder,
      arr.setBalance x balance id = arr id := by
  intro id apart
  refine Arr.setBalance_of_ne _ _ ?_
  rintro rfl
  exact apart (mem_plug_iff.mpr (.inr (mem_contextIds_cons.mpr (.inl rfl))))

private theorem attach_nodup
    (unique : (Context.plug (⟨side, x, sibling⟩ :: rest) grown).inorder.Nodup) :
    (Frame.attach ⟨side, x, sibling⟩ grown).inorder.Nodup :=
  (plug_nodup_iff.mp (show (Context.plug rest (Frame.attach ⟨side, x, sibling⟩ grown)).inorder.Nodup
    from unique)).1

/-- A frame that was level grows with its child. -/
private theorem insertRetrace_risen (above : InsertAbove fuel root rest) {balance : Int}
    (unique : (Context.plug (⟨side, x, sibling⟩ :: rest) grown).inorder.Nodup)
    (grew : grown.height = height + 1) (level : sibling.height = height)
    (linked : Linked (arr.setBalance x balance) (parentId rest)
      (Frame.attach ⟨side, x, sibling⟩ grown))
    (around : LinkedAt (arr.setBalance x balance) root x (max height sibling.height + 1) rest)
    (balanced : (Frame.attach ⟨side, x, sibling⟩ grown).Balanced)
    (restBalanced : rest.BalancedAt (max height sibling.height + 1)) (leans : balance ≠ 0) :
    InsertRebalanced arr
      (Checked.insertRetrace fuel (arr.setBalance x balance) root (parentId rest) x)
      (Context.plug (⟨side, x, sibling⟩ :: rest) grown).inorder
      (max (Context.heightAt height (⟨side, x, sibling⟩ :: rest))
        (grown.height + (⟨side, x, sibling⟩ :: rest : Context Nat).length)) := by
  have top : rootId (Frame.attach ⟨side, x, sibling⟩ grown) = x := by cases side <;> rfl
  have attached : (Frame.attach ⟨side, x, sibling⟩ grown).height = height + 1 + 1 := by
    cases side <;> simp only [Frame.attach, BinaryTree.height] <;> omega
  have higher := above (arr.setBalance x balance) (Frame.attach ⟨side, x, sibling⟩ grown)
    (height + 1) unique attached linked (by rw [top]; simpa [level] using around) balanced
    (by simpa [level] using restBalanced) (.inr (by rw [top]; simpa using leans))
  rw [top] at higher
  obtain ⟨out, tree, ended, rebalanced, bound⟩ := higher
  refine ⟨out, tree, ended, rebalanced.of_kept (setBalance_kept _) (by simp), bound.trans ?_⟩
  simp only [attached, Context.heightAt_cons, List.length_cons, level, grew, max_self]
  omega

private theorem insertRetrace_left (above : InsertAbove fuel root rest)
    (unique : (Context.plug (⟨.left, x, sibling⟩ :: rest) grown).inorder.Nodup)
    (grew : grown.height = height + 1) (linked : Linked arr x grown)
    (around : LinkedAt arr root (rootId grown) height (⟨.left, x, sibling⟩ :: rest))
    (balanced : grown.Balanced)
    (aroundBalanced : Context.BalancedAt height (⟨.left, x, sibling⟩ :: rest))
    (leaning : height = 0 ∨ (arr (rootId grown)).balance ≠ 0) :
    InsertRebalanced arr (Checked.insertRetrace (fuel + 1) arr root x (rootId grown))
      (Context.plug (⟨.left, x, sibling⟩ :: rest) grown).inorder
      (max (Context.heightAt height (⟨.left, x, sibling⟩ :: rest))
        (grown.height + (⟨.left, x, sibling⟩ :: rest : Context Nat).length)) := by
  obtain ⟨close, close', sibBalanced, restBalanced⟩ := aroundBalanced
  simp only at close close' sibBalanced
  have balanceEq : (arr x).balance = (sibling.height : Int) - height := around.2.2.2.2.1
  have leftEq : (arr x).leftId = rootId grown := around.2.2.1
  simp only [Checked.insertRetrace, if_neg around.1, leftEq, if_true, true_and, not_true,
    false_and, or_false, decide_true]
  by_cases level : sibling.height = height
  · obtain ⟨linked', around'⟩ := linked_attach (-1) linked around unique (by simp only; omega)
    rw [if_pos (by omega), Arr.setBalance_self, around.2.1]
    exact insertRetrace_risen above unique grew level linked' around'
      ⟨by omega, by omega, balanced, sibBalanced⟩ restBalanced (by decide)
  · rw [if_neg (by omega)]
    by_cases opposite : (arr x).balance > 0
    · obtain ⟨linked', around'⟩ := linked_attach 0 linked around unique (by simp only; omega)
      rw [if_pos opposite]
      exact insertRetrace_absorbed linked' around'
        ⟨by omega, by omega, balanced, sibBalanced⟩ restBalanced
        (by simp only [Frame.attach, BinaryTree.height]; omega) rfl (setBalance_kept _) (by simp)
    · rw [if_neg opposite, around.2.1]
      obtain ⟨rotated, tree, turns, turned, treeBalanced, treeIds, treeHeight⟩ :=
        rotate_leftHeavy rfl (attach_nodup unique) around.1 around.2.2.2.1 linked
          around.2.2.2.2.2.1 balanced sibBalanced (by omega) (parentId rest)
      rw [if_neg (by omega)] at treeHeight
      rw [turns]
      obtain ⟨linked', around', frameKept, data⟩ := turned.reconnect
        around.2.2.2.2.2.2 (by rw [Context.inorder_plug, treeIds,
          ← BinaryTree.inorder_node, ← Context.inorder_plug]; exact unique)
        around.1 (by simp [treeIds]) rfl
      exact insertRetrace_absorbed linked' around' treeBalanced restBalanced
        (by simp only; omega) treeIds frameKept data

private theorem insertRetrace_right (above : InsertAbove fuel root rest)
    (unique : (Context.plug (⟨.right, x, sibling⟩ :: rest) grown).inorder.Nodup)
    (grew : grown.height = height + 1) (linked : Linked arr x grown)
    (around : LinkedAt arr root (rootId grown) height (⟨.right, x, sibling⟩ :: rest))
    (notLeft : (arr x).leftId ≠ rootId grown) (balanced : grown.Balanced)
    (aroundBalanced : Context.BalancedAt height (⟨.right, x, sibling⟩ :: rest))
    (leaning : height = 0 ∨ (arr (rootId grown)).balance ≠ 0) :
    InsertRebalanced arr (Checked.insertRetrace (fuel + 1) arr root x (rootId grown))
      (Context.plug (⟨.right, x, sibling⟩ :: rest) grown).inorder
      (max (Context.heightAt height (⟨.right, x, sibling⟩ :: rest))
        (grown.height + (⟨.right, x, sibling⟩ :: rest : Context Nat).length)) := by
  obtain ⟨close, close', sibBalanced, restBalanced⟩ := aroundBalanced
  simp only at close close' sibBalanced
  have balanceEq : (arr x).balance = (height : Int) - sibling.height := around.2.2.2.2.1
  simp only [Checked.insertRetrace, if_neg around.1, notLeft, if_false, false_and,
    not_false_eq_true, true_and, false_or, decide_false]
  by_cases level : sibling.height = height
  · obtain ⟨linked', around'⟩ := linked_attach 1 linked around unique (by simp only; omega)
    rw [if_pos (by omega), Arr.setBalance_self, around.2.1]
    exact insertRetrace_risen above unique grew level linked' around'
      ⟨by omega, by omega, sibBalanced, balanced⟩ restBalanced (by decide)
  · rw [if_neg (by omega)]
    by_cases opposite : (arr x).balance < 0
    · obtain ⟨linked', around'⟩ := linked_attach 0 linked around unique (by simp only; omega)
      rw [if_pos opposite]
      exact insertRetrace_absorbed linked' around'
        ⟨by omega, by omega, sibBalanced, balanced⟩ restBalanced
        (by simp only [Frame.attach, BinaryTree.height]; omega) rfl (setBalance_kept _) (by simp)
    · rw [if_neg opposite, around.2.1]
      obtain ⟨rotated, tree, turns, turned, treeBalanced, treeIds, treeHeight⟩ :=
        rotate_rightHeavy rfl (attach_nodup unique) around.1 around.2.2.1
          around.2.2.2.2.2.1 linked sibBalanced balanced (by omega) (parentId rest)
      rw [if_neg (by omega)] at treeHeight
      rw [turns]
      obtain ⟨linked', around', frameKept, data⟩ := turned.reconnect
        around.2.2.2.2.2.2 (by rw [Context.inorder_plug, treeIds,
          ← BinaryTree.inorder_node, ← Context.inorder_plug]; exact unique)
        around.1 (by simp [treeIds]) rfl
      exact insertRetrace_absorbed linked' around' treeBalanced restBalanced
        (by simp only; omega) treeIds frameKept data

end InsertFrames

/-- The loop of `avl_tree_insert` ends before its bound and restores a balanced tree
with the same order. The tree grows only when no node on the path absorbs, and then
its height is the length of the path. -/
theorem insertRetrace_rebalanced {fuel : Nat} {context : Context Nat} {arr : Arr} {root : Nat}
    {grown : BinaryTree Nat} {height : Nat} (enough : context.length < fuel)
    (unique : (context.plug grown).inorder.Nodup) (grew : grown.height = height + 1)
    (linked : Linked arr (parentId context) grown)
    (around : LinkedAt arr root (rootId grown) height context)
    (balanced : grown.Balanced) (aroundBalanced : context.BalancedAt height)
    (leaning : height = 0 ∨ (arr (rootId grown)).balance ≠ 0) :
    ∃ out tree,
      Checked.insertRetrace fuel arr root (parentId context) (rootId grown) = .ok out ∧
      Rebalanced arr out.1 out.2 (context.plug grown).inorder tree ∧
      tree.height ≤ max (context.heightAt height) (grown.height + context.length) := by
  induction context generalizing fuel arr grown height with
  | nil =>
      have done : Checked.insertRetrace fuel arr root 0 (rootId grown) = .ok (arr, root) := by
        cases fuel with
        | zero => simp at enough
        | succ fuel => rfl
      refine ⟨(arr, root), grown, done, .of_plug linked ?_ balanced trivial rfl (fun _ _ => rfl)
        fun _ => rfl, by simp⟩
      exact around
  | cons frame rest ih =>
      cases fuel with
      | zero => simp at enough
      | succ fuel =>
          have above : InsertAbove fuel root rest := by
            intro arr' grown' height' unique' grew' linked' around' balanced' restBalanced leaning'
            exact ih (by simpa using enough) unique' grew' linked' around' balanced' restBalanced
              leaning'
          have grownPresent : grown ≠ .nil := by
            rintro rfl
            simp at grew
          have topIn : rootId grown ∈ grown.inorder := BinaryTree.rootD_mem grownPresent
          have leftTest := around.leftId_eq_iff (by simp) (linked.ne_zero _ topIn)
            ((plug_nodup_iff.mp unique).2.2 _ topIn)
          obtain ⟨side, x, sibling⟩ := frame
          cases side with
          | left =>
              exact insertRetrace_left above unique grew linked around balanced aroundBalanced leaning
          | right =>
              exact insertRetrace_right above unique grew linked around (of_decide_eq_false leftTest)
                balanced aroundBalanced leaning

/-- What a deletion retrace has to deliver: it ends without a defensive exit in
a balanced tree of the given order that is no higher than before. -/
def DeleteRebalanced (arr : Arr) (outcome : Except Exit (Arr × Nat)) (ids : List Nat)
    (height : Nat) : Prop :=
  ∃ arr' root' tree, outcome = .ok (arr', root') ∧ Rebalanced arr arr' root' ids tree ∧
    tree.height ≤ height

/-- One frame of a deletion retrace in which the loss is absorbed. -/
private theorem deleteRetrace_absorbed {arr arr' : Arr} {root' : Nat}
    {rest : Context Nat} {tree : BinaryTree Nat} {height : Nat} {ids : List Nat}
    (linked : Linked arr' (parentId rest) tree)
    (around : LinkedAt arr' root' (rootId tree) height rest)
    (balanced : tree.Balanced) (aroundBalanced : rest.BalancedAt height)
    (sameHeight : tree.height = height) (sameIds : (Context.plug rest tree).inorder = ids)
    (frameKept : ∀ id ∉ ids, arr' id = arr id)
    (data : ∀ id, (arr' id).data = (arr id).data) :
    DeleteRebalanced arr (.ok (arr', root')) ids (rest.heightAt height) :=
  ⟨arr', root', _, rfl, .of_plug linked (sameHeight ▸ around) balanced
    (sameHeight ▸ aroundBalanced) sameIds frameKept data,
    by rw [Context.height_plug, sameHeight]⟩

/-- One frame of a deletion retrace that passes the loss on, or finishes when the
frame was the root. -/
private theorem deleteRetrace_passed {arr arr' : Arr} {root' : Nat}
    {rest : Context Nat} {tree : BinaryTree Nat} {ids : List Nat}
    {outcome : Except Exit (Arr × Nat)}
    (linked : Linked arr' (parentId rest) tree)
    (around : LinkedAt arr' root' (rootId tree) (tree.height + 1) rest)
    (balanced : tree.Balanced) (sameIds : (Context.plug rest tree).inorder = ids)
    (frameKept : ∀ id ∉ ids, arr' id = arr id)
    (data : ∀ id, (arr' id).data = (arr id).data)
    (atRoot : rest = [] → outcome = .ok (arr', root'))
    (above : rest ≠ [] → DeleteRebalanced arr' outcome (Context.plug rest tree).inorder
      (rest.heightAt (tree.height + 1))) :
    DeleteRebalanced arr outcome ids (rest.heightAt (tree.height + 1)) := by
  by_cases finished : rest = []
  · subst finished
    refine ⟨arr', root', tree, atRoot rfl, ?_, by simp⟩
    exact .of_plug linked around balanced trivial sameIds frameKept data
  · obtain ⟨arr₂, root₂, tree₂, ended, rebalanced, bound⟩ := above finished
    rw [sameIds] at rebalanced
    exact ⟨arr₂, root₂, tree₂, ended, rebalanced.of_kept frameKept data, bound⟩

/-- What a deletion retrace delivers in the frames above one. -/
private def DeleteAbove (fuel : Nat) (rest : Context Nat) : Prop :=
  ∀ (arr : Arr) (root : Nat) (shrunk : BinaryTree Nat), (rest.plug shrunk).inorder.Nodup →
    Linked arr (parentId rest) shrunk →
    LinkedAt arr root (rootId shrunk) (shrunk.height + 1) rest →
    shrunk.Balanced → rest.BalancedAt (shrunk.height + 1) →
    DeleteRebalanced arr (Checked.deleteRetrace fuel arr root (parentId rest) (fromLeft rest))
      (rest.plug shrunk).inorder (rest.heightAt (shrunk.height + 1))

section DeleteFrames

variable {fuel root x height : Nat} {rest : Context Nat} {arr : Arr} {side : Side}
  {shrunk sibling : BinaryTree Nat}

/-- One frame of a deletion retrace that rotates. The rotation absorbs the loss
exactly when it keeps the height. -/
private theorem deleteRetrace_rotated {rotated : Arr × Nat} {tree : BinaryTree Nat} {absorbed : Bool}
    (above : DeleteAbove fuel rest) (turned : Rotated arr rotated (parentId rest) tree)
    (around : LinkedAt arr root x height rest)
    (unique : (Context.plug rest tree).inorder.Nodup)
    (present : x ≠ 0) (member : x ∈ tree.inorder) (balanced : tree.Balanced)
    (restBalanced : rest.BalancedAt height)
    (keeps : absorbed = true → tree.height = height)
    (loses : absorbed = false → tree.height + 1 = height) :
    DeleteRebalanced arr
      (let turned := rotated.1.setParent rotated.2 (parentId rest)
       let out := reconnect turned root (parentId rest) x rotated.2
       if parentId rest = 0 ∨ absorbed = true then .ok out
       else Checked.deleteRetrace fuel out.1 out.2 (parentId rest)
         (decide ((turned (parentId rest)).leftId = x)))
      (Context.plug rest tree).inorder (rest.heightAt height) := by
  obtain ⟨linked', around', frameKept, data⟩ := turned.reconnect around unique present member rfl
  have outside := (plug_nodup_iff.mp unique).2.2 x member
  dsimp only
  cases absorbed with
  | true =>
      rw [if_pos (.inr rfl)]
      exact deleteRetrace_absorbed linked' around' balanced restBalanced (keeps rfl) rfl
        frameKept data
  | false =>
      obtain rfl := loses rfl
      refine deleteRetrace_passed linked' around' balanced rfl frameKept data ?_ ?_
      · rintro rfl
        simp
      · intro more
        rw [if_neg (by simpa using fun none => more (around.parentId_ne_zero.mp none)),
          (turned.around around unique member).2.leftId_eq_iff more present outside]
        exact above _ _ tree unique linked' around' balanced restBalanced

/-- A frame that leaned towards its child becomes level, and is lower. -/
private theorem deleteRetrace_lowered (above : DeleteAbove fuel rest)
    (unique : (Context.plug (⟨side, x, sibling⟩ :: rest) shrunk).inorder.Nodup)
    (present : x ≠ 0)
    (linked : Linked (arr.setBalance x 0) (parentId rest) (Frame.attach ⟨side, x, sibling⟩ shrunk))
    (around : LinkedAt (arr.setBalance x 0) root x
      ((Frame.attach ⟨side, x, sibling⟩ shrunk).height + 1) rest)
    (balanced : (Frame.attach ⟨side, x, sibling⟩ shrunk).Balanced)
    (restBalanced : rest.BalancedAt ((Frame.attach ⟨side, x, sibling⟩ shrunk).height + 1)) :
    DeleteRebalanced arr
      (if parentId rest = 0 then .ok (arr.setBalance x 0, root)
      else Checked.deleteRetrace fuel (arr.setBalance x 0) root (parentId rest)
        (decide (((arr.setBalance x 0) (parentId rest)).leftId = x)))
      (Context.plug (⟨side, x, sibling⟩ :: rest) shrunk).inorder
      (rest.heightAt ((Frame.attach ⟨side, x, sibling⟩ shrunk).height + 1)) := by
  have top : rootId (Frame.attach ⟨side, x, sibling⟩ shrunk) = x := by cases side <;> rfl
  have unique' : (Context.plug rest (Frame.attach ⟨side, x, sibling⟩ shrunk)).inorder.Nodup := unique
  have inside : x ∈ (Frame.attach ⟨side, x, sibling⟩ shrunk).inorder := by
    cases side <;> simp [Frame.attach]
  have outside := (plug_nodup_iff.mp unique').2.2 x inside
  have around' : LinkedAt (arr.setBalance x 0) root (rootId (Frame.attach ⟨side, x, sibling⟩ shrunk))
      ((Frame.attach ⟨side, x, sibling⟩ shrunk).height + 1) rest := by rwa [top]
  refine deleteRetrace_passed linked around' balanced rfl (setBalance_kept _) (by simp) ?_ ?_
  · rintro rfl
    simp
  · intro more
    rw [if_neg (fun none => more (around.parentId_ne_zero.mp none)),
      around.leftId_eq_iff more present outside]
    exact above _ _ _ unique' linked around' balanced restBalanced

private theorem deleteRetrace_left (above : DeleteAbove fuel rest)
    (unique : (Context.plug (⟨.left, x, sibling⟩ :: rest) shrunk).inorder.Nodup)
    (linked : Linked arr x shrunk)
    (around : LinkedAt arr root (rootId shrunk) (shrunk.height + 1) (⟨.left, x, sibling⟩ :: rest))
    (balanced : shrunk.Balanced)
    (aroundBalanced : Context.BalancedAt (shrunk.height + 1) (⟨.left, x, sibling⟩ :: rest)) :
    DeleteRebalanced arr (Checked.deleteRetrace (fuel + 1) arr root x true)
      (Context.plug (⟨.left, x, sibling⟩ :: rest) shrunk).inorder
      (Context.heightAt (shrunk.height + 1) (⟨.left, x, sibling⟩ :: rest)) := by
  obtain ⟨close, close', sibBalanced, restBalanced⟩ := aroundBalanced
  simp only at close close' sibBalanced
  have balanceEq : (arr x).balance = (sibling.height : Int) - (shrunk.height + 1) := by
    simpa using around.2.2.2.2.1
  simp only [Checked.deleteRetrace, if_neg around.1, Context.heightAt_cons, if_true, true_and,
    not_true, false_and, or_false]
  by_cases level : sibling.height = shrunk.height + 1
  · obtain ⟨linked', around'⟩ := linked_attach 1 linked around unique (by simp only; omega)
    rw [if_pos (by omega)]
    exact deleteRetrace_absorbed linked' around'
      ⟨by omega, by omega, balanced, sibBalanced⟩ restBalanced
      (by simp only [Frame.attach, BinaryTree.height]; omega) rfl (setBalance_kept _) (by simp)
  · rw [if_neg (by omega)]
    simp only [around.2.1]
    by_cases opposite : (arr x).balance < 0
    · obtain ⟨linked', around'⟩ := linked_attach 0 linked around unique (by simp only; omega)
      have lost : max (shrunk.height + 1) sibling.height + 1 =
          (Frame.attach ⟨.left, x, sibling⟩ shrunk).height + 1 := by
        simp only [Frame.attach, BinaryTree.height]
        omega
      rw [if_pos opposite]
      simp only [lost] at around' restBalanced ⊢
      exact deleteRetrace_lowered above unique around.1 linked' around'
        ⟨by omega, by omega, balanced, sibBalanced⟩ restBalanced
    · have partner : (arr x).rightId ≠ 0 := by
        rw [around.2.2.2.1, ne_eq, around.2.2.2.2.2.1.rootId_eq_zero]
        rintro rfl
        simp at level balanceEq
        omega
      obtain ⟨rotated, tree, turns, turned, treeBalanced, treeIds, treeHeight⟩ :=
        rotate_rightHeavy around.2.2.2.1.symm (attach_nodup unique) around.1 around.2.2.1
          linked around.2.2.2.2.2.1 balanced sibBalanced (by omega) (parentId rest)
      have ids : (Context.plug rest tree).inorder =
          (Context.plug (⟨.left, x, sibling⟩ :: rest) shrunk).inorder := by
        rw [Context.plug_cons, Context.inorder_plug, Context.inorder_plug, treeIds]
        rfl
      rw [if_neg opposite, if_neg partner, ← ids]
      simp only [Bool.not_true, turns]
      refine deleteRetrace_rotated above turned around.2.2.2.2.2.2 (ids ▸ unique) around.1
        (by simp [treeIds]) treeBalanced restBalanced ?_ ?_
      · intro kept
        rw [treeHeight, if_pos (of_decide_eq_true kept)]
        omega
      · intro lost
        rw [treeHeight, if_neg (of_decide_eq_false lost)]
        omega

private theorem deleteRetrace_right (above : DeleteAbove fuel rest)
    (unique : (Context.plug (⟨.right, x, sibling⟩ :: rest) shrunk).inorder.Nodup)
    (linked : Linked arr x shrunk)
    (around : LinkedAt arr root (rootId shrunk) (shrunk.height + 1) (⟨.right, x, sibling⟩ :: rest))
    (balanced : shrunk.Balanced)
    (aroundBalanced : Context.BalancedAt (shrunk.height + 1) (⟨.right, x, sibling⟩ :: rest)) :
    DeleteRebalanced arr (Checked.deleteRetrace (fuel + 1) arr root x false)
      (Context.plug (⟨.right, x, sibling⟩ :: rest) shrunk).inorder
      (Context.heightAt (shrunk.height + 1) (⟨.right, x, sibling⟩ :: rest)) := by
  obtain ⟨close, close', sibBalanced, restBalanced⟩ := aroundBalanced
  simp only at close close' sibBalanced
  have balanceEq : (arr x).balance = (shrunk.height + 1 : Int) - sibling.height := by
    simpa using around.2.2.2.2.1
  simp only [Checked.deleteRetrace, if_neg around.1, Context.heightAt_cons, Bool.false_eq_true,
    if_false, false_and, not_false_eq_true, true_and, false_or]
  by_cases level : sibling.height = shrunk.height + 1
  · obtain ⟨linked', around'⟩ := linked_attach (-1) linked around unique (by simp only; omega)
    rw [if_pos (by omega)]
    exact deleteRetrace_absorbed linked' around'
      ⟨by omega, by omega, sibBalanced, balanced⟩ restBalanced
      (by simp only [Frame.attach, BinaryTree.height]; omega) rfl (setBalance_kept _) (by simp)
  · rw [if_neg (by omega)]
    simp only [around.2.1]
    by_cases opposite : (arr x).balance > 0
    · obtain ⟨linked', around'⟩ := linked_attach 0 linked around unique (by simp only; omega)
      have lost : max (shrunk.height + 1) sibling.height + 1 =
          (Frame.attach ⟨.right, x, sibling⟩ shrunk).height + 1 := by
        simp only [Frame.attach, BinaryTree.height]
        omega
      rw [if_pos opposite]
      simp only [lost] at around' restBalanced ⊢
      exact deleteRetrace_lowered above unique around.1 linked' around'
        ⟨by omega, by omega, sibBalanced, balanced⟩ restBalanced
    · have partner : (arr x).leftId ≠ 0 := by
        rw [around.2.2.1, ne_eq, around.2.2.2.2.2.1.rootId_eq_zero]
        rintro rfl
        simp at level balanceEq
        omega
      obtain ⟨rotated, tree, turns, turned, treeBalanced, treeIds, treeHeight⟩ :=
        rotate_leftHeavy around.2.2.1.symm (attach_nodup unique) around.1 around.2.2.2.1
          around.2.2.2.2.2.1 linked sibBalanced balanced (by omega) (parentId rest)
      have ids : (Context.plug rest tree).inorder =
          (Context.plug (⟨.right, x, sibling⟩ :: rest) shrunk).inorder := by
        rw [Context.plug_cons, Context.inorder_plug, Context.inorder_plug, treeIds]
        rfl
      rw [if_neg opposite, if_neg partner, ← ids]
      simp only [Bool.not_false, turns]
      refine deleteRetrace_rotated above turned around.2.2.2.2.2.2 (ids ▸ unique) around.1
        (by simp [treeIds]) treeBalanced restBalanced ?_ ?_
      · intro kept
        rw [treeHeight, if_pos (of_decide_eq_true kept)]
        omega
      · intro lost
        rw [treeHeight, if_neg (of_decide_eq_false lost)]
        omega

end DeleteFrames

/-- The loop of `avl_tree_delete` restores a balanced tree with the same order, never
misses a rotation partner, ends before its bound and never grows the tree. -/
theorem deleteRetrace_rebalanced {fuel : Nat} {context : Context Nat} {arr : Arr} {root : Nat}
    {shrunk : BinaryTree Nat} (enough : context.length < fuel)
    (unique : (context.plug shrunk).inorder.Nodup)
    (linked : Linked arr (parentId context) shrunk)
    (around : LinkedAt arr root (rootId shrunk) (shrunk.height + 1) context)
    (balanced : shrunk.Balanced) (aroundBalanced : context.BalancedAt (shrunk.height + 1)) :
    DeleteRebalanced arr
      (Checked.deleteRetrace fuel arr root (parentId context) (fromLeft context))
      (context.plug shrunk).inorder (context.heightAt (shrunk.height + 1)) := by
  induction context generalizing fuel arr root shrunk with
  | nil =>
      have done : Checked.deleteRetrace fuel arr root 0 (fromLeft []) = .ok (arr, root) := by
        cases fuel with
        | zero => simp at enough
        | succ fuel => rfl
      rw [show parentId [] = 0 from rfl, done]
      refine ⟨arr, root, shrunk, rfl, ?_, by simp⟩
      exact .of_plug linked around balanced trivial rfl (fun _ _ => rfl) fun _ => rfl
  | cons frame rest ih =>
      cases fuel with
      | zero => simp at enough
      | succ fuel =>
          have above : DeleteAbove fuel rest := by
            intro arr' root' shrunk' unique' linked' around' balanced' restBalanced
            exact ih (by simpa using enough) unique' linked' around' balanced' restBalanced
          obtain ⟨side, x, sibling⟩ := frame
          cases side with
          | left => exact deleteRetrace_left above unique linked around balanced aroundBalanced
          | right => exact deleteRetrace_right above unique linked around balanced aroundBalanced

end Ghost.Avl
