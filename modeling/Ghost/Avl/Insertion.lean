import Ghost.Avl.Representation

/-!
# Insertion

The search path of a key ends in an empty slot. If that slot is within reach of
the bounded descent, insertion links the node there and rebalances; otherwise
the node becomes the first orphan and the tree stays as it is.
-/

set_option autoImplicit false

namespace Ghost.Avl

open Lib

/-- The empty slot that the search path of a key leads to, ties to the right. -/
def searchSlot (arr : Arr) (key : Nat) : Context Nat → BinaryTree Nat → Context Nat
  | context, .nil => context
  | context, .node id left right =>
      if key < (arr id).key then searchSlot arr key (⟨.left, id, right⟩ :: context) left
      else searchSlot arr key (⟨.right, id, left⟩ :: context) right

/-- Number of nodes on the search path of a key. -/
def searchDepth (arr : Arr) (key : Nat) (tree : BinaryTree Nat) : Nat :=
  (searchSlot arr key [] tree).length

theorem searchSlot_plug (arr : Arr) (key : Nat) (context : Context Nat) (tree : BinaryTree Nat) :
    (searchSlot arr key context tree).plug .nil = context.plug tree := by
  induction tree generalizing context with
  | nil => rfl
  | node id left right leftIH rightIH =>
      simp only [searchSlot]
      split
      · rw [leftIH]; rfl
      · rw [rightIH]; rfl

private theorem searchSlot_length (arr : Arr) (key : Nat) (context : Context Nat)
    (tree : BinaryTree Nat) :
    (searchSlot arr key context tree).length = context.length + searchDepth arr key tree := by
  induction tree generalizing context with
  | nil => simp [searchSlot, searchDepth]
  | node id left right leftIH rightIH =>
      simp only [searchDepth, searchSlot]
      split
      · rw [leftIH, leftIH [_], List.length_cons]; simp; omega
      · rw [rightIH, rightIH [_], List.length_cons]; simp; omega

/-- Everything left of the slot is at most the key, everything right of it is
larger. -/
theorem searchSlot_ordered {arr : Arr} {key : Nat} {context : Context Nat}
    {tree : BinaryTree Nat}
    (sorted : tree.inorder.Pairwise fun left right => (arr left).key ≤ (arr right).key)
    (low : ∀ id ∈ context.before, (arr id).key ≤ key)
    (high : ∀ id ∈ context.after, key < (arr id).key) :
    (∀ id ∈ (searchSlot arr key context tree).before, (arr id).key ≤ key) ∧
      ∀ id ∈ (searchSlot arr key context tree).after, key < (arr id).key := by
  induction tree generalizing context with
  | nil => exact ⟨low, high⟩
  | node id left right leftIH rightIH =>
      simp only [BinaryTree.inorder_node, List.pairwise_append, List.pairwise_cons,
        List.mem_cons] at sorted
      obtain ⟨leftSorted, ⟨overRight, rightSorted⟩, overLeft⟩ := sorted
      simp only [searchSlot]
      split
      · next smaller =>
          refine leftIH leftSorted low ?_
          intro other member
          simp only [Context.after, List.mem_cons, List.mem_append] at member
          rcases member with rfl | inRight | later
          · exact smaller
          · exact smaller.trans_le (overRight other inRight)
          · exact high other later
      · next larger =>
          refine rightIH rightSorted ?_ high
          intro other member
          simp only [Context.before, List.mem_append, List.mem_singleton] at member
          rcases member with (earlier | inLeft) | rfl
          · exact low other earlier
          · exact (overLeft other inLeft id (.inl rfl)).trans (not_lt.mp larger)
          · exact not_lt.mp larger

/-- The bounded descent of `avl_tree_insert` reaches the slot exactly when the
search path has at most as many nodes as the loop has iterations. -/
theorem insertDescend_eq {arr : Arr} {key parent fuel : Nat} {context : Context Nat}
    {tree : BinaryTree Nat} (linked : Linked arr parent tree) :
    (searchDepth arr key tree ≤ fuel →
      insertDescend arr key fuel (rootId tree) (parentId context) (fromLeft context) =
        (0, parentId (searchSlot arr key context tree),
          fromLeft (searchSlot arr key context tree))) ∧
    (fuel < searchDepth arr key tree →
      (insertDescend arr key fuel (rootId tree) (parentId context) (fromLeft context)).1 ≠ 0) := by
  induction tree generalizing parent fuel context with
  | nil =>
      have done : insertDescend arr key fuel 0 (parentId context) (fromLeft context) =
          (0, parentId context, fromLeft context) := by cases fuel <;> rfl
      simp [searchSlot, searchDepth, done]
  | node id left right leftIH rightIH =>
      obtain ⟨present, -, leftEq, rightEq, -, leftLinked, rightLinked⟩ := linked
      have depth : searchDepth arr key (.node id left right) =
          (if key < (arr id).key then searchDepth arr key left
            else searchDepth arr key right) + 1 := by
        simp only [searchDepth, searchSlot]
        split <;> rw [searchSlot_length] <;> simp [searchDepth] <;> omega
      rw [depth]
      cases fuel with
      | zero => exact ⟨fun absurd => by omega, fun _ => present⟩
      | succ fuel =>
          rw [show rootId (.node id left right) = id from rfl]
          simp only [insertDescend, if_neg present, leftEq, rightEq, searchSlot]
          split
          · have inner := @leftIH id fuel (⟨.left, id, right⟩ :: context) leftLinked
            exact ⟨fun fits => inner.1 (by omega), fun deep => inner.2 (by omega)⟩
          · have inner := @rightIH id fuel (⟨.right, id, left⟩ :: context) rightLinked
            exact ⟨fun fits => inner.1 (by omega), fun deep => inner.2 (by omega)⟩

/-- The node joins the sequence after every key up to its own and before every
larger one. -/
def PlacedByKey (arr : Arr) (node : Nat) (ids ids' : List Nat) : Prop :=
  ∃ low high, ids = low ++ high ∧ ids' = low ++ node :: high ∧
    (∀ id ∈ low, (arr id).key ≤ (arr node).key) ∧ ∀ id ∈ high, (arr node).key < (arr id).key

/-- The search path of the node's key ends above the height limit. -/
def HasSlot (build : Build) (arr : Arr) (node : Nat) (tree : BinaryTree Nat) : Prop :=
  searchDepth arr (arr node).key tree < build.maxAvlHeight

/-- Insertion into a tree with orphans: placed by key where the search path has a
slot, otherwise pushed on the orphans. -/
def InsertedInto (build : Build) (arr : Arr) (node : Nat) (tree : BinaryTree Nat)
    (orphans : List Nat) (tree' : BinaryTree Nat) (orphans' : List Nat) : Prop :=
  HasSlot build arr node tree ∧ PlacedByKey arr node tree.inorder tree'.inorder ∧
      orphans' = orphans ∨
    ¬ HasSlot build arr node tree ∧ tree' = tree ∧ orphans' = node :: orphans

/-- The cell of a node about to be linked below `x`. -/
private def leafCell (arr : Arr) (node x : Nat) : Arr :=
  ((((arr.setBalance node 0).setRight node 0).setLeft node 0).setOrphan node false).setParent node x

private theorem leafCell_of_ne (arr : Arr) {node id : Nat} (x : Nat) (different : id ≠ node) :
    leafCell arr node x id = arr id := by
  simp [leafCell, different]

private theorem leafCell_self (arr : Arr) (node x : Nat) :
    leafCell arr node x node =
      { arr node with leftId := 0, rightId := 0, parentId := x, balance := 0, isOrphan := false } := by
  simp [leafCell]

private theorem searchSlot_inorder (arr : Arr) (key : Nat) (tree : BinaryTree Nat) :
    tree.inorder = (searchSlot arr key [] tree).before ++ (searchSlot arr key [] tree).after := by
  have plugged := searchSlot_plug arr key [] tree
  rw [Context.plug_nil] at plugged
  conv_lhs => rw [← plugged, Context.inorder_plug]
  simp

/-- Linking a leaf into the slot of its search path and retracing. -/
private theorem link_rebalanced {build : Build} {arr : Arr} {root node : Nat}
    {tree : BinaryTree Nat} {slot : Context Nat} (treeAt : TreeAt build arr root tree)
    (plugged : slot.plug .nil = tree) (nonempty : slot ≠ [])
    (present : node ≠ 0) (fresh : node ∉ tree.inorder) (fits : slot.length < build.maxAvlHeight) :
    ∃ out tree', Checked.insertRetrace build.maxAvlHeight
        (fillSlot (leafCell arr node (parentId slot)) slot node) root (parentId slot) node = .ok out ∧
      Rebalanced (fillSlot (leafCell arr node (parentId slot)) slot node) out.1 out.2
        (slot.before ++ node :: slot.after) tree' ∧
      tree'.height ≤ build.maxAvlHeight := by
  subst plugged
  obtain ⟨-, around⟩ := linked_plug.mp ⟨treeAt.root, treeAt.linked⟩
  obtain ⟨-, contextUnique, -⟩ := plug_nodup_iff.mp treeAt.unique
  rw [mem_plug_iff, not_or] at fresh
  have kept : ∀ id ∈ contextIds slot, leafCell arr node (parentId slot) id = arr id :=
    fun id inside => leafCell_of_ne arr _ fun same => fresh.2 (same ▸ inside)
  obtain ⟨filled, frame, -⟩ := (around.congr kept).fillSlot nonempty contextUnique node
  have ids : (slot.plug (.node node .nil .nil)).inorder = slot.before ++ node :: slot.after := by
    simp [Context.inorder_plug]
  have leafLinked : Linked (fillSlot (leafCell arr node (parentId slot)) slot node)
      (parentId slot) (.node node .nil .nil) := by
    simp only [linked_node, frame node fresh.2, leafCell_self]
    exact ⟨present, trivial, rfl, rfl, by simp, trivial, trivial⟩
  have unique : (slot.plug (.node node .nil .nil)).inorder.Nodup :=
    plug_nodup_iff.mpr ⟨by simp, contextUnique, by simpa [contextIds] using fresh.2⟩
  obtain ⟨out, tree', ended, rebalanced, bound⟩ := @insertRetrace_rebalanced build.maxAvlHeight _ _ _
    (.node node .nil .nil) 0 fits unique (by simp) leafLinked filled
    (by simp) (Context.balanced_plug.mp treeAt.balanced).2 (.inl rfl)
  refine ⟨out, tree', ended, ids ▸ rebalanced, bound.trans ?_⟩
  have oldHeight := treeAt.bounded
  rw [Context.height_plug] at oldHeight
  simp only [BinaryTree.height] at oldHeight ⊢
  omega

theorem cacheInsert_root (build : Build) (header : AvlTree) (node key : Nat) :
    (cacheInsert build header node key).root = header.root ∧
      (cacheInsert build header node key).firstOrphanId = header.firstOrphanId := by
  unfold cacheInsert
  split
  · dsimp only
    split <;> split <;> exact ⟨rfl, rfl⟩
  · exact ⟨rfl, rfl⟩

theorem cacheFirst_root (build : Build) (header : AvlTree) (node key : Nat) :
    (cacheFirst build header node key).root = header.root ∧
      (cacheFirst build header node key).firstOrphanId = header.firstOrphanId := by
  unfold cacheFirst
  split <;> exact ⟨rfl, rfl⟩

/-- Ties go to the right: the new node is the first exactly when its key is
below the old minimum, and the last exactly when it is not below the maximum. -/
private theorem CacheAt.cacheInsert {build : Build} {arr arr' : Arr} {header : AvlTree} {node : Nat}
    {tree tree' : BinaryTree Nat} (cache : CacheAt arr header tree) (present : tree ≠ .nil)
    (nonzero : ∀ id ∈ tree.inorder, id ≠ 0)
    (placed : PlacedByKey arr node tree.inorder tree'.inorder)
    (caching : build.avlCaching = true) (sameKeys : ∀ id, (arr' id).key = (arr id).key) :
    CacheAt arr' (cacheInsert build header node (arr node).key) tree' := by
  obtain ⟨low, high, old, new, lowLe, highLt⟩ := placed
  have minEq := cache.minId
  have maxEq := cache.maxId
  have minKeyEq := cache.minKey present
  have maxKeyEq := cache.maxKey present
  have someIds : low ++ high ≠ [] := old ▸ BinaryTree.inorder_eq_nil.not.mpr present
  rw [old] at minEq maxEq nonzero
  have isMin : (header.minId = 0 ∨ (arr node).key < header.minKey) ↔ low = [] := by
    cases low with
    | nil =>
        cases high with
        | nil => exact absurd rfl someIds
        | cons first high =>
            simp only [List.nil_append, List.headD_cons] at minEq
            simp only [iff_true, minKeyEq, minEq]
            exact .inr (highLt first (by simp))
    | cons first low =>
        simp only [List.cons_append, List.headD_cons] at minEq
        have le := lowLe first (by simp)
        have ne := nonzero first (by simp)
        simp only [minKeyEq, minEq, reduceCtorEq, iff_false]
        omega
  have isMax : (header.maxId = 0 ∨ (arr node).key ≥ header.maxKey) ↔ high = [] := by
    rcases List.eq_nil_or_concat' high with rfl | ⟨high, last, rfl⟩
    · rcases List.eq_nil_or_concat' low with rfl | ⟨low, last, rfl⟩
      · exact absurd rfl someIds
      · simp only [List.append_nil, List.getLastD_concat] at maxEq
        simp only [iff_true, maxKeyEq, maxEq]
        exact .inr (lowLe last (by simp))
    · rw [← List.append_assoc, List.getLastD_concat] at maxEq
      have lt := highLt last (by simp)
      have ne := nonzero last (by simp)
      simp only [maxKeyEq, maxEq, List.append_eq_nil_iff, List.cons_ne_nil, and_false, iff_false]
      omega
  have unfolded : Avl.cacheInsert build header node (arr node).key =
      { header with
        minId := if low = [] then node else header.minId
        minKey := if low = [] then (arr node).key else header.minKey
        maxId := if high = [] then node else header.maxId
        maxKey := if high = [] then (arr node).key else header.maxKey } := by
    simp only [Avl.cacheInsert, caching, if_true, isMin]
    split <;> simp only [isMax] <;> split <;> rfl
  rw [unfolded]
  refine ⟨?_, ?_, fun _ => ?_, fun _ => ?_⟩
  · cases low with
    | nil => simp [new]
    | cons first low => simpa [new] using minEq
  · rcases List.eq_nil_or_concat' high with rfl | ⟨high, last, rfl⟩
    · simp [new]
    · rw [← List.append_assoc, List.getLastD_concat] at maxEq
      simp only [List.append_eq_nil_iff, List.cons_ne_nil, and_false, if_false, maxEq, new,
        ← List.cons_append, ← List.append_assoc, List.getLastD_concat]
  · simp only [sameKeys]
    split
    · rfl
    · exact minKeyEq
  · simp only [sameKeys]
    split
    · rfl
    · exact maxKeyEq

private theorem CacheAt.cacheFirst {build : Build} {arr arr' : Arr} {header : AvlTree} {node : Nat}
    (caching : build.avlCaching = true) (sameKeys : ∀ id, (arr' id).key = (arr id).key) :
    CacheAt arr' (cacheFirst build header node (arr node).key) (.node node .nil .nil) := by
  simp only [Avl.cacheFirst, caching, if_true]
  exact ⟨rfl, rfl, fun _ => (sameKeys node).symm, fun _ => (sameKeys node).symm⟩

private theorem searchSlot_congr {arr arr' : Arr} (same : ∀ id, (arr' id).key = (arr id).key)
    (key : Nat) (context : Context Nat) (tree : BinaryTree Nat) :
    searchSlot arr' key context tree = searchSlot arr key context tree := by
  induction tree generalizing context with
  | nil => rfl
  | node id left right leftIH rightIH => simp only [searchSlot, same, leftIH, rightIH]

/-- The node's cell after the initial writes of `avl_tree_insert`. -/
private def cleared (arr : Arr) (node : Nat) : Arr :=
  (((arr.setBalance node 0).setRight node 0).setLeft node 0).setOrphan node false

private theorem cleared_data (arr : Arr) (node id : Nat) :
    (cleared arr node id).key = (arr id).key ∧
      (cleared arr node id).prevOrphanId = (arr id).prevOrphanId ∧
      (cleared arr node id).nextOrphanId = (arr id).nextOrphanId ∧
      (id ≠ node → cleared arr node id = arr id) := by
  by_cases same : id = node
  · subst same; simp [cleared]
  · simp [cleared, same]

/-- The descent either reaches the slot of the search path or stops short. -/
private theorem insertDescend_cleared {build : Build} {state : AvlState} {tree : BinaryTree Nat}
    {node : Nat} (treeAt : TreeAt build state.arr state.tree.root tree)
    (fresh : node ∉ tree.inorder) :
    (HasSlot build state.arr node tree →
      insertDescend (cleared state.arr node) (state.arr node).key (build.maxAvlHeight - 1)
        state.tree.root 0 false =
          (0, parentId (searchSlot state.arr (state.arr node).key [] tree),
            fromLeft (searchSlot state.arr (state.arr node).key [] tree))) ∧
    (¬ HasSlot build state.arr node tree →
      (insertDescend (cleared state.arr node) (state.arr node).key (build.maxAvlHeight - 1)
        state.tree.root 0 false).1 ≠ 0) := by
  have sameKeys := fun id => (cleared_data state.arr node id).1
  have linked : Linked (cleared state.arr node) 0 tree := treeAt.linked.congr fun id inside =>
    (cleared_data state.arr node id).2.2.2 fun same => fresh (same ▸ inside)
  have descend := @insertDescend_eq _ (state.arr node).key _ (build.maxAvlHeight - 1) [] _ linked
  have limit := build.height_pos
  simp only [searchDepth, searchSlot_congr sameKeys, ← treeAt.root] at descend
  simp only [HasSlot, searchDepth]
  exact ⟨fun fits => descend.1 (by omega), fun full => descend.2 (by omega)⟩

private theorem avlTreeInsert_found {build : Build} {state : AvlState} {node x : Nat} {left : Bool}
    (descended : insertDescend (cleared state.arr node) (state.arr node).key
      (build.maxAvlHeight - 1) state.tree.root 0 false = (0, x, left)) :
    avlTreeInsert build state node =
      if x = 0 then
        { arr := leafCell state.arr node x
          tree := cacheFirst build { state.tree with root := node } node (state.arr node).key }
      else
        let arr := if left then (leafCell state.arr node x).setLeft x node
          else (leafCell state.arr node x).setRight x node
        let out := insertRetrace build.maxAvlHeight arr state.tree.root x node
        { arr := out.1
          tree := cacheInsert build { state.tree with root := out.2 } node (state.arr node).key } := by
  rw [← (cleared_data state.arr node node).1] at descended ⊢
  unfold cleared at descended
  unfold avlTreeInsert
  simp only [descended, ne_eq, not_true, if_false]
  rfl

private theorem avlTreeInsert_full {build : Build} {state : AvlState} {node : Nat}
    (descended : (insertDescend (cleared state.arr node) (state.arr node).key
      (build.maxAvlHeight - 1) state.tree.root 0 false).1 ≠ 0) :
    avlTreeInsert build state node =
      insertOrphan { state with arr := (cleared state.arr node).setOrphan node true } node := by
  rw [← (cleared_data state.arr node node).1] at descended
  exact if_pos descended

private theorem leafCell_data (arr : Arr) (node x id : Nat) :
    (leafCell arr node x id).data =
      { arr id with isOrphan := if id = node then false else (arr id).isOrphan }.data := by
  by_cases same : id = node
  · rw [same, leafCell_self]; simp [AvlNode.data]
  · rw [leafCell_of_ne _ _ same, if_neg same]

/-- Order, flags and orphans after a node was linked without touching data. -/
private theorem Represents.of_linked {build : Build} {state : AvlState} {tree tree' : BinaryTree Nat}
    {orphans : List Nat} {node x : Nat} {arr' : Arr} {header' : AvlTree}
    (represents : Represents build state tree orphans) (fresh : node ∉ tree.inorder)
    (notOrphan : node ∉ orphans) (placed : PlacedByKey state.arr node tree.inorder tree'.inorder)
    (data : ∀ id, (arr' id).data = (leafCell state.arr node x id).data)
    (root : header'.root = rootId tree') (linked : Linked arr' 0 tree')
    (balanced : tree'.Balanced) (bounded : tree'.height ≤ build.maxAvlHeight)
    (first : header'.firstOrphanId = state.tree.firstOrphanId)
    (cache : build.avlCaching = true → CacheAt arr' header' tree') :
    Represents build { arr := arr', tree := header' } tree' orphans := by
  have fields := fun id => AvlNode.data_eq_iff.mp ((data id).trans (leafCell_data state.arr node x id))
  have unique := represents.treeAt.unique
  have sorted := represents.treeAt.sorted
  have plain := represents.treeAt.plain
  have disjoint := represents.disjoint
  obtain ⟨low, high, old, new, lowLe, highLt⟩ := placed
  rw [old] at unique sorted plain disjoint fresh
  refine ⟨⟨root, linked, balanced, bounded, ?_, ?_, ?_⟩, ?_, ?_, cache⟩
  · rw [new]
    grind
  · rw [new]
    simp only [fun id => (fields id).1]
    simp only [List.pairwise_append, List.pairwise_cons, List.mem_cons] at sorted ⊢
    refine ⟨sorted.1, ⟨fun id inside => (highLt id inside).le, sorted.2.1⟩, ?_⟩
    rintro id inLow other (rfl | inHigh)
    · exact lowLe id inLow
    · exact sorted.2.2 id inLow other inHigh
  · intro id inside
    rw [new] at inside
    rw [(fields id).2.1]
    split
    · rfl
    · next other => exact plain id (by grind)
  · rw [first]
    refine represents.orphansAt.congr fun id inside => ?_
    have different : id ≠ node := fun same => notOrphan (same ▸ inside)
    rw [data, leafCell_of_ne _ _ different]
  · intro id inside
    rw [new] at inside
    by_cases same : id = node
    · exact same ▸ notOrphan
    · exact disjoint id (by grind)

/-- Insertion with a free slot on the search path: the node is placed by its
key, ties to the right, and the orphans stay. -/
theorem avlTreeInsert_linked {build : Build} {state : AvlState} {tree : BinaryTree Nat}
    {orphans : List Nat} {node : Nat} (represents : Represents build state tree orphans)
    (present : node ≠ 0) (fresh : node ∉ tree.inorder) (notOrphan : node ∉ orphans)
    (fits : HasSlot build state.arr node tree) :
    ∃ tree', Represents build (avlTreeInsert build state node) tree' orphans ∧
      PlacedByKey state.arr node tree.inorder tree'.inorder ∧
      ∀ id, ((avlTreeInsert build state node).arr id).key = (state.arr id).key := by
  have treeAt := represents.treeAt
  have descended := (insertDescend_cleared treeAt fresh).1 fits
  have plugged := searchSlot_plug state.arr (state.arr node).key [] tree
  have split := searchSlot_inorder state.arr (state.arr node).key tree
  obtain ⟨lowLe, highLt⟩ := @searchSlot_ordered _ (state.arr node).key [] _
    treeAt.sorted (by simp [Context.before]) (by simp [Context.after])
  rw [HasSlot, searchDepth] at fits
  generalize searchSlot state.arr (state.arr node).key [] tree = slot at *
  rw [Context.plug_nil] at plugged
  have leafKey : ∀ x id, (leafCell state.arr node x id).key = (state.arr id).key := fun x id =>
    (AvlNode.data_eq_iff.mp (leafCell_data state.arr node x id)).1
  have result := avlTreeInsert_found descended
  cases slot with
  | nil =>
      obtain rfl : BinaryTree.nil = tree := plugged
      rw [result]
      have placed : PlacedByKey state.arr node [] [node] := ⟨[], [], by simp⟩
      refine ⟨.node node .nil .nil, ?_, placed, leafKey 0⟩
      refine represents.of_linked fresh notOrphan placed (fun id => rfl) ?_ ?_ (by simp)
        (by simpa using build.height_pos) ?_ fun caching => .cacheFirst caching (leafKey 0)
      · exact (cacheFirst_root build _ node _).1
      · simp only [linked_node, leafCell_self]
        exact ⟨present, rfl, rfl, rfl, by simp, trivial, trivial⟩
      · exact (cacheFirst_root build _ node _).2
  | cons frame rest =>
      obtain ⟨out, tree', ended, rebalanced, bounded⟩ :=
        link_rebalanced treeAt plugged (by simp) present fresh fits
      obtain rfl := Checked.insertRetrace_plain ended
      have parentIn : parentId (frame :: rest) ∈ tree.inorder := by
        rw [split]
        exact Context.parentD_mem (by simp)
      rw [result, if_neg (treeAt.linked.ne_zero _ parentIn)]
      have placed : PlacedByKey state.arr node tree.inorder tree'.inorder :=
        ⟨_, _, split, rebalanced.inorder, lowLe, highLt⟩
      have data := fun id => (rebalanced.data id).trans (fillSlot_data _ _ node id)
      have keys := fun id => (AvlNode.data_eq_iff.mp (data id)).1.trans (leafKey _ id)
      refine ⟨tree', ?_, placed, keys⟩
      refine represents.of_linked fresh notOrphan placed data ?_ rebalanced.linked
        rebalanced.balanced bounded ?_ fun caching => ?_
      · exact (cacheInsert_root build _ node _).1.trans rebalanced.root
      · exact (cacheInsert_root build _ node _).2
      · have nonempty : tree ≠ .nil := by
          rintro rfl
          simp at parentIn
        refine CacheAt.cacheInsert ?_ nonempty treeAt.linked.ne_zero placed caching
          keys
        exact (represents.cache caching).congr (fun _ _ => rfl) ⟨rfl, rfl⟩ ⟨rfl, rfl⟩

/-- Insertion without a free slot: the node becomes the first orphan and the
tree keeps every link. -/
theorem avlTreeInsert_orphaned {build : Build} {state : AvlState} {tree : BinaryTree Nat}
    {orphans : List Nat} {node : Nat} (represents : Represents build state tree orphans)
    (present : node ≠ 0) (fresh : node ∉ tree.inorder) (notOrphan : node ∉ orphans)
    (full : ¬ HasSlot build state.arr node tree) :
    Represents build (avlTreeInsert build state node) tree (node :: orphans) ∧
      ∀ id, ((avlTreeInsert build state node).arr id).key = (state.arr id).key := by
  rw [avlTreeInsert_full ((insertDescend_cleared represents.treeAt fresh).2 full)]
  have kept : ∀ id, id ≠ node → (cleared state.arr node).setOrphan node true id = state.arr id := by
    intro id different
    rw [Arr.setOrphan_of_ne _ _ different, (cleared_data state.arr node id).2.2.2 different]
  have clearedKey : ∀ id, ((cleared state.arr node).setOrphan node true id).key =
      (state.arr id).key := by
    intro id
    by_cases same : id = node
    · rw [same, Arr.setOrphan_self]
      exact (cleared_data state.arr node node).1
    · rw [kept id same]
  have keys : ∀ id, ((insertOrphan
      { state with arr := (cleared state.arr node).setOrphan node true } node).arr id).key =
        (state.arr id).key := fun id =>
    (AvlNode.core_eq_iff.mp (insertOrphan_core _ node id)).1.trans (clearedKey id)
  refine ⟨⟨?_, ?_, ?_, ?_⟩, keys⟩
  · refine represents.treeAt.congr fun id inside => ?_
    have different : id ≠ node := fun same => fresh (same ▸ inside)
    exact (insertOrphan_core _ node id).trans (congrArg _ (kept id different))
  · refine OrphansAt.insertOrphan ?_ notOrphan present (by simp)
    refine represents.orphansAt.congr fun id inside => ?_
    exact congrArg _ (kept id fun same => notOrphan (same ▸ inside))
  · intro id inside
    rw [List.mem_cons, not_or]
    exact ⟨fun same => fresh (same ▸ inside), represents.disjoint id inside⟩
  · exact fun caching => (represents.cache caching).congr (fun id _ => keys id) ⟨rfl, rfl⟩ ⟨rfl, rfl⟩

/-- Insertion takes no defensive exit. -/
theorem Checked.avlTreeInsert_eq {build : Build} {state : AvlState} {tree : BinaryTree Nat}
    {orphans : List Nat} {node : Nat} (represents : Represents build state tree orphans)
    (present : node ≠ 0) (fresh : node ∉ tree.inorder) :
    Checked.avlTreeInsert build state node = .ok (Avl.avlTreeInsert build state node) := by
  have treeAt := represents.treeAt
  have ends : ∃ next, Checked.avlTreeInsert build state node = .ok next := by
    have descended := insertDescend_cleared treeAt fresh
    unfold cleared at descended
    simp only [Checked.avlTreeInsert, Checked.insertDescend_plain, bind, Except.bind]
    have sameKey : ((((state.arr.setBalance node 0).setRight node 0).setLeft node 0).setOrphan node
        false node).key = (state.arr node).key := (cleared_data state.arr node node).1
    rw [sameKey]
    by_cases fits : HasSlot build state.arr node tree
    · rw [descended.1 fits, if_neg (not_not.mpr rfl)]
      have plugged := searchSlot_plug state.arr (state.arr node).key [] tree
      rw [HasSlot, searchDepth] at fits
      generalize searchSlot state.arr (state.arr node).key [] tree = slot at *
      rw [Context.plug_nil] at plugged
      by_cases first : parentId slot = 0
      · rw [if_pos first]
        exact ⟨_, rfl⟩
      · rw [if_neg first]
        have nonempty : slot ≠ [] := fun empty => first (by rw [empty]; rfl)
        obtain ⟨out, tree', ended, -⟩ :=
          link_rebalanced treeAt plugged nonempty present fresh fits
        unfold leafCell fillSlot at ended
        rw [ended]
        exact ⟨_, rfl⟩
    · rw [if_pos (descended.2 fits)]
      exact ⟨_, rfl⟩
  obtain ⟨next, ended⟩ := ends
  rw [ended, Checked.avlTreeInsert_plain ended]

/-- Insertion refines the abstract one, and never ends with an empty tree. -/
theorem avlTreeInsert_inserted {build : Build} {state : AvlState} {tree : BinaryTree Nat}
    {orphans : List Nat} {node : Nat} (represents : Represents build state tree orphans)
    (present : node ≠ 0) (fresh : node ∉ tree.inorder) (notOrphan : node ∉ orphans) :
    ∃ tree' orphans', Represents build (avlTreeInsert build state node) tree' orphans' ∧
      (∀ id, ((avlTreeInsert build state node).arr id).key = (state.arr id).key) ∧
      tree' ≠ .nil ∧ InsertedInto build state.arr node tree orphans tree' orphans' := by
  by_cases fits : HasSlot build state.arr node tree
  · obtain ⟨tree', represents', placed, keys⟩ :=
      avlTreeInsert_linked represents present fresh notOrphan fits
    refine ⟨tree', orphans, represents', keys, ?_, .inl ⟨fits, placed, rfl⟩⟩
    obtain ⟨low, high, -, new, -⟩ := placed
    rintro rfl
    simp at new
  · obtain ⟨represents', keys⟩ := avlTreeInsert_orphaned represents present fresh notOrphan fits
    refine ⟨tree, node :: orphans, represents', keys, ?_, .inr ⟨fits, rfl, rfl⟩⟩
    rintro rfl
    exact fits build.height_pos

end Ghost.Avl
