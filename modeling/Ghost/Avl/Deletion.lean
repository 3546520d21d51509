import Ghost.Avl.Insertion
import Ghost.Avl.Unlink

/-!
# Deletion

Deleting an orphan takes it out of the list. Deleting a tree node moves the
cached extremes to its neighbours, unlinks it, rebalances, and hands the first
orphan, if any, to insertion.
-/

set_option autoImplicit false

namespace Ghost.Avl

open Lib

/-- The cache moves to a neighbour exactly when the deleted node is outermost. -/
private theorem CacheAt.cacheDelete {build : Build} {arr : Arr} {header : AvlTree} {node : Nat}
    {tree tree' : BinaryTree Nat} {low high : List Nat} (cache : CacheAt arr header tree)
    (old : tree.inorder = low ++ node :: high) (new : tree'.inorder = low ++ high)
    (unique : tree.inorder.Nodup) (nonzero : ∀ id ∈ tree.inorder, id ≠ 0)
    (nextEq : avlNextNode build arr node = high.headD 0)
    (prevEq : avlPrevNode build arr node = low.getLastD 0)
    (caching : build.avlCaching = true) :
    CacheAt arr (cacheDelete build arr header node) tree' := by
  have minEq := cache.minId
  have maxEq := cache.maxId
  have present : tree ≠ .nil := by
    rintro rfl
    simp at old
  have minKeyEq := cache.minKey present
  have maxKeyEq := cache.maxKey present
  rw [old] at minEq maxEq unique nonzero
  have isMin : node = header.minId ↔ low = [] := by
    cases low with
    | nil => simp [minEq]
    | cons first low =>
        simp only [List.cons_append, List.headD_cons] at minEq
        simp only [minEq, reduceCtorEq, iff_false]
        grind
  have isMax : node = header.maxId ↔ high = [] := by
    rcases List.eq_nil_or_concat' high with rfl | ⟨high, last, rfl⟩
    · simp [maxEq]
    · rw [← List.cons_append, ← List.append_assoc, List.getLastD_concat] at maxEq
      simp only [maxEq, List.append_eq_nil_iff, List.cons_ne_nil, and_false, iff_false]
      grind
  have unfolded : Avl.cacheDelete build arr header node =
      { header with
        minId := if low = [] then high.headD 0 else header.minId
        minKey := if low = [] ∧ high.headD 0 ≠ 0 then (arr (high.headD 0)).key else header.minKey
        maxId := if high = [] then low.getLastD 0 else header.maxId
        maxKey := if high = [] ∧ low.getLastD 0 ≠ 0 then (arr (low.getLastD 0)).key
          else header.maxKey } := by
    simp only [Avl.cacheDelete, caching, if_true, nextEq, prevEq, isMin]
    by_cases lowNil : low = [] <;> by_cases highNil : high = [] <;>
      simp [lowNil, highNil, isMax, ite_not]
  rw [unfolded]
  refine ⟨?_, ?_, fun some => ?_, fun some => ?_⟩
  · cases low with
    | nil => simp [new]
    | cons first low => simpa [new] using minEq
  · rcases List.eq_nil_or_concat' high with rfl | ⟨high, last, rfl⟩
    · simp [new]
    · rw [← List.cons_append, ← List.append_assoc, List.getLastD_concat] at maxEq
      simp only [List.append_eq_nil_iff, List.cons_ne_nil, and_false, if_false, maxEq, new,
        ← List.append_assoc, List.getLastD_concat]
  · cases low with
    | nil =>
        cases high with
        | nil => exact absurd (BinaryTree.inorder_eq_nil.mp new) some
        | cons first high => simp [nonzero first (by simp)]
    | cons first low => simpa using minKeyEq
  · rcases List.eq_nil_or_concat' high with rfl | ⟨high, last, rfl⟩
    · rcases List.eq_nil_or_concat' low with rfl | ⟨low, last, rfl⟩
      · exact absurd (BinaryTree.inorder_eq_nil.mp new) some
      · simp [nonzero last (by simp)]
    · simpa using maxKeyEq

theorem cacheDelete_root (build : Build) (arr : Arr) (header : AvlTree) (node : Nat) :
    (cacheDelete build arr header node).root = header.root ∧
      (cacheDelete build arr header node).firstOrphanId = header.firstOrphanId := by
  unfold cacheDelete
  dsimp only
  split_ifs <;> exact ⟨rfl, rfl⟩

/-- Unlinking and rebalancing together, from a tree that holds the node. -/
private theorem delete_rebalanced {build : Build} {arr : Arr} {root node : Nat}
    {context : Context Nat} {left right : BinaryTree Nat}
    (treeAt : TreeAt build arr root (context.plug (.node node left right))) :
    ∃ unlinked arr' root' tree', unlinkNode build arr root node = .ok unlinked ∧
      Checked.deleteRetrace build.maxAvlHeight unlinked.arr unlinked.root unlinked.x
        unlinked.fromTheLeft = .ok (arr', root') ∧
      root' = rootId tree' ∧ Linked arr' 0 tree' ∧ tree'.Balanced ∧
      tree'.inorder = context.before ++ (left.inorder ++ right.inorder) ++ context.after ∧
      tree'.height ≤ (context.plug (.node node left right)).height ∧
      ∀ id, (arr' id).data = (arr id).data := by
  obtain ⟨linked, around⟩ := linked_plug.mp ⟨treeAt.root, treeAt.linked⟩
  obtain ⟨unlinked, context', shrunk, outcome, unlinkedAt, balanced, aroundBalanced, height, ids⟩ :=
    unlinkNode_unlinks linked around treeAt.unique treeAt.balanced treeAt.bounded
  have enough : context'.length < build.maxAvlHeight := by
    have path := Context.length_add_le_heightAt (shrunk.height + 1) context'
    have bounded := treeAt.bounded
    omega
  have unique : (context'.plug shrunk).inorder.Nodup := by
    have old := treeAt.unique
    simp only [Context.inorder_plug, BinaryTree.inorder_node] at old
    rw [ids]
    grind
  obtain ⟨arr', root', tree', ended, rebalanced, bound⟩ := deleteRetrace_rebalanced enough unique
    unlinkedAt.linked unlinkedAt.around balanced aroundBalanced
  refine ⟨unlinked, arr', root', tree', outcome, ?_, rebalanced.root, rebalanced.linked,
    rebalanced.balanced, rebalanced.inorder.trans ids, bound.trans_eq height, ?_⟩
  · rw [unlinkedAt.x, unlinkedAt.side, ended]
  · exact fun id => (rebalanced.data id).trans (unlinkedAt.data id)

/-- The state between unlinking a node and taking in an orphan. -/
private theorem delete_settled {build : Build} {state : AvlState} {tree : BinaryTree Nat}
    {orphans : List Nat} {node : Nat} (represents : Represents build state tree orphans)
    (member : node ∈ tree.inorder) :
    ∃ unlinked arr' root' tree',
      unlinkNode build state.arr state.tree.root node = .ok unlinked ∧
      Checked.deleteRetrace build.maxAvlHeight unlinked.arr unlinked.root unlinked.x
        unlinked.fromTheLeft = .ok (arr', root') ∧
      Represents build
        { arr := arr', tree := { cacheDelete build state.arr state.tree node with root := root' } }
        tree' orphans ∧
      tree'.inorder = tree.inorder.erase node ∧ ∀ id, (arr' id).key = (state.arr id).key := by
  obtain ⟨treeAt, orphansAt, disjoint, cache⟩ := represents
  obtain ⟨context, left, right, split⟩ := Context.exists_plug_of_mem member
  have oldIds : tree.inorder =
      (context.before ++ left.inorder) ++ node :: (right.inorder ++ context.after) := by
    simp [split, Context.inorder_plug]
  have erased : tree.inorder.erase node =
      (context.before ++ left.inorder) ++ (right.inorder ++ context.after) := by
    have unique := treeAt.unique
    rw [oldIds] at unique ⊢
    rw [List.erase_append_right _ (by grind), List.erase_cons_head]
  have header := cacheDelete_root build state.arr state.tree node
  have treeAt' := split ▸ treeAt
  obtain ⟨linked, around⟩ := linked_plug.mp ⟨treeAt'.root, treeAt'.linked⟩
  have nextEq := avlNextNode_eq linked around treeAt'.unique treeAt'.bounded
  have prevEq := avlPrevNode_eq linked around treeAt'.unique treeAt'.bounded
  obtain ⟨unlinked, arr', root', tree', unlinks, ended, rootEq, linked', balanced', ids, bound,
    data⟩ := delete_rebalanced treeAt'
  have fields := fun id => AvlNode.data_eq_iff.mp (data id)
  have newIds : tree'.inorder = tree.inorder.erase node := by
    rw [ids, erased]
    simp
  have sub : ∀ id ∈ tree'.inorder, id ∈ tree.inorder := fun id inside =>
    List.mem_of_mem_erase (newIds ▸ inside)
  refine ⟨unlinked, arr', root', tree', unlinks, ended, ?_, newIds, fun id => (fields id).1⟩
  refine ⟨⟨rootEq, linked', balanced', ?_, ?_, ?_, ?_⟩, ?_, ?_, fun caching => ?_⟩
  · exact bound.trans (split ▸ treeAt.bounded)
  · exact newIds ▸ treeAt.unique.erase node
  · simp only [fun id => (fields id).1, newIds]
    exact treeAt.sorted.sublist List.erase_sublist
  · exact fun id inside => (fields id).2.1.trans (treeAt.plain id (sub id inside))
  · rw [header.2]
    exact orphansAt.congr fun id _ => data id
  · exact fun id inside => disjoint id (sub id inside)
  · have moved := (cache caching).cacheDelete oldIds (newIds.trans erased)
      treeAt.unique treeAt.linked.ne_zero nextEq prevEq caching
    exact moved.congr (fun id _ => (fields id).1) ⟨rfl, rfl⟩ ⟨rfl, rfl⟩

/-- The first orphan, if any, is inserted at the end of a deletion. -/
def adoptFirst (build : Build) (state : AvlState) : List Nat → AvlState
  | [] => state
  | first :: _ => avlTreeInsert build state first

/-- Deleting a tree node removes exactly it and then inserts the first orphan. -/
theorem avlTreeDelete_linked {build : Build} {state : AvlState} {tree : BinaryTree Nat}
    {orphans : List Nat} {node : Nat} (represents : Represents build state tree orphans)
    (member : node ∈ tree.inorder) :
    ∃ state' tree', Represents build state' tree' orphans.tail ∧
      tree'.inorder = tree.inorder.erase node ∧
      (∀ id, (state'.arr id).key = (state.arr id).key) ∧
      avlTreeDelete build state node = adoptFirst build state' orphans := by
  obtain ⟨unlinked, arr', root', tree', unlinks, ended, middle, newIds, keys⟩ :=
    delete_settled represents member
  have header := cacheDelete_root build state.arr state.tree node
  refine ⟨_, tree', middle.popFirstOrphan, newIds, fun id => ?_, ?_⟩
  · exact (AvlNode.core_eq_iff.mp (popFirstOrphan_core _ id)).1.trans (keys id)
  · have popped := middle.orphansAt.popFirstOrphan.1
    simp only [avlTreeDelete, represents.treeAt.plain node member, Bool.false_eq_true, if_false,
      header.1, unlinks, bind, Except.bind, Checked.deleteRetrace_plain ended, popped]
    cases orphans with
    | nil => rfl
    | cons first orphans => exact if_neg (represents.orphansAt.ne_zero first (by simp))

/-- Both steps from a tree node end before the bound of their loops. -/
theorem TreeAt.walks {build : Build} {arr : Arr} {root node : Nat} {tree : BinaryTree Nat}
    (treeAt : TreeAt build arr root tree) (member : node ∈ tree.inorder) :
    Checked.avlNextNode build arr node = .ok (avlNextNode build arr node) ∧
      Checked.avlPrevNode build arr node = .ok (avlPrevNode build arr node) := by
  obtain ⟨context, left, right, rfl⟩ := Context.exists_plug_of_mem member
  obtain ⟨linked, around⟩ := linked_plug.mp ⟨treeAt.root, treeAt.linked⟩
  have next := Checked.avlNextNode_eq linked around treeAt.unique treeAt.bounded
  have prev := Checked.avlPrevNode_eq linked around treeAt.unique treeAt.bounded
  exact ⟨by rw [next, Checked.avlNextNode_plain next], by rw [prev, Checked.avlPrevNode_plain prev]⟩

/-- Deleting a tree node takes no defensive exit. -/
theorem Checked.avlTreeDelete_linked {build : Build} {state : AvlState} {tree : BinaryTree Nat}
    {orphans : List Nat} {node : Nat} (represents : Represents build state tree orphans)
    (member : node ∈ tree.inorder) :
    Checked.avlTreeDelete build state node = .ok (Avl.avlTreeDelete build state node) := by
  obtain ⟨unlinked, arr', root', tree', unlinks, ended, middle, newIds, -⟩ :=
    delete_settled represents member
  have header := cacheDelete_root build state.arr state.tree node
  obtain ⟨next, prev⟩ := represents.treeAt.walks member
  have popped := middle.orphansAt.popFirstOrphan.1
  simp only [Checked.avlTreeDelete, Avl.avlTreeDelete, represents.treeAt.plain node member,
    Bool.false_eq_true, if_false, Checked.cacheDelete_of_walks next prev, header.1, bind,
    Except.bind, Checked.unlinkNode_of_plain next unlinks, ended, unlinks,
    Checked.deleteRetrace_plain ended, popped]
  cases orphans with
  | nil => rfl
  | cons first rest =>
      have present := represents.orphansAt.ne_zero first (by simp)
      rw [List.headD_cons, if_neg present, if_neg present]
      refine Checked.avlTreeInsert_eq middle.popFirstOrphan present fun inside => ?_
      exact represents.disjoint first (List.mem_of_mem_erase (newIds ▸ inside)) (by simp)

/-- Deleting an orphan removes exactly it; no tree node changes. -/
theorem avlTreeDelete_orphan {build : Build} {state : AvlState} {tree : BinaryTree Nat}
    {orphans : List Nat} {node : Nat} (represents : Represents build state tree orphans)
    (member : node ∈ orphans) :
    Represents build (avlTreeDelete build state node) tree (orphans.erase node) ∧
      ∀ id, ((avlTreeDelete build state node).arr id).key = (state.arr id).key := by
  have removed := represents.removeOrphan member
  have result : avlTreeDelete build state node =
      { removeOrphan state node with
        arr := (removeOrphan state node).arr.setOrphan node false } := by
    simp [avlTreeDelete, represents.orphansAt.flagged node member]
  rw [result]
  refine ⟨removed.congr fun id held => ?_, fun id => ?_⟩
  · refine Arr.setOrphan_of_ne _ _ ?_
    rintro rfl
    rcases held with inTree | inOrphans
    · exact represents.disjoint id inTree member
    · exact represents.orphansAt.unique.not_mem_erase inOrphans
  · have kept := (AvlNode.core_eq_iff.mp (removeOrphan_core state node id)).1
    by_cases same : id = node
    · subst same
      simpa using kept
    · simpa [same] using kept

end Ghost.Avl
