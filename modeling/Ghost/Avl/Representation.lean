import Ghost.Avl.Walks
import Ghost.Lib.DoublyLinked

/-!
# The representation invariant

A state represents a tree of node identifiers and a list of orphans. The tree
part and the orphan part read disjoint cells, so an operation on one of them
carries the other over unchanged.
-/

set_option autoImplicit false

namespace Ghost.Avl

open Lib

/-- The tree half: exact links and balances, balance, order and height bound. -/
structure TreeAt (build : Build) (arr : Arr) (root : Nat) (tree : BinaryTree Nat) : Prop where
  root : root = rootId tree
  linked : Linked arr 0 tree
  balanced : tree.Balanced
  bounded : tree.height ≤ build.maxAvlHeight
  unique : tree.inorder.Nodup
  sorted : tree.inorder.Pairwise fun left right => (arr left).key ≤ (arr right).key
  plain : ∀ id ∈ tree.inorder, (arr id).isOrphan = false

/-- The orphan half: a doubly linked list of flagged nodes. -/
structure OrphansAt (arr : Arr) (first : Nat) (orphans : List Nat) : Prop where
  first : first = orphans.headD 0
  linked : DLinked 0 (fun id => (arr id).nextOrphanId) (fun id => (arr id).prevOrphanId) 0 orphans
  unique : orphans.Nodup
  flagged : ∀ id ∈ orphans, (arr id).isOrphan = true

/-- The cached extremes are the outermost nodes of the tree, with their keys. -/
structure CacheAt (arr : Arr) (header : AvlTree) (tree : BinaryTree Nat) : Prop where
  minId : header.minId = tree.inorder.headD 0
  maxId : header.maxId = tree.inorder.getLastD 0
  minKey : tree ≠ .nil → header.minKey = (arr header.minId).key
  maxKey : tree ≠ .nil → header.maxKey = (arr header.maxId).key

/-- The state holds exactly this tree and these orphans. -/
structure Represents (build : Build) (state : AvlState) (tree : BinaryTree Nat)
    (orphans : List Nat) : Prop where
  treeAt : TreeAt build state.arr state.tree.root tree
  orphansAt : OrphansAt state.arr state.tree.firstOrphanId orphans
  disjoint : ∀ id ∈ tree.inorder, id ∉ orphans
  cache : build.avlCaching = true → CacheAt state.arr state.tree tree

theorem OrphansAt.congr {arr arr' : Arr} {first : Nat} {orphans : List Nat}
    (orphansAt : OrphansAt arr first orphans)
    (same : ∀ id ∈ orphans, (arr' id).data = (arr id).data) : OrphansAt arr' first orphans := by
  have fields := fun id member => AvlNode.data_eq_iff.mp (same id member)
  exact ⟨orphansAt.first,
    orphansAt.linked.congr (fun id member => (fields id member).2.2.2)
      fun id member => (fields id member).2.2.1,
    orphansAt.unique, fun id member => (fields id member).2.1.trans (orphansAt.flagged id member)⟩

theorem OrphansAt.ne_zero {arr : Arr} {first : Nat} {orphans : List Nat}
    (orphansAt : OrphansAt arr first orphans) : ∀ id ∈ orphans, id ≠ 0 :=
  orphansAt.linked.ne_null

theorem TreeAt.congr {build : Build} {arr arr' : Arr} {root : Nat} {tree : BinaryTree Nat}
    (treeAt : TreeAt build arr root tree)
    (same : ∀ id ∈ tree.inorder, (arr' id).core = (arr id).core) :
    TreeAt build arr' root tree := by
  have fields := fun id member => AvlNode.core_eq_iff.mp (same id member)
  exact { treeAt with
    linked := treeAt.linked.congr_core same
    sorted := treeAt.sorted.imp_of_mem fun {left right} leftIn rightIn le => by
      rwa [(fields left leftIn).1, (fields right rightIn).1]
    plain := fun id member => (fields id member).2.2.2.2.2.trans (treeAt.plain id member) }

theorem CacheAt.congr {arr arr' : Arr} {header header' : AvlTree} {tree : BinaryTree Nat}
    (cache : CacheAt arr header tree) (same : ∀ id ∈ tree.inorder, (arr' id).key = (arr id).key)
    (sameMin : header'.minId = header.minId ∧ header'.minKey = header.minKey)
    (sameMax : header'.maxId = header.maxId ∧ header'.maxKey = header.maxKey) :
    CacheAt arr' header' tree := by
  refine ⟨sameMin.1.trans cache.minId, sameMax.1.trans cache.maxId, ?_, ?_⟩
  · intro present
    rw [sameMin.2, cache.minKey present, sameMin.1, same]
    have some : tree.inorder ≠ [] := BinaryTree.inorder_eq_nil.not.mpr present
    rw [cache.minId, List.headD_eq_head?_getD, List.head?_eq_some_head some]
    exact List.head_mem some
  · intro present
    rw [sameMax.2, cache.maxKey present, sameMax.1, same]
    have some : tree.inorder ≠ [] := BinaryTree.inorder_eq_nil.not.mpr present
    rw [cache.maxId, List.getLastD_eq_getLast?, List.getLast?_eq_some_getLast some]
    exact List.getLast_mem some

/-- Nodes held by neither half may be overwritten freely. -/
theorem Represents.congr {build : Build} {state : AvlState} {tree : BinaryTree Nat}
    {orphans : List Nat} (represents : Represents build state tree orphans) {arr' : Arr}
    (same : ∀ id, id ∈ tree.inorder ∨ id ∈ orphans → arr' id = state.arr id) :
    Represents build { state with arr := arr' } tree orphans where
  treeAt := represents.treeAt.congr fun id member => congrArg _ (same id (.inl member))
  orphansAt := represents.orphansAt.congr fun id member => congrArg _ (same id (.inr member))
  disjoint := represents.disjoint
  cache caching := (represents.cache caching).congr
    (fun id member => congrArg _ (same id (.inl member))) ⟨rfl, rfl⟩ ⟨rfl, rfl⟩

theorem Represents.ne_zero {build : Build} {state : AvlState} {tree : BinaryTree Nat}
    {orphans : List Nat} (represents : Represents build state tree orphans) :
    ∀ id, id ∈ tree.inorder ∨ id ∈ orphans → id ≠ 0
  | id, .inl member => represents.treeAt.linked.ne_zero id member
  | id, .inr member => represents.orphansAt.ne_zero id member

/-! ## Orphan operations -/

section Orphans

variable {state : AvlState} {orphans : List Nat}

@[simp] theorem insertOrphan_core (state : AvlState) (node id : Nat) :
    ((insertOrphan state node).arr id).core = (state.arr id).core := by
  unfold insertOrphan
  dsimp only
  split <;> simp

@[simp] theorem removeOrphan_core (state : AvlState) (node id : Nat) :
    ((removeOrphan state node).arr id).core = (state.arr id).core := by
  unfold removeOrphan
  dsimp only
  split <;> split <;> simp

@[simp] theorem popFirstOrphan_core (state : AvlState) (id : Nat) :
    ((popFirstOrphan state).1.arr id).core = (state.arr id).core := by
  unfold popFirstOrphan
  dsimp only
  split
  · rfl
  · split <;> simp

theorem OrphansAt.insertOrphan {node : Nat}
    (orphansAt : OrphansAt state.arr state.tree.firstOrphanId orphans)
    (fresh : node ∉ orphans) (present : node ≠ 0)
    (flagged : (state.arr node).isOrphan = true) :
    OrphansAt (insertOrphan state node).arr (insertOrphan state node).tree.firstOrphanId
      (node :: orphans) := by
  have notSelf : ∀ id ∈ orphans, id ≠ node := fun id member same => fresh (same ▸ member)
  have patched : ∀ id ∈ orphans, (Avl.insertOrphan state node).arr id =
      if id = orphans.headD 0 then { state.arr id with prevOrphanId := node }
      else state.arr id := by
    intro id member
    simp only [Avl.insertOrphan, orphansAt.first]
    rw [Arr.setPrevOrphan_of_ne _ _ (notSelf id member),
      Arr.setNextOrphan_of_ne _ _ (notSelf id member)]
    by_cases isFirst : id = orphans.headD 0
    · rw [if_pos isFirst, ← isFirst, if_neg (orphansAt.ne_zero id member), Arr.setPrevOrphan_self]
    · rw [if_neg isFirst]
      split
      · rfl
      · exact Arr.setPrevOrphan_of_ne _ _ isFirst
  refine ⟨rfl, orphansAt.linked.push fresh orphansAt.unique present ?_ ?_ ?_ ?_,
    List.nodup_cons.mpr ⟨fresh, orphansAt.unique⟩, ?_⟩
  · simp [Avl.insertOrphan]
  · simp [Avl.insertOrphan, orphansAt.first]
  · intro id member
    simp only [patched id member]
    split <;> rfl
  · intro id member
    simp only [patched id member]
    exact ⟨fun isFirst => by rw [if_pos isFirst], fun notFirst => by rw [if_neg notFirst]⟩
  · intro id member
    have kept := (AvlNode.core_eq_iff.mp (insertOrphan_core state node id)).2.2.2.2.2
    rcases List.mem_cons.mp member with rfl | member
    · exact kept.trans flagged
    · exact kept.trans (orphansAt.flagged id member)

private theorem removeOrphan_cell {node id : Nat} (different : id ≠ node) (present : id ≠ 0) :
    (removeOrphan state node).arr id =
      { state.arr id with
        nextOrphanId := if id = (state.arr node).prevOrphanId then (state.arr node).nextOrphanId
          else (state.arr id).nextOrphanId
        prevOrphanId := if id = (state.arr node).nextOrphanId then (state.arr node).prevOrphanId
          else (state.arr id).prevOrphanId } := by
  simp only [removeOrphan]
  rw [Arr.setPrevOrphan_of_ne _ _ different, Arr.setNextOrphan_of_ne _ _ different]
  generalize (state.arr node).prevOrphanId = prev
  generalize (state.arr node).nextOrphanId = next
  have nextCell : (if prev = 0 then state.arr else state.arr.setNextOrphan prev next) id =
      { state.arr id with
        nextOrphanId := if id = prev then next else (state.arr id).nextOrphanId } := by
    by_cases isPrev : id = prev
    · rw [← isPrev, if_neg present, Arr.setNextOrphan_self, if_pos rfl]
    · rw [if_neg isPrev]
      split
      · rfl
      · rw [Arr.setNextOrphan_of_ne _ _ isPrev]
  by_cases isNext : id = next
  · rw [← isNext, if_neg present, Arr.setPrevOrphan_self, if_pos rfl]
    rw [← isNext] at nextCell
    rw [nextCell]
  · rw [if_neg isNext]
    split
    · exact nextCell
    · rw [Arr.setPrevOrphan_of_ne _ _ isNext, nextCell]

/-- Removal joins the neighbours of the orphan, wherever it is in the list. -/
theorem OrphansAt.removeOrphan {node : Nat}
    (orphansAt : OrphansAt state.arr state.tree.firstOrphanId orphans) (member : node ∈ orphans) :
    OrphansAt (removeOrphan state node).arr (removeOrphan state node).tree.firstOrphanId
      (orphans.erase node) := by
  obtain ⟨front, back, split⟩ := List.append_of_mem member
  subst split
  have unique := orphansAt.unique
  have zeroOut : (0 :: (front ++ node :: back)).Nodup :=
    List.nodup_cons.mpr ⟨fun zeroIn => orphansAt.ne_zero 0 zeroIn rfl, unique⟩
  have prevEq := orphansAt.linked.prev_eq
  have nextEq := orphansAt.linked.next_eq
  have notInFront : node ∉ front := by grind
  have erased : (front ++ node :: back).erase node = front ++ back := by
    rw [List.erase_append_right _ notInFront, List.erase_cons_head]
  have inOld : ∀ id ∈ front ++ back, id ∈ front ++ node :: back ∧ id ≠ node := by grind
  have patched : ∀ id ∈ front ++ back, _ := fun id inside =>
    @removeOrphan_cell state node id (inOld id inside).2 (orphansAt.ne_zero id (inOld id inside).1)
  rw [erased]
  refine ⟨?_, orphansAt.linked.remove zeroOut ?_ ?_, by grind, ?_⟩
  · have first := orphansAt.first
    simp only [Avl.removeOrphan]
    cases front with
    | nil => simpa [show state.tree.firstOrphanId = node from first] using nextEq
    | cons head front =>
        have headNe : state.tree.firstOrphanId ≠ node := by
          rw [show state.tree.firstOrphanId = head from first]
          grind
        rw [if_neg headNe]
        exact first
  · intro id inside
    simp only [patched id inside]
    exact ⟨fun same => by rw [if_pos same], fun different => by rw [if_neg different]⟩
  · intro id inside
    simp only [patched id inside]
    exact ⟨fun same => by rw [if_pos same], fun different => by rw [if_neg different]⟩
  · intro id inside
    have kept := (AvlNode.core_eq_iff.mp (removeOrphan_core state node id)).2.2.2.2.2
    exact kept.trans (orphansAt.flagged id (inOld id inside).1)

/-- Popping returns the front orphan, or null exactly when there is none. -/
theorem OrphansAt.popFirstOrphan
    (orphansAt : OrphansAt state.arr state.tree.firstOrphanId orphans) :
    (popFirstOrphan state).2 = orphans.headD 0 ∧
      OrphansAt (popFirstOrphan state).1.arr (popFirstOrphan state).1.tree.firstOrphanId
        orphans.tail := by
  cases orphans with
  | nil =>
      have first : state.tree.firstOrphanId = 0 := orphansAt.first
      simpa [Avl.popFirstOrphan, first] using orphansAt
  | cons head rest =>
      have first : state.tree.firstOrphanId = head := orphansAt.first
      have present : head ≠ 0 := orphansAt.linked.1
      have removed := orphansAt.removeOrphan (List.mem_cons_self : head ∈ head :: rest)
      rw [List.erase_cons_head] at removed
      have prevZero : (state.arr head).prevOrphanId = 0 := orphansAt.linked.2.1
      simp only [Avl.removeOrphan, prevZero, if_true, first] at removed
      simpa [Avl.popFirstOrphan, first, present] using removed

end Orphans

private theorem popFirstOrphan_tree (state : AvlState) :
    (popFirstOrphan state).1.tree =
      { state.tree with firstOrphanId := (popFirstOrphan state).1.tree.firstOrphanId } := by
  unfold popFirstOrphan
  dsimp only
  split <;> rfl

theorem Represents.popFirstOrphan {build : Build} {state : AvlState} {tree : BinaryTree Nat}
    {orphans : List Nat} (represents : Represents build state tree orphans) :
    Represents build (popFirstOrphan state).1 tree orphans.tail := by
  have header := popFirstOrphan_tree state
  have fields := fun id => AvlNode.core_eq_iff.mp (popFirstOrphan_core state id)
  refine ⟨?_, represents.orphansAt.popFirstOrphan.2, ?_, fun caching => ?_⟩
  · rw [header]
    exact represents.treeAt.congr fun id _ => popFirstOrphan_core state id
  · exact fun id inside orphan => represents.disjoint id inside (List.mem_of_mem_tail orphan)
  · rw [header]
    exact (represents.cache caching).congr (fun id _ => (fields id).1) ⟨rfl, rfl⟩ ⟨rfl, rfl⟩

theorem Represents.removeOrphan {build : Build} {state : AvlState} {tree : BinaryTree Nat}
    {orphans : List Nat} {node : Nat} (represents : Represents build state tree orphans)
    (member : node ∈ orphans) :
    Represents build (removeOrphan state node) tree (orphans.erase node) := by
  have fields := fun id => AvlNode.core_eq_iff.mp (removeOrphan_core state node id)
  refine ⟨?_, represents.orphansAt.removeOrphan member, ?_, fun caching => ?_⟩
  · exact represents.treeAt.congr fun id _ => removeOrphan_core state node id
  · exact fun id inside orphan => represents.disjoint id inside (List.mem_of_mem_erase orphan)
  · exact (represents.cache caching).congr (fun id _ => (fields id).1) ⟨rfl, rfl⟩ ⟨rfl, rfl⟩

end Ghost.Avl
