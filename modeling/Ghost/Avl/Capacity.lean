import Ghost.Avl.Sessions

/-!
# Capacity

A node becomes an orphan only if the search path of its key is as long as the loop
of `avl_tree_insert` allows. The tree is balanced, so a path of that length needs a
Fibonacci number of nodes, and with the default `MAX_AVL_HEIGHT` that is more than
there are threads.
-/

set_option autoImplicit false

namespace Ghost.Avl

open Lib

/-- The nodes of the lowest tree that may have no slot for one more. -/
def capacity (build : Build) : Nat := Nat.fib (build.maxAvlHeight + 2) - 1

private theorem searchDepth_le_height (arr : Arr) (key : Nat) (tree : BinaryTree Nat) :
    searchDepth arr key tree ≤ tree.height := by
  have plugged := congrArg BinaryTree.height (searchSlot_plug arr key [] tree)
  rw [Context.height_plug, Context.plug_nil] at plugged
  have depth := Context.length_add_le_heightAt (BinaryTree.nil : BinaryTree Nat).height
    (searchSlot arr key [] tree)
  simp only [BinaryTree.height] at plugged depth
  unfold searchDepth
  omega

/-- Below the capacity every key finds a slot. -/
theorem TreeAt.hasSlot {build : Build} {arr arr' : Arr} {root : Nat} {tree : BinaryTree Nat}
    (treeAt : TreeAt build arr root tree) (room : tree.inorder.length < capacity build)
    (node : Nat) : HasSlot build arr' node tree := by
  have nodes := treeAt.balanced.fib_le
  have depth := searchDepth_le_height arr' (arr' node).key tree
  have lower : tree.height < build.maxAvlHeight := by
    by_contra higher
    have grown : Nat.fib (build.maxAvlHeight + 2) ≤ Nat.fib (tree.height + 2) :=
      Nat.fib_mono (by omega)
    unfold capacity at room
    omega
  exact lt_of_le_of_lt depth lower

section Insertion

variable {build : Build} {state : AvlState} {tree : BinaryTree Nat} {orphans : List Nat}

/-- Below the capacity insertion links the node and leaves the orphans alone. -/
theorem Represents.insert_links (represents : Represents build state tree orphans) {node : Nat}
    (present : node ≠ 0) (fresh : node ∉ tree.inorder) (notOrphan : node ∉ orphans)
    (room : tree.inorder.length < capacity build) :
    ∃ tree', Represents build (avlTreeInsert build state node) tree' orphans ∧
      node ∈ tree'.inorder := by
  obtain ⟨tree', represents', placed, -⟩ := avlTreeInsert_linked represents present fresh notOrphan
    (represents.treeAt.hasSlot room node)
  obtain ⟨low, high, -, new, -⟩ := placed
  exact ⟨tree', represents', by simp [new]⟩

/-- The orphan that a deletion takes back in is linked, too. -/
theorem Represents.delete_adopts (represents : Represents build state tree orphans) {node : Nat}
    (member : node ∈ tree.inorder) (room : tree.inorder.length ≤ capacity build) :
    ∃ tree', Represents build (avlTreeDelete build state node) tree' orphans.tail ∧
      ∀ first ∈ orphans.head?, first ∈ tree'.inorder := by
  obtain ⟨state', tree', represents', ids, -, result⟩ := avlTreeDelete_linked represents member
  rw [result]
  cases orphans with
  | nil => exact ⟨tree', represents', by simp⟩
  | cons first rest =>
      have firstOutside : first ∉ tree'.inorder := fun inside =>
        represents.disjoint first (List.mem_of_mem_erase (ids ▸ inside)) (by simp)
      have some := List.length_pos_of_mem member
      have room' : tree'.inorder.length < capacity build := by
        rw [ids, List.length_erase_of_mem member]
        omega
      obtain ⟨tree₂, represents₂, linked⟩ := represents'.insert_links
        (represents.orphansAt.ne_zero first (by simp)) firstOutside
        (List.nodup_cons.mp represents.orphansAt.unique).1 room'
      exact ⟨tree₂, represents₂, by simpa using linked⟩

private theorem Represents.firstOrphanId_eq_zero
    (represents : Represents build state tree orphans) :
    state.tree.firstOrphanId = 0 ↔ orphans = [] := by
  rw [represents.orphansAt.first]
  cases orphans with
  | nil => simp
  | cons first rest => simpa using represents.orphansAt.ne_zero first (by simp)

end Insertion

/-! ## Runs over a small array -/

/-- The call names elements of an array of the given size. -/
def Op.Over (size : Nat) : Op → Prop
  | .insert node _ => node ≤ size
  | .delete _ => True
  | .popMin => True
  | .popMax => True

/-- The sessions over an array of the given size. -/
def sessionsOver (build : Build) (size : Nat) : Machine Session (Op × Nat) :=
  (sessions build).restrict fun _ label => label.1.Over size

/-- All held nodes are elements of the array, and all of them are in the tree. -/
structure Housed (build : Build) (size : Nat) (session : Session) (tree : BinaryTree Nat) :
    Prop where
  holds : Holds build session tree []
  elements : ∀ id ∈ session.held, id ≤ size

section Housed

variable {build : Build} {size : Nat} {session : Session} {tree : BinaryTree Nat}

private theorem Housed.length_le (housed : Housed build size session tree) :
    tree.inorder.length ≤ size := by
  have unique := housed.holds.represents.treeAt.unique
  have inArray : tree.inorder ⊆ List.range' 1 size := by
    intro id inside
    have nonzero := housed.holds.represents.treeAt.linked.ne_zero id inside
    have small := housed.elements id (housed.holds.mem_held.mpr (.inl inside))
    rw [List.mem_range'_1]
    omega
  simpa using (List.subperm_of_subset unique inArray).length_le

/-- A call after which the orphan list is empty keeps all nodes housed. -/
theorem Housed.of_noOrphan {next : Session} (kept : ∃ tree' orphans', Holds build next tree' orphans')
    (none : next.state.tree.firstOrphanId = 0) (elements : ∀ id ∈ next.held, id ≤ size) :
    ∃ tree', Housed build size next tree' := by
  obtain ⟨tree', orphans', holds⟩ := kept
  obtain rfl := holds.represents.firstOrphanId_eq_zero.mp none
  exact ⟨tree', holds, elements⟩

private theorem Housed.delete_noOrphan (housed : Housed build size session tree)
    (room : size ≤ capacity build) {node : Nat} (member : node ∈ tree.inorder) :
    (avlTreeDelete build session.state node).tree.firstOrphanId = 0 := by
  obtain ⟨tree', represents, -⟩ := housed.holds.represents.delete_adopts member
    (housed.length_le.trans room)
  exact represents.firstOrphanId_eq_zero.mpr rfl

private theorem Housed.pop_noOrphan (housed : Housed build size session tree)
    (room : size ≤ capacity build) {extreme : Nat}
    (asked : extreme = avlTreeMin build session.state ∨ extreme = avlTreeMax build session.state) :
    (if extreme = 0 then session.state else avlTreeDelete build session.state
      extreme).tree.firstOrphanId = 0 := by
  rcases housed.holds.extreme asked with ⟨-, rfl⟩ | ⟨member, present⟩
  · exact housed.holds.represents.firstOrphanId_eq_zero.mpr rfl
  · rw [if_neg present]
    exact housed.delete_noOrphan room member

/-- While the array fits into the capacity, no call creates an orphan. -/
theorem Housed.step (housed : Housed build size session tree) (room : size < capacity build)
    {label : Op × Nat} {next : Session} (moved : (sessionsOver build size).step session label next) :
    ∃ tree', Housed build size next tree' := by
  obtain ⟨inArray, stepped⟩ := moved
  have kept := housed.holds.step stepped
  obtain ⟨permitted, -, rfl⟩ := stepped
  rcases label with ⟨op, result⟩
  cases op with
  | insert node record =>
      apply Housed.of_noOrphan kept
      · have fresh : node ∉ tree.inorder := fun inside =>
          permitted.2 (housed.holds.mem_held.mpr (.inl inside))
        obtain ⟨tree', represents, -⟩ :=
          (housed.holds.fill_represents record permitted.2).insert_links permitted.1 fresh (by simp)
            (lt_of_le_of_lt housed.length_le room)
        exact represents.firstOrphanId_eq_zero.mpr rfl
      · intro id inside
        rcases List.mem_cons.mp inside with rfl | inside
        · exact inArray
        · exact housed.elements id inside
  | delete node =>
      apply Housed.of_noOrphan kept
      · rcases housed.holds.mem_held.mp permitted with inTree | inOrphans
        · exact housed.delete_noOrphan room.le inTree
        · cases inOrphans
      · exact fun id inside => housed.elements id (List.mem_of_mem_erase inside)
  | popMin =>
      apply Housed.of_noOrphan kept
      · exact housed.pop_noOrphan room.le (.inl rfl)
      · exact fun id inside => housed.elements id (List.mem_of_mem_erase inside)
  | popMax =>
      apply Housed.of_noOrphan kept
      · exact housed.pop_noOrphan room.le (.inr rfl)
      · exact fun id inside => housed.elements id (List.mem_of_mem_erase inside)

theorem Housed.of_reachable (room : size < capacity build)
    (reachable : (sessionsOver build size).Reachable session) :
    ∃ tree, Housed build size session tree := by
  apply reachable.invariant fun session => ∃ tree, Housed build size session tree
  · rintro _ ⟨arr, rfl⟩
    exact ⟨.nil, .init arr, by simp [Session.init]⟩
  · intro session label next found moved
    obtain ⟨tree, housed⟩ := found
    exact housed.step room moved

end Housed

/-! ## No orphans -/

/-- Insertions below the capacity, those of a deletion included. -/
structure RoomBelowCapacity (build : Build) (session : Session) (tree : BinaryTree Nat)
    (orphans : List Nat) : Prop where
  wellFormed : WellFormed build session tree orphans
  insert : tree.inorder.length < Nat.fib (build.maxAvlHeight + 2) - 1 →
    ∀ node record, node ≠ 0 → node ∉ session.held → ∃ tree',
      Represents build (avlTreeInsert build (session.state.fill node record) node) tree' orphans ∧
        node ∈ tree'.inorder
  adopt : tree.inorder.length ≤ Nat.fib (build.maxAvlHeight + 2) - 1 →
    ∀ node ∈ tree.inorder, ∃ tree',
      Represents build (avlTreeDelete build session.state node) tree' orphans.tail ∧
        ∀ first ∈ orphans.head?, first ∈ tree'.inorder

/-- A node of the held ones that comes first in an order on keys, null only where
nothing is held. -/
def Extreme (session : Session) (Before : Nat → Nat → Prop) (node : Nat) : Prop :=
  (session.held = [] ∧ node = 0) ∨
    (node ∈ session.held ∧
      ∀ id ∈ session.held, Before (session.state.arr node).key (session.state.arr id).key)

structure NoOrphans (build : Build) (session : Session) : Prop where
  empty : session.state.tree.firstOrphanId = 0
  unflagged : ∀ id ∈ session.held, (session.state.arr id).isOrphan = false
  popMin : Extreme session (· ≤ ·) (avlTreePopMin build session.state).2
  popMax : Extreme session (· ≥ ·) (avlTreePopMax build session.state).2

private theorem Holds.roomBelowCapacity {build : Build} {session : Session} {tree : BinaryTree Nat}
    {orphans : List Nat} (holds : Holds build session tree orphans) :
    RoomBelowCapacity build session tree orphans := by
  refine ⟨holds.wellFormed, ?_, ?_⟩
  · intro room node record present fresh
    exact (holds.fill_represents record fresh).insert_links present
      (fun inside => fresh (holds.mem_held.mpr (.inl inside)))
      (fun inside => fresh (holds.mem_held.mpr (.inr inside))) room
  · intro room node member
    exact holds.represents.delete_adopts member room

private theorem Housed.noOrphans {build : Build} {size : Nat} {session : Session}
    {tree : BinaryTree Nat}
    (housed : Housed build size session tree) : NoOrphans build session := by
  have represents := housed.holds.represents
  have treeAt := represents.treeAt
  have mem_held : ∀ id, id ∈ session.held ↔ id ∈ tree.inorder := by
    intro id
    simp [housed.holds.mem_held]
  have nothing : tree.inorder = [] → session.held = [] := by
    intro empty
    simpa [empty] using housed.holds.held
  refine ⟨represents.firstOrphanId_eq_zero.mpr rfl, ?_, ?_, ?_⟩
  · exact fun id inside => treeAt.plain id ((mem_held id).mp inside)
  · change Extreme session (· ≤ ·) (avlTreeMin build session.state)
    rw [avlTreeMin_eq represents]
    have sorted := treeAt.sorted
    cases ids : tree.inorder with
    | nil => exact .inl ⟨nothing ids, rfl⟩
    | cons first rest =>
        rw [ids] at sorted
        refine .inr ⟨(mem_held _).mpr (by simp [ids]), ?_⟩
        intro id inside
        rcases List.mem_cons.mp (ids ▸ (mem_held id).mp inside) with rfl | inside
        · exact le_rfl
        · exact (List.pairwise_cons.mp sorted).1 id inside
  · change Extreme session (· ≥ ·) (avlTreeMax build session.state)
    rw [avlTreeMax_eq represents]
    have sorted := treeAt.sorted
    rcases List.eq_nil_or_concat' tree.inorder with ids | ⟨front, last, ids⟩
    · exact .inl ⟨nothing ids, by rw [ids]; rfl⟩
    · rw [ids] at sorted
      rw [ids, List.getLastD_concat]
      refine .inr ⟨(mem_held _).mpr (by simp [ids]), ?_⟩
      intro id inside
      rcases List.mem_append.mp (ids ▸ (mem_held id).mp inside) with inside | inside
      · exact (List.pairwise_append.mp sorted).2.2 id inside last (by simp)
      · rw [List.mem_singleton.mp inside]

/-- Below the capacity nothing is orphaned, and an array of at most 65536 elements
stays below that of the default height. -/
theorem sessions_below_capacity :
    (∀ (build : Build) (session : Session), (sessions build).Reachable session →
      ∃ tree orphans, RoomBelowCapacity build session tree orphans) ∧
    ∀ (build : Build) (size : Nat) (session : Session), build.maxAvlHeight = 23 →
      size ≤ 65536 → (sessionsOver build size).Reachable session → NoOrphans build session := by
  constructor
  · intro build session reachable
    obtain ⟨tree, orphans, holds⟩ := Holds.of_reachable reachable
    exact ⟨tree, orphans, holds.roomBelowCapacity⟩
  · intro build size session height small reachable
    have room : size < capacity build := by
      have threads : Nat.fib 25 = 75025 := by decide +kernel
      rw [capacity, height, threads]
      omega
    obtain ⟨tree, housed⟩ := Housed.of_reachable room reachable
    exact housed.noOrphans

def defaultBuild : Build :=
  { maxAvlHeight := 23, avlCaching := true, height_pos := Nat.succ_pos 22 }

theorem sessions_below_capacity_default : NoOrphans defaultBuild (rebalanced defaultBuild) := by
  have inArray : ∀ label ∈ rebalancing, label.1.Over 65536 := by
    simp [rebalancing, Op.Over]
  have run := (rebalanced_run defaultBuild).restrict fun label member _ => inArray label member
  exact sessions_below_capacity.2 defaultBuild 65536 _ rfl le_rfl ⟨_, _, ⟨_, rfl⟩, run⟩

end Ghost.Avl
