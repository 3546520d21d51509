import Ghost.Avl.Deletion
import Ghost.Lib.Machine

/-!
# Sessions

A session is one life of a tree: it starts with `avl_tree_init` over any array
and goes on with any sequence of permitted calls. Two histories are recorded
beside the state: which nodes the structure holds, and the order in which the
nodes of the tree were linked into it.
-/

set_option autoImplicit false

namespace Ghost.Avl

open Lib

inductive Op where
  /-- The caller fills in the node, its key included, and inserts it. -/
  | insert (node : Nat) (record : AvlNode)
  | delete (node : Nat)
  | popMin
  | popMax

/-- The caller's write to a node it owns. -/
def AvlState.fill (state : AvlState) (node : Nat) (record : AvlNode) : AvlState :=
  { state with arr := state.arr.modify node fun _ => record }

/-- One call: the state afterwards and the node returned, zero where the
function returns nothing or null. -/
def Op.call (build : Build) (state : AvlState) : Op → AvlState × Nat
  | .insert node record => (avlTreeInsert build (state.fill node record) node, 0)
  | .delete node => (avlTreeDelete build state node, 0)
  | .popMin => avlTreePopMin build state
  | .popMax => avlTreePopMax build state

structure Session where
  state : AvlState
  held : List Nat
  linkOrder : List Nat

def Session.init (arr : Arr) : Session :=
  { state := { arr := arr, tree := avlTreeInit }, held := [], linkOrder := [] }

/-- Callers insert only nodes that are not held and delete only held ones. -/
def Op.Permitted (held : List Nat) : Op → Prop
  | .insert node _ => node ≠ 0 ∧ node ∉ held
  | .delete node => node ∈ held
  | .popMin => True
  | .popMax => True

def Op.heldAfter (held : List Nat) (result : Nat) : Op → List Nat
  | .insert node _ => node :: held
  | .delete node => held.erase node
  | .popMin => held.erase result
  | .popMax => held.erase result

/-- Nodes that left are dropped; a held node that is no orphan any more, and was
not in the tree before, has just been linked. -/
def linkOrderAfter (linkOrder held : List Nat) (arr : Arr) : List Nat :=
  linkOrder.filter (· ∈ held) ++
    held.filter fun id => (arr id).isOrphan = false ∧ id ∉ linkOrder

def Session.after (session : Session) (build : Build) (op : Op) : Session :=
  let called := op.call build session.state
  let held := op.heldAfter session.held called.2
  { state := called.1, held := held
    linkOrder := linkOrderAfter session.linkOrder held called.1.arr }

/-- The sessions of one build. A label is a call with the node it returned. -/
def sessions (build : Build) : Machine Session (Op × Nat) where
  initial session := ∃ arr, session = .init arr
  step session label next :=
    label.1.Permitted session.held ∧ (label.1.call build session.state).2 = label.2 ∧
      next = session.after build label.1

theorem sessions_deterministic {build : Build} {first last last' : Session}
    {labels : List (Op × Nat)} (run : (sessions build).Run first labels last)
    (run' : (sessions build).Run first labels last') : last = last' := by
  refine run.unique ?_ run'
  rintro session label next next' ⟨-, -, rfl⟩ ⟨-, -, rfl⟩
  rfl

/-! ## The session invariant -/

/-- Nodes of one key stand in the tree in the order they were linked. -/
def TiesInOrder (arr : Arr) (ids linkOrder : List Nat) : Prop :=
  ∀ key, ids.filter (fun id => (arr id).key = key) = linkOrder.filter fun id => (arr id).key = key

/-- Everything that holds of a session between calls. -/
structure Holds (build : Build) (session : Session) (tree : BinaryTree Nat)
    (orphans : List Nat) : Prop where
  represents : Represents build session.state tree orphans
  supplied : tree = .nil → orphans = []
  held : session.held.Perm (tree.inorder ++ orphans)
  linked : session.linkOrder.Perm tree.inorder
  ties : TiesInOrder session.state.arr tree.inorder session.linkOrder

private theorem Represents.nodup {build : Build} {state : AvlState} {tree : BinaryTree Nat}
    {orphans : List Nat} (represents : Represents build state tree orphans) :
    (tree.inorder ++ orphans).Nodup :=
  List.nodup_append.mpr ⟨represents.treeAt.unique, represents.orphansAt.unique,
    fun id inTree _ inOrphans same => represents.disjoint id inTree (same ▸ inOrphans)⟩

private theorem TiesInOrder.congr {arr arr' : Arr} {ids linkOrder : List Nat}
    (ties : TiesInOrder arr ids linkOrder) (same : ∀ id ∈ ids, (arr' id).key = (arr id).key)
    (linked : linkOrder.Perm ids) : TiesInOrder arr' ids linkOrder := by
  intro key
  have idsSame : ids.filter (fun id => (arr' id).key = key) =
      ids.filter fun id => (arr id).key = key :=
    List.filter_congr fun id inside => by rw [same id inside]
  have orderSame : linkOrder.filter (fun id => (arr' id).key = key) =
      linkOrder.filter fun id => (arr id).key = key :=
    List.filter_congr fun id inside => by rw [same id (linked.subset inside)]
  rw [idsSame, orderSame, ties key]

private theorem TiesInOrder.erase {arr : Arr} {ids linkOrder : List Nat}
    (ties : TiesInOrder arr ids linkOrder) (unique : ids.Nodup) (linked : linkOrder.Perm ids)
    (node : Nat) : TiesInOrder arr (ids.erase node) (linkOrder.erase node) := by
  intro key
  rw [unique.erase_eq_filter, (linked.nodup_iff.mpr unique).erase_eq_filter, List.filter_comm,
    ties key, List.filter_comm]

/-- A node placed after its equals is the last linked of its key. -/
private theorem TiesInOrder.placed {arr : Arr} {ids ids' linkOrder : List Nat} {node : Nat}
    (ties : TiesInOrder arr ids linkOrder) (placed : PlacedByKey arr node ids ids') :
    TiesInOrder arr ids' (linkOrder ++ [node]) := by
  obtain ⟨low, high, rfl, rfl, -, highLt⟩ := placed
  intro key
  have old := ties key
  simp only [List.filter_append, List.filter_cons, List.filter_nil] at old ⊢
  rw [← old]
  by_cases same : (arr node).key = key
  · have none : high.filter (fun id => decide ((arr id).key = key)) = [] := by
      rw [List.filter_eq_nil_iff]
      intro id inside
      have lt := highLt id inside
      simp only [decide_eq_true_eq]
      omega
    simp [same, none]
  · simp [same]

/-- The link order after a call, given what of it is kept. -/
private theorem linkOrderAfter_settled {arr : Arr} {ids ids' orphans' held' linkOrder kept : List Nat}
    (unique : (ids' ++ orphans').Nodup) (held : held'.Perm (ids' ++ orphans'))
    (plain : ∀ id ∈ ids', (arr id).isOrphan = false)
    (flagged : ∀ id ∈ orphans', (arr id).isOrphan = true)
    (keeps : linkOrder.filter (· ∈ held') = kept) (linked : kept.Perm ids)
    (ties : TiesInOrder arr ids kept)
    (outcome : ids' = ids ∨ ∃ node, node ∉ linkOrder ∧ PlacedByKey arr node ids ids') :
    (linkOrderAfter linkOrder held' arr).Perm ids' ∧
      TiesInOrder arr ids' (linkOrderAfter linkOrder held' arr) := by
  have keptOld : ∀ id ∈ ids, id ∈ linkOrder := fun id inside =>
    List.mem_of_mem_filter (keeps ▸ linked.mem_iff.mpr inside)
  have isNew : ∀ id ∈ held', ((arr id).isOrphan = false ↔ id ∈ ids') := by
    intro id inside
    rcases List.mem_append.mp (held.mem_iff.mp inside) with inTree | inOrphans
    · simp [plain id inTree, inTree]
    · have notTree : id ∉ ids' := fun inTree => by
        have absurdFlag := plain id inTree
        rw [flagged id inOrphans] at absurdFlag
        simp at absurdFlag
      simp [flagged id inOrphans, notTree]
  unfold linkOrderAfter
  rw [keeps]
  rcases outcome with rfl | ⟨node, fresh, placed⟩
  · have none : held'.filter (fun id => (arr id).isOrphan = false ∧ id ∉ linkOrder) = [] := by
      rw [List.filter_eq_nil_iff]
      intro id inside
      simp only [decide_eq_true_eq, not_and, not_not, isNew id inside]
      exact keptOld id
    rw [none, List.append_nil]
    exact ⟨linked, ties⟩
  · obtain ⟨low, high, old, new, -⟩ := id placed
    have single : held'.filter (fun id => (arr id).isOrphan = false ∧ id ∉ linkOrder) = [node] := by
      have isNode : ∀ id ∈ held',
          decide ((arr id).isOrphan = false ∧ id ∉ linkOrder) = decide (id = node) := by
        intro id inside
        rw [decide_eq_decide, isNew id inside, new]
        refine ⟨fun added => ?_, ?_⟩
        · by_contra other
          refine added.2 (keptOld id ?_)
          rw [old]
          simpa [other] using added.1
        · rintro rfl
          exact ⟨by simp, fresh⟩
      have member : node ∈ held' := held.mem_iff.mpr (by simp [new])
      rw [List.filter_congr isNode, List.filter_eq,
        List.count_eq_one_of_mem (held.nodup_iff.mpr unique) member]
      rfl
    rw [single]
    refine ⟨(linked.append_right [node]).trans ?_, ties.placed placed⟩
    rw [old, new, List.append_assoc]
    exact (List.perm_append_singleton node high).append_left low

/-- The session invariant after an insertion that leads from `ids` and `orphans`,
whose link order is what is kept of the old one. -/
private theorem Holds.of_insertion {build : Build} {state : AvlState} {tree : BinaryTree Nat}
    {orphans held' linkOrder kept : List Nat} {node : Nat}
    (represents : Represents build state tree orphans) (present : node ≠ 0)
    (fresh : node ∉ tree.inorder) (notOrphan : node ∉ orphans) (notLinked : node ∉ linkOrder)
    (held : held'.Perm (node :: (tree.inorder ++ orphans)))
    (keeps : linkOrder.filter (· ∈ held') = kept) (linked : kept.Perm tree.inorder)
    (ties : TiesInOrder state.arr tree.inorder kept) :
    ∃ tree' orphans', Holds build
      { state := avlTreeInsert build state node, held := held'
        linkOrder := linkOrderAfter linkOrder held' (avlTreeInsert build state node).arr }
      tree' orphans' := by
  obtain ⟨tree', orphans', represents', keys, nonempty, outcome⟩ :=
    avlTreeInsert_inserted represents present fresh notOrphan
  have ties' : TiesInOrder (avlTreeInsert build state node).arr tree.inorder kept :=
    ties.congr (fun id _ => keys id) linked
  have held₂ : held'.Perm (tree'.inorder ++ orphans') := by
    refine held.trans ?_
    rcases outcome with ⟨-, ⟨low, high, old, new, -⟩, rfl⟩ | ⟨-, rfl, rfl⟩
    · rw [old, new, List.append_assoc, List.append_assoc, List.cons_append]
      exact List.perm_middle.symm
    · exact List.perm_middle.symm
  obtain ⟨linked', ties''⟩ := linkOrderAfter_settled represents'.nodup held₂
    represents'.treeAt.plain represents'.orphansAt.flagged keeps linked ties' (by
      rcases outcome with ⟨-, ⟨low, high, old, new, lowLe, highLt⟩, -⟩ | ⟨-, rfl, -⟩
      · refine .inr ⟨node, notLinked, low, high, old, new, ?_, ?_⟩
        · simpa only [keys] using lowLe
        · simpa only [keys] using highLt
      · exact .inl rfl)
  exact ⟨tree', orphans', represents', fun empty => absurd empty nonempty, held₂, linked', ties''⟩

section Calls

variable {build : Build} {session : Session} {tree : BinaryTree Nat} {orphans : List Nat}

theorem Holds.mem_held (holds : Holds build session tree orphans) {id : Nat} :
    id ∈ session.held ↔ id ∈ tree.inorder ∨ id ∈ orphans := by
  rw [holds.held.mem_iff, List.mem_append]

private theorem Holds.keeps_all (holds : Holds build session tree orphans) {held' : List Nat}
    (kept : ∀ id ∈ tree.inorder, id ∈ held') :
    session.linkOrder.filter (· ∈ held') = session.linkOrder := by
  rw [List.filter_eq_self]
  intro id inside
  exact decide_eq_true (kept id (holds.linked.mem_iff.mp inside))

/-- A call that leaves the tree as it was. -/
private theorem Holds.of_unchanged (holds : Holds build session tree orphans) {state' : AvlState}
    {orphans' held' : List Nat} (represents : Represents build state' tree orphans')
    (keys : ∀ id ∈ tree.inorder, (state'.arr id).key = (session.state.arr id).key)
    (supplied : tree = .nil → orphans' = []) (held : held'.Perm (tree.inorder ++ orphans')) :
    Holds build
      { state := state', held := held'
        linkOrder := linkOrderAfter session.linkOrder held' state'.arr } tree orphans' := by
  obtain ⟨linked, ties⟩ := linkOrderAfter_settled represents.nodup held represents.treeAt.plain
    represents.orphansAt.flagged
    (holds.keeps_all fun id inside => held.mem_iff.mpr (List.mem_append_left _ inside)) holds.linked
    (holds.ties.congr keys holds.linked) (.inl rfl)
  exact ⟨represents, supplied, held, linked, ties⟩

/-- Filling in a node that is not held is invisible. -/
theorem Holds.fill_represents (holds : Holds build session tree orphans) {node : Nat}
    (record : AvlNode) (fresh : node ∉ session.held) :
    Represents build (session.state.fill node record) tree orphans := by
  refine holds.represents.congr fun id inside =>
    session.state.arr.modify_of_ne node id (fun _ => record) ?_
  rintro rfl
  exact fresh (holds.mem_held.mpr inside)

private theorem Holds.insert (holds : Holds build session tree orphans) {node : Nat}
    (record : AvlNode)
    (present : node ≠ 0) (fresh : node ∉ session.held) :
    ∃ tree' orphans', Holds build (session.after build (.insert node record)) tree' orphans' := by
  have notTree : node ∉ tree.inorder := fun inside => fresh (holds.mem_held.mpr (.inl inside))
  have notOrphan : node ∉ orphans := fun inside => fresh (holds.mem_held.mpr (.inr inside))
  have filled : ∀ id, id ≠ node → (session.state.fill node record).arr id = session.state.arr id :=
    fun id different => session.state.arr.modify_of_ne node id (fun _ => record) different
  refine Holds.of_insertion (holds.fill_represents record fresh) present notTree notOrphan
    (fun inside => notTree (holds.linked.mem_iff.mp inside)) (holds.held.cons node)
    (holds.keeps_all fun id inside =>
      List.mem_cons_of_mem node (holds.mem_held.mpr (.inl inside))) holds.linked ?_
  exact holds.ties.congr
    (fun id inside => by rw [filled id fun same => notTree (same ▸ inside)]) holds.linked

private theorem Holds.deleteOrphan (holds : Holds build session tree orphans) {node : Nat}
    (member : node ∈ orphans) :
    Holds build
      { state := avlTreeDelete build session.state node, held := session.held.erase node
        linkOrder := linkOrderAfter session.linkOrder (session.held.erase node)
          (avlTreeDelete build session.state node).arr } tree (orphans.erase node) := by
  obtain ⟨represents, keys⟩ := avlTreeDelete_orphan holds.represents member
  have notTree : node ∉ tree.inorder := fun inside => holds.represents.disjoint node inside member
  refine holds.of_unchanged represents (fun id _ => keys id) ?_ ?_
  · intro empty
    rw [holds.supplied empty] at member
    simp at member
  · rw [← List.erase_append_right _ notTree]
    exact holds.held.erase node

private theorem Holds.deleteLinked (holds : Holds build session tree orphans) {node : Nat}
    (member : node ∈ tree.inorder) :
    ∃ tree' orphans', Holds build
      { state := avlTreeDelete build session.state node, held := session.held.erase node
        linkOrder := linkOrderAfter session.linkOrder (session.held.erase node)
          (avlTreeDelete build session.state node).arr } tree' orphans' := by
  obtain ⟨state', tree', represents, ids, keys, result⟩ :=
    avlTreeDelete_linked holds.represents member
  have unique := holds.represents.treeAt.unique
  have orderUnique := holds.linked.nodup_iff.mpr unique
  have held : (session.held.erase node).Perm (tree'.inorder ++ orphans) := by
    rw [ids, ← List.erase_append_left _ member]
    exact holds.held.erase node
  have keeps : session.linkOrder.filter (· ∈ session.held.erase node) =
      session.linkOrder.erase node := by
    rw [orderUnique.erase_eq_filter]
    refine List.filter_congr fun id inside => ?_
    have inTree := holds.linked.mem_iff.mp inside
    have heldUnique := holds.held.nodup_iff.mpr holds.represents.nodup
    rw [Bool.eq_iff_iff]
    simp [heldUnique.mem_erase_iff, holds.mem_held, inTree]
  have linked : (session.linkOrder.erase node).Perm tree'.inorder :=
    ids ▸ holds.linked.erase node
  have ties : TiesInOrder state'.arr tree'.inorder (session.linkOrder.erase node) :=
    (ids ▸ holds.ties.erase unique holds.linked node).congr (fun id _ => keys id) linked
  rw [result]
  cases orphans with
  | nil =>
      obtain ⟨linked', ties'⟩ := linkOrderAfter_settled
        represents.nodup held represents.treeAt.plain represents.orphansAt.flagged keeps linked ties
        (.inl rfl)
      exact ⟨tree', [], represents, fun _ => rfl, held, linked', ties'⟩
  | cons first rest =>
      have firstHeld := holds.represents.orphansAt
      have firstOutside : first ∉ tree.inorder := fun inside =>
        holds.represents.disjoint first inside (by simp)
      refine Holds.of_insertion represents (firstHeld.ne_zero first (by simp)) ?_
        (List.nodup_cons.mp firstHeld.unique).1
        (fun inside => firstOutside (holds.linked.mem_iff.mp inside)) (held.trans List.perm_middle)
        keeps linked ties
      exact fun inside => firstOutside (List.mem_of_mem_erase (ids ▸ inside))

private theorem Holds.delete (holds : Holds build session tree orphans) {node : Nat}
    (member : node ∈ session.held) :
    ∃ tree' orphans', Holds build (session.after build (.delete node)) tree' orphans' := by
  rcases holds.mem_held.mp member with inTree | inOrphans
  · exact holds.deleteLinked inTree
  · exact ⟨tree, _, holds.deleteOrphan inOrphans⟩

/-- Both builds answer with the first node of the tree. -/
theorem avlTreeMin_eq {state : AvlState} (represents : Represents build state tree orphans) :
    avlTreeMin build state = tree.inorder.headD 0 := by
  unfold avlTreeMin avlMinNodeId
  split
  · next caching => exact (represents.cache caching).minId
  · rw [represents.treeAt.root]
    exact minLoop_eq represents.treeAt.linked represents.treeAt.bounded build.height_pos

theorem avlTreeMax_eq {state : AvlState} (represents : Represents build state tree orphans) :
    avlTreeMax build state = tree.inorder.getLastD 0 := by
  unfold avlTreeMax avlMaxNodeId
  split
  · next caching => exact (represents.cache caching).maxId
  · rw [represents.treeAt.root]
    exact maxLoop_eq represents.treeAt.linked represents.treeAt.bounded build.height_pos

private theorem headD_mem {ids : List Nat} (nonempty : ids ≠ []) : ids.headD 0 ∈ ids := by
  cases ids with
  | nil => exact absurd rfl nonempty
  | cons first rest => simp

private theorem getLastD_mem {ids : List Nat} (nonempty : ids ≠ []) : ids.getLastD 0 ∈ ids := by
  rw [List.getLastD_eq_getLast?, List.getLast?_eq_some_getLast nonempty]
  exact List.getLast_mem nonempty

/-- The extreme that a pop asks for: a tree node, or null for the empty tree. -/
theorem Holds.extreme (holds : Holds build session tree orphans) {extreme : Nat}
    (asked : extreme = avlTreeMin build session.state ∨ extreme = avlTreeMax build session.state) :
    (tree = .nil ∧ extreme = 0) ∨ (extreme ∈ tree.inorder ∧ extreme ≠ 0) := by
  rw [avlTreeMin_eq holds.represents, avlTreeMax_eq holds.represents] at asked
  by_cases empty : tree = .nil
  · subst empty
    exact .inl ⟨rfl, by simpa using asked⟩
  · have nonempty : tree.inorder ≠ [] := BinaryTree.inorder_eq_nil.not.mpr empty
    have member : extreme ∈ tree.inorder := by
      rcases asked with rfl | rfl
      · exact headD_mem nonempty
      · exact getLastD_mem nonempty
    exact .inr ⟨member, holds.represents.treeAt.linked.ne_zero _ member⟩

private theorem Holds.popExtreme (holds : Holds build session tree orphans) {extreme : Nat}
    (asked : extreme = avlTreeMin build session.state ∨ extreme = avlTreeMax build session.state)
    {state' : AvlState}
    (popped : state' = if extreme = 0 then session.state
      else avlTreeDelete build session.state extreme) :
    ∃ tree' orphans', Holds build
      { state := state', held := session.held.erase extreme
        linkOrder := linkOrderAfter session.linkOrder (session.held.erase extreme) state'.arr }
      tree' orphans' := by
  rcases holds.extreme asked with ⟨-, rfl⟩ | ⟨member, present⟩
  · obtain rfl : state' = session.state := popped
    have absent : 0 ∉ session.held := fun inside =>
      holds.represents.ne_zero 0 (holds.mem_held.mp inside) rfl
    rw [List.erase_of_not_mem absent]
    exact ⟨tree, orphans, holds.of_unchanged holds.represents (fun _ _ => rfl) holds.supplied
      holds.held⟩
  · obtain rfl : state' = avlTreeDelete build session.state extreme := popped.trans (if_neg present)
    exact holds.deleteLinked member

/-- Every permitted call keeps the invariant. -/
theorem Holds.step (holds : Holds build session tree orphans) {label : Op × Nat} {next : Session}
    (moved : (sessions build).step session label next) :
    ∃ tree' orphans', Holds build next tree' orphans' := by
  obtain ⟨permitted, -, rfl⟩ := moved
  rcases label with ⟨op, result⟩
  cases op with
  | insert node record => exact holds.insert record permitted.1 permitted.2
  | delete node => exact holds.delete permitted
  | popMin => exact holds.popExtreme (.inl rfl) rfl
  | popMax => exact holds.popExtreme (.inr rfl) rfl

theorem Holds.init (arr : Arr) : Holds build (.init arr) .nil [] where
  represents :=
    { treeAt := ⟨rfl, trivial, trivial, Nat.zero_le _, .nil, .nil, by simp⟩
      orphansAt := ⟨rfl, trivial, .nil, by simp⟩
      disjoint := by simp
      cache := fun _ => ⟨rfl, rfl, fun absent => absurd rfl absent, fun absent => absurd rfl absent⟩ }
  supplied _ := rfl
  held := .nil
  linked := .nil
  ties _ := rfl

/-- The invariant holds in every reachable session. -/
theorem Holds.of_reachable (reachable : (sessions build).Reachable session) :
    ∃ tree orphans, Holds build session tree orphans := by
  refine reachable.invariant (fun session => ∃ tree orphans,
    Holds build session tree orphans) ?_ ?_
  · rintro _ ⟨arr, rfl⟩
    exact ⟨.nil, [], .init arr⟩
  · intro session label next found moved
    obtain ⟨tree, orphans, holds⟩ := found
    exact holds.step moved

end Calls

/-- Exact balances of a balanced tree stay within one. -/
private theorem Linked.balance_le {arr : Arr} {parent : Nat} {tree : BinaryTree Nat}
    (linked : Linked arr parent tree) (balanced : tree.Balanced) :
    ∀ id ∈ tree.inorder, -1 ≤ (arr id).balance ∧ (arr id).balance ≤ 1 := by
  induction tree generalizing parent with
  | nil => simp
  | node id left right leftIH rightIH =>
      obtain ⟨-, -, -, -, balanceEq, leftLinked, rightLinked⟩ := linked
      obtain ⟨leftLow, rightLow, leftBalanced, rightBalanced⟩ := balanced
      intro other inside
      simp only [BinaryTree.inorder_node, List.mem_append, List.mem_cons] at inside
      rcases inside with inLeft | rfl | inRight
      · exact leftIH leftLinked leftBalanced other inLeft
      · omega
      · exact rightIH rightLinked rightBalanced other inRight

/-- A session whose links spell one balanced tree within the height limit, with
exact balances, and a separate doubly linked list of the orphans. -/
structure WellFormed (build : Build) (session : Session) (tree : BinaryTree Nat)
    (orphans : List Nat) : Prop where
  root : session.state.tree.root = rootId tree
  linked : Linked session.state.arr 0 tree
  unshared : tree.inorder.Nodup
  balance : ∀ id ∈ tree.inorder,
    -1 ≤ (session.state.arr id).balance ∧ (session.state.arr id).balance ≤ 1
  bounded : tree.height ≤ build.maxAvlHeight
  firstOrphan : session.state.tree.firstOrphanId = orphans.headD 0
  orphanLinks : DLinked 0 (fun id => (session.state.arr id).nextOrphanId)
    (fun id => (session.state.arr id).prevOrphanId) 0 orphans
  orphansUnique : orphans.Nodup
  disjoint : ∀ id ∈ tree.inorder, id ∉ orphans
  held : session.held.Perm (tree.inorder ++ orphans)
  flagged : ∀ id, id ∈ orphans ↔ id ∈ session.held ∧ (session.state.arr id).isOrphan = true

theorem Holds.wellFormed {build : Build} {session : Session} {tree : BinaryTree Nat}
    {orphans : List Nat} (holds : Holds build session tree orphans) :
    WellFormed build session tree orphans := by
  obtain ⟨treeAt, orphansAt, disjoint, -⟩ := holds.represents
  refine ⟨treeAt.root, treeAt.linked, treeAt.unique, treeAt.linked.balance_le treeAt.balanced,
    treeAt.bounded, orphansAt.first, orphansAt.linked, orphansAt.unique, disjoint, holds.held, ?_⟩
  intro id
  constructor
  · intro inside
    exact ⟨holds.mem_held.mpr (.inr inside), orphansAt.flagged id inside⟩
  · intro found
    obtain ⟨held, flagged⟩ := found
    rcases holds.mem_held.mp held with inTree | inOrphans
    · rw [treeAt.plain id inTree] at flagged
      cases flagged
    · exact inOrphans

/-- Every reachable session is well formed. -/
theorem sessions_wellFormed {build : Build} {session : Session}
    (reachable : (sessions build).Reachable session) :
    ∃ tree orphans, WellFormed build session tree orphans := by
  obtain ⟨tree, orphans, holds⟩ := Holds.of_reachable reachable
  exact ⟨tree, orphans, holds.wellFormed⟩

/-- Two nodes of one key in a tree that has room for one. -/
def crowdedBuild : Build := { maxAvlHeight := 1, avlCaching := true, height_pos := le_refl 1 }

def crowdedRecord : AvlNode :=
  { key := 7, leftId := 3, rightId := 4, parentId := 5, balance := 6, isOrphan := true
    prevOrphanId := 2, nextOrphanId := 1 }

def crowded : Session :=
  ((Session.init fun _ => crowdedRecord).after crowdedBuild (.insert 1 crowdedRecord)).after
    crowdedBuild (.insert 2 crowdedRecord)

theorem crowded_run : (sessions crowdedBuild).Run (.init fun _ => crowdedRecord)
    [(.insert 1 crowdedRecord, 0), (.insert 2 crowdedRecord, 0)] crowded :=
  .cons ⟨⟨by decide, by decide⟩, rfl, rfl⟩ (.cons ⟨⟨by decide, by decide⟩, rfl, rfl⟩ (.nil _))

theorem crowded_reachable : (sessions crowdedBuild).Reachable crowded :=
  ⟨_, _, ⟨_, rfl⟩, crowded_run⟩

/-- A tree with room for seven nodes. -/
def threeLevels : Build := { maxAvlHeight := 3, avlCaching := true, height_pos := Nat.succ_pos 2 }

def keyed (key : Nat) : AvlNode := { crowdedRecord with key := key }

/-- Three nodes in the order of their keys are rotated. The second one is then at the root, and its
successor below the third one takes its place when it is deleted. -/
def rebalancing : List (Op × Nat) :=
  [(.insert 1 (keyed 10), 0), (.insert 2 (keyed 20), 0), (.insert 3 (keyed 30), 0),
    (.insert 4 (keyed 25), 0), (.delete 2, 0)]

def rebalanced (build : Build) : Session :=
  rebalancing.foldl (fun session label => session.after build label.1) (.init fun _ => crowdedRecord)

theorem rebalanced_run (build : Build) : (sessions build).Run (.init fun _ => crowdedRecord)
    rebalancing (rebalanced build) :=
  .cons ⟨⟨by decide, List.not_mem_nil⟩, rfl, rfl⟩
    (.cons ⟨⟨by decide, (by decide : 2 ∉ [1])⟩, rfl, rfl⟩
      (.cons ⟨⟨by decide, (by decide : 3 ∉ [2, 1])⟩, rfl, rfl⟩
        (.cons ⟨⟨by decide, (by decide : 4 ∉ [3, 2, 1])⟩, rfl, rfl⟩
          (.cons ⟨(by decide : 2 ∈ [4, 3, 2, 1]), rfl, rfl⟩ (.nil _)))))

theorem rebalanced_reachable : (sessions threeLevels).Reachable (rebalanced threeLevels) :=
  ⟨_, _, ⟨_, rfl⟩, rebalanced_run threeLevels⟩

example : (rebalanced threeLevels).state.tree.root = 4 ∧
    ((rebalanced threeLevels).state.arr 4).leftId = 1 ∧
    ((rebalanced threeLevels).state.arr 4).rightId = 3 := by decide

theorem sessions_wellFormed_crowded : ∃ tree orphans, WellFormed crowdedBuild crowded tree orphans :=
  sessions_wellFormed crowded_reachable

/-- A session seen as a key-ordered sequence with a stack of orphans, on which the
calls act as on that pair. The tree is the only one the links spell. -/
structure RefinesSequence (build : Build) (session : Session) (tree : BinaryTree Nat)
    (orphans : List Nat) : Prop where
  represents : Represents build session.state tree orphans
  only : ∀ other, session.state.tree.root = rootId other → Linked session.state.arr 0 other →
    other = tree
  insert : ∀ node record, node ≠ 0 → node ∉ session.held →
    ∃ tree' orphans',
      Represents build (avlTreeInsert build (session.state.fill node record) node)
        tree' orphans' ∧
      InsertedInto build (session.state.fill node record).arr node tree orphans tree' orphans'
  delete : ∀ node ∈ tree.inorder, ∃ state' tree',
    Represents build state' tree' orphans.tail ∧ tree'.inorder = tree.inorder.erase node ∧
    (orphans = [] → avlTreeDelete build session.state node = state') ∧
    ∀ first rest, orphans = first :: rest →
      avlTreeDelete build session.state node = avlTreeInsert build state' first ∧
      ∃ tree₂ orphans₂,
        Represents build (avlTreeDelete build session.state node) tree₂ orphans₂ ∧
        InsertedInto build state'.arr first tree' rest tree₂ orphans₂
  deleteOrphan : ∀ node ∈ orphans,
    Represents build (avlTreeDelete build session.state node) tree (orphans.erase node)
  sorted : tree.inorder.Pairwise fun left right =>
    (session.state.arr left).key ≤ (session.state.arr right).key
  linked : session.linkOrder.Perm tree.inorder
  ties : TiesInOrder session.state.arr tree.inorder session.linkOrder

/-- Every reachable session refines a sorted sequence with orphans. -/
theorem sessions_refinesSequence {build : Build} {session : Session}
    (reachable : (sessions build).Reachable session) :
    ∃ tree orphans, RefinesSequence build session tree orphans := by
  obtain ⟨tree, orphans, holds⟩ := Holds.of_reachable reachable
  have represents := holds.represents
  refine ⟨tree, orphans, represents, ?_, ?_, ?_, ?_, represents.treeAt.sorted, holds.linked,
    holds.ties⟩
  · intro other rootEq linked
    exact linked.unique represents.treeAt.linked (rootEq.symm.trans represents.treeAt.root)
  · intro node record present fresh
    obtain ⟨tree', orphans', represents', -, -, inserted⟩ := avlTreeInsert_inserted
      (holds.fill_represents record fresh) present
      (fun inside => fresh (holds.mem_held.mpr (.inl inside)))
      fun inside => fresh (holds.mem_held.mpr (.inr inside))
    exact ⟨tree', orphans', represents', inserted⟩
  · intro node member
    obtain ⟨state', tree', represents', ids, -, result⟩ := avlTreeDelete_linked represents member
    refine ⟨state', tree', represents', ids, ?_, ?_⟩
    · rintro rfl
      exact result
    · rintro first rest rfl
      have firstOutside : first ∉ tree'.inorder := fun inside =>
        represents.disjoint first (List.mem_of_mem_erase (ids ▸ inside)) (by simp)
      obtain ⟨tree₂, orphans₂, represents₂, -, -, inserted⟩ := avlTreeInsert_inserted represents'
        (represents.orphansAt.ne_zero first (by simp)) firstOutside
        (List.nodup_cons.mp represents.orphansAt.unique).1
      exact ⟨result, tree₂, orphans₂, result ▸ represents₂, inserted⟩
  · exact fun node member => (avlTreeDelete_orphan represents member).1

theorem sessions_refinesSequence_crowded :
    ∃ tree orphans, RefinesSequence crowdedBuild crowded tree orphans :=
  sessions_refinesSequence crowded_reachable

end Ghost.Avl
