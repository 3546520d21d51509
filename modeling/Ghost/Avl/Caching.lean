import Ghost.Avl.Sessions

/-!
# Caching and plain builds

The cache fields are written but never read outside `avl_tree_min` and
`avl_tree_max`, so two builds that differ only in `AVL_CACHING` go through the
same arrays. The cache is exact in every reachable state, hence both builds also
answer alike.
-/

set_option autoImplicit false

namespace Ghost.Avl

open Lib

/-- The same header compiled with or without `AVL_CACHING`. -/
def Build.caching (build : Build) (avlCaching : Bool) : Build :=
  { build with avlCaching := avlCaching }

/-- Two states that agree on everything but the cache fields. -/
structure SameButCache (state state' : AvlState) : Prop where
  arr : state'.arr = state.arr
  root : state'.tree.root = state.tree.root
  firstOrphanId : state'.tree.firstOrphanId = state.tree.firstOrphanId

section Builds

variable {build : Build} {state state' : AvlState} {on off : Bool}

private theorem SameButCache.insertOrphan (same : SameButCache state state') (node : Nat) :
    SameButCache (insertOrphan state node) (insertOrphan state' node) := by
  obtain ⟨arrEq, rootEq, firstEq⟩ := same
  constructor
  · simp only [Avl.insertOrphan, arrEq, firstEq]
  · exact rootEq
  · rfl

private theorem SameButCache.removeOrphan (same : SameButCache state state') (node : Nat) :
    SameButCache (removeOrphan state node) (removeOrphan state' node) := by
  obtain ⟨arrEq, rootEq, firstEq⟩ := same
  constructor
  · simp only [Avl.removeOrphan, arrEq]
  · exact rootEq
  · simp only [Avl.removeOrphan, arrEq, firstEq]

private theorem SameButCache.popFirstOrphan (same : SameButCache state state') :
    SameButCache (popFirstOrphan state).1 (popFirstOrphan state').1 ∧
      (popFirstOrphan state').2 = (popFirstOrphan state).2 := by
  obtain ⟨arrEq, rootEq, firstEq⟩ := same
  simp only [Avl.popFirstOrphan, arrEq, firstEq]
  by_cases none : state.tree.firstOrphanId = 0
  · simp only [none, if_true]
    exact ⟨⟨arrEq, rootEq, firstEq⟩, trivial⟩
  · simp only [none, if_false]
    exact ⟨⟨rfl, rootEq, rfl⟩, trivial⟩

private theorem SameButCache.fill (same : SameButCache state state') (node : Nat)
    (record : AvlNode) : SameButCache (state.fill node record) (state'.fill node record) :=
  ⟨congrArg (Arr.modify · node fun _ => record) same.arr, same.root, same.firstOrphanId⟩

private theorem SameButCache.avlTreeInsert (same : SameButCache state state') (node : Nat) :
    SameButCache (avlTreeInsert (build.caching on) state node)
      (avlTreeInsert (build.caching off) state' node) := by
  obtain ⟨arrEq, rootEq, firstEq⟩ := same
  simp only [Avl.avlTreeInsert, arrEq, rootEq, show (build.caching on).maxAvlHeight =
    build.maxAvlHeight from rfl, show (build.caching off).maxAvlHeight = build.maxAvlHeight from rfl]
  split
  · apply SameButCache.insertOrphan
    exact ⟨rfl, rootEq, firstEq⟩
  · split
    · refine ⟨rfl, ?_, ?_⟩
      · rw [(cacheFirst_root _ _ _ _).1, (cacheFirst_root _ _ _ _).1]
      · rw [(cacheFirst_root _ _ _ _).2, (cacheFirst_root _ _ _ _).2]
        exact firstEq
    · refine ⟨rfl, ?_, ?_⟩
      · rw [(cacheInsert_root _ _ _ _).1, (cacheInsert_root _ _ _ _).1]
      · rw [(cacheInsert_root _ _ _ _).2, (cacheInsert_root _ _ _ _).2]
        exact firstEq

private theorem SameButCache.avlTreeDelete (same : SameButCache state state') (node : Nat) :
    SameButCache (avlTreeDelete (build.caching on) state node)
      (avlTreeDelete (build.caching off) state' node) := by
  have removed := same.removeOrphan node
  obtain ⟨arrEq, rootEq, firstEq⟩ := same
  have header := cacheDelete_root (build.caching on) state.arr state.tree node
  have header' := cacheDelete_root (build.caching off) state.arr state'.tree node
  unfold Avl.avlTreeDelete
  rw [arrEq]
  split
  · exact ⟨congrArg (Arr.setOrphan · node false) removed.arr, removed.root, removed.firstOrphanId⟩
  · dsimp only
    rw [header.1, header'.1, rootEq, show unlinkNode (build.caching off) =
      unlinkNode (build.caching on) from rfl, show (build.caching off).maxAvlHeight =
      (build.caching on).maxAvlHeight from rfl]
    generalize (do
      let unlinked ← unlinkNode (build.caching on) state.arr state.tree.root node
      deleteRetrace (build.caching on).maxAvlHeight unlinked.arr unlinked.root unlinked.x
        unlinked.fromTheLeft) = outcome
    rcases outcome with ⟨arr, root⟩ | ⟨arr, root⟩
    · exact ⟨rfl, rfl, by rw [header.2, header'.2, firstEq]⟩
    · have middle : SameButCache
          { arr := arr
            tree := { cacheDelete (build.caching on) state.arr state.tree node with root := root } }
          { arr := arr
            tree := { cacheDelete (build.caching off) state.arr state'.tree node with
              root := root } } :=
        ⟨rfl, rfl, by rw [header.2, header'.2, firstEq]⟩
      obtain ⟨popped, orphanEq⟩ := middle.popFirstOrphan
      dsimp only
      rw [orphanEq]
      split
      · exact popped
      · exact popped.avlTreeInsert _

end Builds

/-! ## Agreement over sessions -/

/-- Equal links spell equal trees, so the extremes agree. -/
private theorem extremes_agree {build build' : Build} {state state' : AvlState}
    {tree tree' : BinaryTree Nat} {orphans orphans' : List Nat}
    (represents : Represents build state tree orphans)
    (represents' : Represents build' state' tree' orphans') (same : SameButCache state state') :
    avlTreeMin build' state' = avlTreeMin build state ∧
      avlTreeMax build' state' = avlTreeMax build state := by
  have linked' := represents'.treeAt.linked
  rw [same.arr] at linked'
  have sameRoot : rootId tree' = rootId tree := by
    rw [← represents.treeAt.root, ← represents'.treeAt.root, same.root]
  obtain rfl := linked'.unique represents.treeAt.linked sameRoot
  rw [avlTreeMin_eq represents, avlTreeMin_eq represents', avlTreeMax_eq represents,
    avlTreeMax_eq represents']
  exact ⟨rfl, rfl⟩

/-- Sessions with one history, in two builds that differ in caching. -/
structure Alike (build : Build) (on off : Bool) (session session' : Session) : Prop where
  state : SameButCache session.state session'.state
  held : session'.held = session.held
  linkOrder : session'.linkOrder = session.linkOrder
  holds : ∃ tree orphans, Holds (build.caching on) session tree orphans
  holds' : ∃ tree orphans, Holds (build.caching off) session' tree orphans

section Agreement

variable {build : Build} {on off : Bool} {session session' : Session}

private theorem Alike.extremes (alike : Alike build on off session session') :
    avlTreeMin (build.caching off) session'.state = avlTreeMin (build.caching on) session.state ∧
      avlTreeMax (build.caching off) session'.state =
        avlTreeMax (build.caching on) session.state := by
  obtain ⟨_, _, holds⟩ := alike.holds
  obtain ⟨_, _, holds'⟩ := alike.holds'
  exact extremes_agree holds.represents holds'.represents alike.state

/-- One call on alike sessions returns the same node and keeps the states alike. -/
private theorem Alike.call (alike : Alike build on off session session') (op : Op) :
    (op.call (build.caching off) session'.state).2 = (op.call (build.caching on) session.state).2 ∧
      SameButCache (op.call (build.caching on) session.state).1
        (op.call (build.caching off) session'.state).1 := by
  obtain ⟨minEq, maxEq⟩ := alike.extremes
  cases op with
  | insert node record => exact ⟨rfl, (alike.state.fill node record).avlTreeInsert node⟩
  | delete node => exact ⟨rfl, alike.state.avlTreeDelete node⟩
  | popMin =>
      simp only [Op.call, avlTreePopMin, minEq, true_and]
      split
      · exact alike.state
      · exact alike.state.avlTreeDelete _
  | popMax =>
      simp only [Op.call, avlTreePopMax, maxEq, true_and]
      split
      · exact alike.state
      · exact alike.state.avlTreeDelete _

private theorem Alike.step (alike : Alike build on off session session') {label : Op × Nat}
    {next : Session} (moved : (sessions (build.caching on)).step session label next) :
    ∃ next', (sessions (build.caching off)).step session' label next' ∧
      Alike build on off next next' := by
  obtain ⟨sameResult, sameState⟩ := alike.call label.1
  obtain ⟨_, _, holds⟩ := alike.holds
  obtain ⟨_, _, holds'⟩ := alike.holds'
  have kept := holds.step moved
  obtain ⟨permitted, returned, rfl⟩ := moved
  have moved' : (sessions (build.caching off)).step session' label
      (session'.after (build.caching off) label.1) :=
    ⟨alike.held ▸ permitted, sameResult.trans returned, rfl⟩
  refine ⟨_, moved', sameState, ?_, ?_, kept, holds'.step moved'⟩
  · simp only [Session.after, sameResult, alike.held]
  · simp only [Session.after, sameResult, alike.held, alike.linkOrder, sameState.arr]

theorem Alike.init (arr : Arr) : Alike build on off (.init arr) (.init arr) :=
  ⟨⟨rfl, rfl, rfl⟩, rfl, rfl, ⟨_, _, .init arr⟩, _, _, .init arr⟩

/-- Both builds take every labelled run together. -/
theorem Alike.run {arr : Arr} {labels : List (Op × Nat)}
    (run : (sessions (build.caching on)).Run (.init arr) labels session) :
    ∃ session', (sessions (build.caching off)).Run (.init arr) labels session' ∧
      Alike build on off session session' :=
  run.simulate (fun _ _ _ _ alike moved => alike.step moved)
    (.init arr)

end Agreement

/-- The cached extremes are what the walks from the root find. -/
structure CacheExact (build : Build) (state : AvlState) : Prop where
  minNull : state.tree.minId = 0 ↔ state.tree.root = 0
  maxNull : state.tree.maxId = 0 ↔ state.tree.root = 0
  min : state.tree.root ≠ 0 →
    state.tree.minId = avlMinNodeId build state.arr state.tree.root ∧
      state.tree.minKey = (state.arr state.tree.minId).key
  max : state.tree.root ≠ 0 →
    state.tree.maxId = avlMaxNodeId build state.arr state.tree.root ∧
      state.tree.maxKey = (state.arr state.tree.maxId).key
  outermost : ∃ tree orphans, Represents build state tree orphans ∧
    state.tree.minId = tree.inorder.headD 0 ∧ state.tree.maxId = tree.inorder.getLastD 0

private theorem Represents.cacheExact {build : Build} {state : AvlState} {tree : BinaryTree Nat}
    {orphans : List Nat} (represents : Represents build state tree orphans)
    (caching : build.avlCaching = true) : CacheExact build state := by
  have treeAt := represents.treeAt
  have cache := represents.cache caching
  have minWalk : avlMinNodeId build state.arr state.tree.root = tree.inorder.headD 0 :=
    treeAt.root ▸ minLoop_eq treeAt.linked treeAt.bounded build.height_pos
  have maxWalk : avlMaxNodeId build state.arr state.tree.root = tree.inorder.getLastD 0 :=
    treeAt.root ▸ maxLoop_eq treeAt.linked treeAt.bounded build.height_pos
  have rootNull : state.tree.root = 0 ↔ tree = .nil :=
    treeAt.root ▸ treeAt.linked.rootId_eq_zero
  have extremeNull : ∀ id ∈ tree.inorder, id ≠ 0 := treeAt.linked.ne_zero
  have idsNull : tree.inorder = [] ↔ tree = .nil := BinaryTree.inorder_eq_nil
  refine ⟨?_, ?_, ?_, ?_, tree, orphans, represents, cache.minId, cache.maxId⟩
  · rw [cache.minId, rootNull, ← idsNull]
    cases ids : tree.inorder with
    | nil => simp
    | cons first rest => simp [extremeNull first (by simp [ids])]
  · rw [cache.maxId, rootNull, ← idsNull]
    rcases List.eq_nil_or_concat' tree.inorder with ids | ⟨front, last, ids⟩
    · simp [ids]
    · simp [ids, extremeNull last (by simp [ids])]
  · intro present
    exact ⟨cache.minId.trans minWalk.symm, cache.minKey (rootNull.not.mp present)⟩
  · intro present
    exact ⟨cache.maxId.trans maxWalk.symm, cache.maxKey (rootNull.not.mp present)⟩

/-- Caching is exact along every run, and no call can tell the builds apart: a
label sequence, results included, is a run of one exactly when it is a run of the
other, and the queries answer alike at its end. -/
theorem caching_agrees (build : Build) (arr : Arr) (labels : List (Op × Nat)) :
    (∀ session, (sessions (build.caching true)).Run (.init arr) labels session →
      CacheExact (build.caching true) session.state) ∧
    ((∃ session, (sessions (build.caching true)).Run (.init arr) labels session) ↔
      ∃ session, (sessions (build.caching false)).Run (.init arr) labels session) ∧
    ∀ session session', (sessions (build.caching true)).Run (.init arr) labels session →
      (sessions (build.caching false)).Run (.init arr) labels session' →
        avlTreeMin (build.caching false) session'.state =
            avlTreeMin (build.caching true) session.state ∧
          avlTreeMax (build.caching false) session'.state =
            avlTreeMax (build.caching true) session.state := by
  refine ⟨fun session run => ?_, ⟨?_, ?_⟩, fun session session' run run' => ?_⟩
  · obtain ⟨tree, orphans, holds⟩ := Holds.of_reachable ⟨_, labels, ⟨arr, rfl⟩, run⟩
    exact holds.represents.cacheExact rfl
  · intro found
    obtain ⟨session, run⟩ := found
    obtain ⟨session', run', -⟩ := Alike.run run
    exact ⟨session', run'⟩
  · intro found
    obtain ⟨session, run⟩ := found
    obtain ⟨session', run', -⟩ := Alike.run run
    exact ⟨session', run'⟩
  · obtain ⟨other, otherRun, alike⟩ := Alike.run run
    obtain rfl := sessions_deterministic run' otherRun
    exact alike.extremes

theorem caching_agrees_crowded :
    CacheExact (crowdedBuild.caching true) crowded.state ∧
      ∃ session, (sessions (crowdedBuild.caching false)).Run (.init fun _ => crowdedRecord)
        [(.insert 1 crowdedRecord, 0), (.insert 2 crowdedRecord, 0)] session :=
  have run := crowded_run
  ⟨(caching_agrees crowdedBuild _ _).1 crowded run,
    (caching_agrees crowdedBuild _ _).2.1.mp ⟨crowded, run⟩⟩

end Ghost.Avl
