import Ghost.Avl.Sessions

/-!
# Defensive exits are dead code

Whatever sequence of calls has led to a session, the next permitted call passes no
assertion that fails, takes no early return and ends each of its loops before the
bound. It then does what the plain operation does.
-/

set_option autoImplicit false

namespace Ghost.Avl

open Lib

/-- One call with its defensive exits. -/
def Op.checkedCall (build : Build) (state : AvlState) : Op → Except Exit (AvlState × Nat)
  | .insert node record => do
      let next ← Checked.avlTreeInsert build (state.fill node record) node
      .ok (next, 0)
  | .delete node => do
      let next ← Checked.avlTreeDelete build state node
      .ok (next, 0)
  | .popMin => Checked.avlTreePopMin build state
  | .popMax => Checked.avlTreePopMax build state

section Calls

variable {build : Build} {session : Session} {tree : BinaryTree Nat} {orphans : List Nat}

private theorem Checked.avlTreeDelete_orphan {state : AvlState} {node : Nat}
    (represents : Represents build state tree orphans) (member : node ∈ orphans) :
    Checked.avlTreeDelete build state node = .ok (Avl.avlTreeDelete build state node) := by
  simp only [Checked.avlTreeDelete, Avl.avlTreeDelete, represents.orphansAt.flagged node member,
    if_true]

private theorem Holds.delete_ends (holds : Holds build session tree orphans) {node : Nat}
    (member : node ∈ session.held) :
    Checked.avlTreeDelete build session.state node =
      .ok (avlTreeDelete build session.state node) := by
  rcases holds.mem_held.mp member with inTree | inOrphans
  · exact Checked.avlTreeDelete_linked holds.represents inTree
  · exact Checked.avlTreeDelete_orphan holds.represents inOrphans

private theorem TreeAt.descents_end {arr : Arr} {root : Nat} (treeAt : TreeAt build arr root tree)
    {id : Nat}
    (starts : id = root ∨ id ∈ tree.inorder) :
    Checked.avlMinNodeId build arr id = .ok (avlMinNodeId build arr id) ∧
      Checked.avlMaxNodeId build arr id = .ok (avlMaxNodeId build arr id) := by
  have subtree : ∃ parent below, id = rootId below ∧ Linked arr parent below ∧
      below.height ≤ build.maxAvlHeight := by
    rcases starts with rfl | member
    · exact ⟨0, tree, treeAt.root, treeAt.linked, treeAt.bounded⟩
    · obtain ⟨context, left, right, rfl⟩ := Context.exists_plug_of_mem member
      obtain ⟨linked, -⟩ := linked_plug.mp ⟨treeAt.root, treeAt.linked⟩
      have depth := Context.length_add_le_heightAt (BinaryTree.node id left right).height context
      rw [← Context.height_plug] at depth
      have bounded := treeAt.bounded
      exact ⟨_, .node id left right, rfl, linked, by omega⟩
  obtain ⟨parent, below, rfl, linked, bounded⟩ := subtree
  have min := Checked.minLoop_eq linked bounded build.height_pos
  have max := Checked.maxLoop_eq linked bounded build.height_pos
  exact ⟨min.trans (congrArg _ (Checked.minLoop_plain min).symm),
    max.trans (congrArg _ (Checked.maxLoop_plain max).symm)⟩

private theorem Holds.extremes_end (holds : Holds build session tree orphans) :
    Checked.avlTreeMin build session.state = .ok (avlTreeMin build session.state) ∧
      Checked.avlTreeMax build session.state = .ok (avlTreeMax build session.state) := by
  obtain ⟨min, max⟩ := holds.represents.treeAt.descents_end (.inl rfl)
  unfold Checked.avlTreeMin Checked.avlTreeMax avlTreeMin avlTreeMax
  split
  · exact ⟨rfl, rfl⟩
  · exact ⟨min, max⟩

private theorem Holds.pop_ends (holds : Holds build session tree orphans) {extreme : Nat}
    (asked : extreme = avlTreeMin build session.state ∨ extreme = avlTreeMax build session.state)
    (present : extreme ≠ 0) :
    Checked.avlTreeDelete build session.state extreme =
      .ok (avlTreeDelete build session.state extreme) := by
  rcases holds.extreme asked with ⟨-, null⟩ | ⟨member, -⟩
  · exact absurd null present
  · exact holds.delete_ends (holds.mem_held.mpr (.inl member))

private theorem Holds.call_ends (holds : Holds build session tree orphans) {op : Op}
    (permitted : op.Permitted session.held) :
    op.checkedCall build session.state = .ok (op.call build session.state) := by
  obtain ⟨minEnds, maxEnds⟩ := holds.extremes_end
  cases op with
  | insert node record =>
      have fresh : node ∉ tree.inorder := fun inside =>
        permitted.2 (holds.mem_held.mpr (.inl inside))
      have ends := Checked.avlTreeInsert_eq (holds.fill_represents record permitted.2) permitted.1
        fresh
      simp only [Op.checkedCall, ends, bind, Except.bind, Op.call]
  | delete node =>
      simp only [Op.checkedCall, holds.delete_ends permitted, bind, Except.bind, Op.call]
  | popMin =>
      simp only [Op.checkedCall, Checked.avlTreePopMin, minEnds, bind, Except.bind, Op.call,
        avlTreePopMin]
      by_cases null : avlTreeMin build session.state = 0
      · rw [if_pos null, if_pos null]
      · rw [if_neg null, if_neg null, holds.pop_ends (.inl rfl) null]
  | popMax =>
      simp only [Op.checkedCall, Checked.avlTreePopMax, maxEnds, bind, Except.bind, Op.call,
        avlTreePopMax]
      by_cases null : avlTreeMax build session.state = 0
      · rw [if_pos null, if_pos null]
      · rw [if_neg null, if_neg null, holds.pop_ends (.inr rfl) null]

end Calls

/-- No call and no walk of the session takes a defensive exit. -/
structure NoDefensiveExit (build : Build) (session : Session) (tree : BinaryTree Nat) : Prop where
  call : ∀ op : Op, op.Permitted session.held →
    op.checkedCall build session.state = .ok (op.call build session.state)
  step : ∀ x ∈ tree.inorder,
    Checked.avlNextNode build session.state.arr x = .ok (avlNextNode build session.state.arr x) ∧
    Checked.avlPrevNode build session.state.arr x = .ok (avlPrevNode build session.state.arr x)
  descent : ∀ x, x = session.state.tree.root ∨ x ∈ tree.inorder →
    Checked.avlMinNodeId build session.state.arr x = .ok (avlMinNodeId build session.state.arr x) ∧
    Checked.avlMaxNodeId build session.state.arr x = .ok (avlMaxNodeId build session.state.arr x)

/-- The defensive exits are unreachable. -/
theorem sessions_noDefensiveExit {build : Build} {session : Session}
    (reachable : (sessions build).Reachable session) :
    ∃ tree orphans, WellFormed build session tree orphans ∧
      NoDefensiveExit build session tree := by
  obtain ⟨tree, orphans, holds⟩ := Holds.of_reachable reachable
  refine ⟨tree, orphans, holds.wellFormed, ?_, ?_, ?_⟩
  · exact fun op permitted => holds.call_ends permitted
  · exact fun x member => holds.represents.treeAt.walks member
  · exact fun x starts => holds.represents.treeAt.descents_end starts

theorem sessions_noDefensiveExit_rebalanced :
    ∃ tree orphans, WellFormed threeLevels (rebalanced threeLevels) tree orphans ∧
      NoDefensiveExit threeLevels (rebalanced threeLevels) tree :=
  sessions_noDefensiveExit rebalanced_reachable

end Ghost.Avl
