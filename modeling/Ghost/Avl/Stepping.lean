import Ghost.Avl.Sessions

/-!
# Stepping in order

`__avl_next_node` and `__avl_prev_node` move along the in-order sequence of the
tree, whatever rotations and successor swaps have shaped it. A loop over the next
nodes from the minimum thus visits the sequence from end to end.
-/

set_option autoImplicit false

namespace Ghost.Avl

open Lib

/-- The nodes of `for (; x; x = avl_next_node(x))`, unless the loop takes more than
`fuel` rounds. -/
def visitFrom (build : Build) (arr : Arr) : Nat → Nat → Option (List Nat)
  | 0, _ => none
  | fuel + 1, x =>
      if x = 0 then some []
      else (visitFrom build arr fuel (avlNextNode build arr x)).map (x :: ·)

section Steps

variable {build : Build} {arr : Arr} {root x : Nat} {tree : BinaryTree Nat} {low high : List Nat}

/-- Both steps from a node, by what stands before and after it. -/
theorem TreeAt.steps (treeAt : TreeAt build arr root tree)
    (split : tree.inorder = low ++ x :: high) :
    avlNextNode build arr x = high.headD 0 ∧ avlPrevNode build arr x = low.getLastD 0 := by
  have member : x ∈ tree.inorder := by simp [split]
  obtain ⟨context, left, right, plugged⟩ := Context.exists_plug_of_mem member
  have whole : tree.inorder =
      (context.before ++ left.inorder) ++ x :: (right.inorder ++ context.after) := by
    simp [plugged, Context.inorder_plug]
  have unique := treeAt.unique
  have notBefore : x ∉ context.before ++ left.inorder := by
    rw [whole] at unique
    grind
  have notAfter : x ∉ right.inorder ++ context.after := by
    rw [whole] at unique
    grind
  obtain ⟨rfl, -, rfl⟩ :=
    (List.append_cons_inj_of_notMem notBefore notAfter).mp (whole.symm.trans split)
  subst plugged
  obtain ⟨linked, around⟩ := linked_plug.mp ⟨treeAt.root, treeAt.linked⟩
  exact ⟨avlNextNode_eq linked around unique treeAt.bounded,
    avlPrevNode_eq linked around unique treeAt.bounded⟩

private theorem TreeAt.headD_eq_zero (treeAt : TreeAt build arr root tree)
    (split : tree.inorder = low ++ high) : high.headD 0 = 0 ↔ high = [] := by
  cases high with
  | nil => simp
  | cons first high => simpa using treeAt.linked.ne_zero first (by simp [split])

private theorem TreeAt.getLastD_eq_zero (treeAt : TreeAt build arr root tree)
    (split : tree.inorder = low ++ high) : low.getLastD 0 = 0 ↔ low = [] := by
  rcases List.eq_nil_or_concat' low with rfl | ⟨low, last, rfl⟩
  · simp
  · simpa using treeAt.linked.ne_zero last (by simp [split])

/-- The loop from a suffix of the sequence visits that suffix and ends. -/
theorem TreeAt.visitFrom (treeAt : TreeAt build arr root tree)
    (split : tree.inorder = low ++ high) {fuel : Nat} (enough : high.length < fuel) :
    visitFrom build arr fuel (high.headD 0) = some high := by
  induction high generalizing low fuel with
  | nil =>
      cases fuel with
      | zero => simp at enough
      | succ fuel => rfl
  | cons first high ih =>
      cases fuel with
      | zero => simp at enough
      | succ fuel =>
          have present := treeAt.linked.ne_zero first (by simp [split])
          have split' : tree.inorder = (low ++ [first]) ++ high := by simp [split]
          have later := ih split' (Nat.lt_of_succ_lt_succ enough)
          rw [List.headD_cons, Avl.visitFrom, if_neg present, (treeAt.steps split).1, later]
          rfl

end Steps

/-- The two steps follow the sequence of the tree nodes. -/
structure StepsInOrder (build : Build) (state : AvlState) (ids : List Nat) : Prop where
  next : ∀ low x high, ids = low ++ x :: high → avlNextNode build state.arr x = high.headD 0
  nextNull : ∀ low x high, ids = low ++ x :: high →
    (avlNextNode build state.arr x = 0 ↔ high = [])
  prev : ∀ low x high, ids = low ++ x :: high → avlPrevNode build state.arr x = low.getLastD 0
  prevNull : ∀ low x high, ids = low ++ x :: high →
    (avlPrevNode build state.arr x = 0 ↔ low = [])
  prevOfNext : ∀ x ∈ ids, avlNextNode build state.arr x ≠ 0 →
    avlPrevNode build state.arr (avlNextNode build state.arr x) = x
  nextOfPrev : ∀ x ∈ ids, avlPrevNode build state.arr x ≠ 0 →
    avlNextNode build state.arr (avlPrevNode build state.arr x) = x
  visits : ∀ fuel, ids.length < fuel →
    visitFrom build state.arr fuel (avlTreeMin build state) = some ids
  once : ids.Nodup
  sorted : ids.Pairwise fun left right => (state.arr left).key ≤ (state.arr right).key

private theorem Represents.stepsInOrder {build : Build} {state : AvlState} {tree : BinaryTree Nat}
    {orphans : List Nat} (represents : Represents build state tree orphans) :
    StepsInOrder build state tree.inorder := by
  have treeAt := represents.treeAt
  constructor
  · exact fun low x high split => (treeAt.steps split).1
  · intro low x high split
    rw [(treeAt.steps split).1]
    have split' : tree.inorder = (low ++ [x]) ++ high := by simp [split]
    exact treeAt.headD_eq_zero split'
  · exact fun low x high split => (treeAt.steps split).2
  · intro low x high split
    rw [(treeAt.steps split).2]
    exact treeAt.getLastD_eq_zero split
  · intro x member some
    obtain ⟨low, high, split⟩ := List.append_of_mem member
    rw [(treeAt.steps split).1] at some ⊢
    cases high with
    | nil => exact absurd rfl some
    | cons next high =>
        have split' : tree.inorder = (low ++ [x]) ++ next :: high := by simp [split]
        rw [List.headD_cons, (treeAt.steps split').2, List.getLastD_concat]
  · intro x member some
    obtain ⟨low, high, split⟩ := List.append_of_mem member
    rw [(treeAt.steps split).2] at some ⊢
    rcases List.eq_nil_or_concat' low with rfl | ⟨low, prev, rfl⟩
    · exact absurd rfl some
    · have split' : tree.inorder = low ++ prev :: (x :: high) := by simp [split]
      rw [List.getLastD_concat, (treeAt.steps split').1, List.headD_cons]
  · intro fuel enough
    rw [avlTreeMin_eq represents]
    exact treeAt.visitFrom (List.nil_append _).symm enough
  · exact treeAt.unique
  · exact treeAt.sorted

/-- Stepping is in order in every reachable session. -/
theorem sessions_stepInOrder {build : Build} {session : Session}
    (reachable : (sessions build).Reachable session) :
    ∃ tree orphans, WellFormed build session tree orphans ∧
      StepsInOrder build session.state tree.inorder := by
  obtain ⟨tree, orphans, holds⟩ := Holds.of_reachable reachable
  exact ⟨tree, orphans, holds.wellFormed, holds.represents.stepsInOrder⟩

theorem sessions_stepInOrder_rebalanced :
    ∃ tree orphans, WellFormed threeLevels (rebalanced threeLevels) tree orphans ∧
      StepsInOrder threeLevels (rebalanced threeLevels).state tree.inorder :=
  sessions_stepInOrder rebalanced_reachable

end Ghost.Avl
