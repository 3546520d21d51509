import Ghost.Avl.Sessions

/-!
# Conservation

Nodes that do not fit wait in the orphan list, and every deletion takes one of
them in. So the tree never runs empty while an orphan waits, and popping as many
times as nodes are held returns each of them once.
-/

set_option autoImplicit false

namespace Ghost.Avl

open Lib

inductive Op.IsPop : Op → Prop
  | min : IsPop .popMin
  | max : IsPop .popMax

/-- Consecutive calls with the nodes they return. -/
def callAll (build : Build) : AvlState → List Op → AvlState × List Nat
  | state, [] => (state, [])
  | state, op :: ops =>
      let called := op.call build state
      let rest := callAll build called.1 ops
      (rest.1, called.2 :: rest.2)

section Pops

variable {build : Build} {session : Session} {tree : BinaryTree Nat} {orphans : List Nat}

private theorem Holds.held_eq_nil (holds : Holds build session tree orphans) :
    session.held = [] ↔ tree = .nil ∧ orphans = [] := by
  rw [← List.perm_nil, holds.held.congr_left, List.perm_nil, List.append_eq_nil_iff,
    BinaryTree.inorder_eq_nil]

/-- A pop returns an extreme of the tree, which is null only if nothing is held. -/
theorem Holds.pop (holds : Holds build session tree orphans) {op : Op} (pop : op.IsPop) :
    ((op.call build session.state).2 = 0 ∧ session.held = []) ∨
      ((op.call build session.state).2 ≠ 0 ∧ (op.call build session.state).2 ∈ session.held ∧
        (session.after build op).held = session.held.erase (op.call build session.state).2) := by
  have extreme : (tree = .nil ∧ (op.call build session.state).2 = 0) ∨
      ((op.call build session.state).2 ∈ tree.inorder ∧ (op.call build session.state).2 ≠ 0) := by
    cases pop with
    | min => exact holds.extreme (.inl rfl)
    | max => exact holds.extreme (.inr rfl)
  rcases extreme with ⟨empty, null⟩ | ⟨member, present⟩
  · exact .inl ⟨null, holds.held_eq_nil.mpr ⟨empty, holds.supplied empty⟩⟩
  · refine .inr ⟨present, holds.mem_held.mpr (.inl member), ?_⟩
    cases pop <;> rfl

/-- Popping everything returns every held node once and leaves nothing. -/
theorem Holds.popAll (holds : Holds build session tree orphans) {pops : List Op}
    (allPops : ∀ op ∈ pops, op.IsPop) (count : pops.length = session.held.length) :
    (callAll build session.state pops).2.Perm session.held ∧
      Represents build (callAll build session.state pops).1 .nil [] := by
  induction pops generalizing session tree orphans with
  | nil =>
      have none : session.held = [] := List.length_eq_zero_iff.mp count.symm
      obtain ⟨rfl, rfl⟩ := holds.held_eq_nil.mp none
      exact ⟨none ▸ .nil, holds.represents⟩
  | cons op pops ih =>
      have pop := allPops op (by simp)
      rcases holds.pop pop with ⟨-, none⟩ | ⟨-, member, held⟩
      · simp [none] at count
      · have permitted : op.Permitted session.held := by cases pop <;> trivial
        have moved : (sessions build).step session (op, (op.call build session.state).2)
            (session.after build op) := ⟨permitted, rfl, rfl⟩
        obtain ⟨tree', orphans', holds'⟩ := holds.step moved
        have shorter : pops.length = (session.after build op).held.length := by
          rw [held, List.length_erase_of_mem member, ← count]
          rfl
        obtain ⟨results, empty⟩ :=
          ih holds' (fun other inside => allPops other (by simp [inside])) shorter
        refine ⟨?_, empty⟩
        rw [held] at results
        exact (results.cons _).trans (List.perm_cons_erase member).symm

end Pops

/-- Nothing is lost between tree and orphans. -/
structure Conserves (build : Build) (state : AvlState) (tree : BinaryTree Nat)
    (orphans : List Nat) : Prop where
  represents : Represents build state tree orphans
  supplied : state.tree.root = 0 → orphans = [] ∧ state.tree.firstOrphanId = 0
  popMin : (avlTreePopMin build state).2 = 0 ↔ tree = .nil ∧ orphans = []
  popMax : (avlTreePopMax build state).2 = 0 ↔ tree = .nil ∧ orphans = []
  popAll : ∀ pops : List Op, (∀ op ∈ pops, op.IsPop) →
    pops.length = (tree.inorder ++ orphans).length →
      (callAll build state pops).2.Perm (tree.inorder ++ orphans) ∧
        Represents build (callAll build state pops).1 .nil []

/-- Every reachable session conserves its nodes. -/
theorem sessions_conserve {build : Build} {session : Session}
    (reachable : (sessions build).Reachable session) :
    ∃ tree orphans, session.held.Perm (tree.inorder ++ orphans) ∧
      Conserves build session.state tree orphans := by
  obtain ⟨tree, orphans, holds⟩ := Holds.of_reachable reachable
  have nullIff : ∀ op : Op, op.IsPop →
      ((op.call build session.state).2 = 0 ↔ tree = .nil ∧ orphans = []) := by
    intro op pop
    rw [← holds.held_eq_nil]
    rcases holds.pop pop with ⟨null, none⟩ | ⟨present, member, -⟩
    · simp [null, none]
    · simp [present, List.ne_nil_of_mem member]
  refine ⟨tree, orphans, holds.held, holds.represents, fun empty => ?_, nullIff .popMin .min,
    nullIff .popMax .max, fun pops allPops count => ?_⟩
  · rw [holds.represents.treeAt.root, holds.represents.treeAt.linked.rootId_eq_zero] at empty
    have none := holds.supplied empty
    exact ⟨none, by rw [holds.represents.orphansAt.first, none]; rfl⟩
  · obtain ⟨results, empty⟩ := holds.popAll allPops (count.trans holds.held.length_eq.symm)
    exact ⟨results.trans holds.held, empty⟩

theorem sessions_conserve_crowded :
    ∃ tree orphans, crowded.held.Perm (tree.inorder ++ orphans) ∧
      Conserves crowdedBuild crowded.state tree orphans :=
  sessions_conserve crowded_reachable

end Ghost.Avl
