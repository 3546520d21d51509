import Ghost.Avl.Basic
import Ghost.Lib.Outcomes

/-!
# Defensive exits

The operations of `lib/avl.bpf.h` once more, with an outcome of its own for each
`AVL_ASSERT`, for each early return on a missing node, and for each loop that runs
through all `MAX_AVL_HEIGHT` iterations. A call that ends otherwise does what the
plain operation does.
-/

set_option autoImplicit false

namespace Ghost.Avl

open Lib

inductive Exit where
  | assertion
  | missingNext
  | missingX
  | missingNodeRight
  | missingNodeLeft
  | missingZ
  | missingY
  | exhausted
  deriving DecidableEq, Repr

/-- `__avl_id_to_node` with the userspace `BOUNDED_ARRAY_IDX`. -/
def avlIdToNode (id : Nat) : Option Nat := if id = 0 then none else some id

namespace Checked

/-- `AVL_ASSERT`. -/
def assert (condition : Prop) [Decidable condition] : Except Exit Unit :=
  if condition then .ok () else .error .assertion

/-! ## Walks -/

def minLoop (arr : Arr) : Nat → Nat → Except Exit Nat
  | 0, _ => .error .exhausted
  | fuel + 1, x =>
      if x = 0 then .ok 0
      else if (arr x).leftId = 0 then .ok x
      else minLoop arr fuel (arr x).leftId

def avlMinNodeId (build : Build) (arr : Arr) (id : Nat) : Except Exit Nat :=
  minLoop arr build.maxAvlHeight id

def avlTreeMin (build : Build) (state : AvlState) : Except Exit Nat :=
  if build.avlCaching then .ok state.tree.minId
  else avlMinNodeId build state.arr state.tree.root

def maxLoop (arr : Arr) : Nat → Nat → Except Exit Nat
  | 0, _ => .error .exhausted
  | fuel + 1, x =>
      if x = 0 then .ok 0
      else if (arr x).rightId = 0 then .ok x
      else maxLoop arr fuel (arr x).rightId

def avlMaxNodeId (build : Build) (arr : Arr) (id : Nat) : Except Exit Nat :=
  maxLoop arr build.maxAvlHeight id

def avlTreeMax (build : Build) (state : AvlState) : Except Exit Nat :=
  if build.avlCaching then .ok state.tree.maxId
  else avlMaxNodeId build state.arr state.tree.root

def nextClimb (arr : Arr) : Nat → Nat → Except Exit Nat
  | 0, _ => .error .exhausted
  | fuel + 1, x =>
      let parent := (arr x).parentId
      if parent = 0 then .ok 0
      else if x = (arr parent).leftId then .ok parent
      else nextClimb arr fuel parent

def avlNextNode (build : Build) (arr : Arr) (x : Nat) : Except Exit Nat :=
  if x = 0 then .ok 0
  else if (arr x).rightId ≠ 0 then avlMinNodeId build arr (arr x).rightId
  else nextClimb arr build.maxAvlHeight x

def prevClimb (arr : Arr) : Nat → Nat → Except Exit Nat
  | 0, _ => .error .exhausted
  | fuel + 1, x =>
      let parent := (arr x).parentId
      if parent = 0 then .ok 0
      else if x = (arr parent).rightId then .ok parent
      else prevClimb arr fuel parent

def avlPrevNode (build : Build) (arr : Arr) (x : Nat) : Except Exit Nat :=
  if x = 0 then .ok 0
  else if (arr x).leftId ≠ 0 then avlMaxNodeId build arr (arr x).leftId
  else prevClimb arr build.maxAvlHeight x

/-! ## Insertion -/

def avlRotateRightLeft (arr : Arr) (x z : Nat) : Except Exit (Arr × Nat) :=
  if (arr z).leftId = 0 then .error .missingY else .ok (Avl.avlRotateRightLeft arr x z)

def avlRotateLeftRight (arr : Arr) (x z : Nat) : Except Exit (Arr × Nat) :=
  if (arr z).rightId = 0 then .error .missingY else .ok (Avl.avlRotateLeftRight arr x z)

/-- The rotation of a node that is too heavy on the side of its child `z`. -/
def rotate (arr : Arr) (x z : Nat) (left : Bool) : Except Exit (Arr × Nat) :=
  if left then
    if (arr z).balance ≤ 0 then .ok (avlRotateRight arr x z) else avlRotateLeftRight arr x z
  else
    if (arr z).balance ≥ 0 then .ok (avlRotateLeft arr x z) else avlRotateRightLeft arr x z

def insertDescend (arr : Arr) (key : Nat) :
    Nat → Nat → Nat → Bool → Except Exit (Nat × Nat × Bool)
  | 0, next, x, left => .ok (next, x, left)
  | fuel + 1, next, x, left =>
      if next = 0 then .ok (next, x, left)
      else
        match avlIdToNode next with
        | none => .error .assertion
        | some x =>
            if key < (arr x).key then insertDescend arr key fuel (arr x).leftId x true
            else insertDescend arr key fuel (arr x).rightId x false

def insertRetrace : Nat → Arr → Nat → Nat → Nat → Except Exit (Arr × Nat)
  | 0, _, _, _, _ => .error .exhausted
  | fuel + 1, arr, root, x, z =>
      if x = 0 then .ok (arr, root)
      else
        let left := (arr x).leftId = z
        if (arr x).balance = 0 then
          let arr := arr.setBalance x (if left then -1 else 1)
          insertRetrace fuel arr root (arr x).parentId x
        else if left ∧ (arr x).balance > 0 ∨ ¬ left ∧ (arr x).balance < 0 then
          .ok (arr.setBalance x 0, root)
        else
          let parent := (arr x).parentId
          (rotate arr x z (decide left)).map fun rotated =>
            reconnect (rotated.1.setParent rotated.2 parent) root parent x rotated.2

def avlTreeInsert (build : Build) (state : AvlState) (node : Nat) : Except Exit AvlState := do
  let arr := ((((state.arr.setBalance node 0).setRight node 0).setLeft node 0).setOrphan node false)
  let key := (arr node).key
  let found ← insertDescend arr key (build.maxAvlHeight - 1) state.tree.root 0 false
  if found.1 ≠ 0 then
    .ok (insertOrphan { state with arr := arr.setOrphan node true } node)
  else
    let x := found.2.1
    let arr := arr.setParent node x
    if x = 0 then
      .ok { arr := arr, tree := cacheFirst build { state.tree with root := node } node key }
    else
      let arr := if found.2.2 then arr.setLeft x node else arr.setRight x node
      let retraced ← insertRetrace build.maxAvlHeight arr state.tree.root x node
      .ok { arr := retraced.1
            tree := cacheInsert build { state.tree with root := retraced.2 } node key }

/-! ## Deletion -/

/-- Without a parent node, `x` must have been the root. -/
def avlReplaceNode (arr : Arr) (root x withId : Nat) : Except Exit (Arr × Nat) := do
  if avlIdToNode (arr x).parentId = none then
    assert ((arr x).parentId = 0)
  .ok (Avl.avlReplaceNode arr root x withId)

def deleteRetrace : Nat → Arr → Nat → Nat → Bool → Except Exit (Arr × Nat)
  | 0, _, _, _, _ => .error .exhausted
  | fuel + 1, arr, root, x, fromTheLeft =>
      if x = 0 then .ok (arr, root)
      else if (arr x).balance = 0 then
        .ok (arr.setBalance x (if fromTheLeft then 1 else -1), root)
      else
        let parent := (arr x).parentId
        if fromTheLeft ∧ (arr x).balance < 0 ∨ ¬ fromTheLeft ∧ (arr x).balance > 0 then
          let arr := arr.setBalance x 0
          if parent = 0 then .ok (arr, root)
          else deleteRetrace fuel arr root parent (decide ((arr parent).leftId = x))
        else
          let z := if fromTheLeft then (arr x).rightId else (arr x).leftId
          if z = 0 then .error .missingZ
          else
            let absorbed := decide ((arr z).balance = 0)
            (rotate arr x z (!fromTheLeft)).bind fun rotated =>
              let arr := rotated.1.setParent rotated.2 parent
              let nextFromTheLeft := decide ((arr parent).leftId = x)
              let out := reconnect arr root parent x rotated.2
              if parent = 0 ∨ absorbed then .ok out
              else deleteRetrace fuel out.1 out.2 parent nextFromTheLeft

def cacheDelete (build : Build) (arr : Arr) (tree : AvlTree) (node : Nat) :
    Except Exit AvlTree := do
  if build.avlCaching then
    if node = tree.minId then
      let _ ← avlNextNode build arr node
    if node = tree.maxId then
      let _ ← avlPrevNode build arr node
  .ok (Avl.cacheDelete build arr tree node)

/-- The end of both successor cases: `next` takes the place of the node. -/
def takeOver (arr : Arr) (root node next x : Nat) (fromTheLeft : Bool) :
    Except Exit Unlinked := do
  let replaced ← avlReplaceNode arr root node next
  let arr := replaced.1.setLeft next (replaced.1 node).leftId
  if (arr node).leftId = 0 then .error .missingNodeLeft
  else
    .ok { arr := arr.setParent (arr node).leftId next, root := replaced.2
          x := x, fromTheLeft := fromTheLeft }

def unlinkNode (build : Build) (arr : Arr) (root node : Nat) : Except Exit Unlinked := do
  let x := (arr node).parentId
  let fromTheLeft := decide (x ≠ 0 ∧ (arr x).leftId = node)
  if (arr node).leftId = 0 then
    let replaced ← avlReplaceNode arr root node (arr node).rightId
    .ok { arr := replaced.1, root := replaced.2, x := x, fromTheLeft := fromTheLeft }
  else if (arr node).rightId = 0 then
    let replaced ← avlReplaceNode arr root node (arr node).leftId
    .ok { arr := replaced.1, root := replaced.2, x := x, fromTheLeft := fromTheLeft }
  else
    let next ← avlNextNode build arr node
    if next = 0 then .error .missingNext
    else
      let arr := arr.setBalance next (arr node).balance
      if (arr next).parentId ≠ node then
        let x := (arr next).parentId
        if x = 0 then .error .missingX
        else
          let fromTheLeft := decide ((arr x).leftId = next)
          let replaced ← avlReplaceNode arr root next (arr next).rightId
          let arr := replaced.1.setRight next (replaced.1 node).rightId
          if (arr node).rightId = 0 then .error .missingNodeRight
          else
            takeOver (arr.setParent (arr node).rightId next) replaced.2 node next x fromTheLeft
      else
        takeOver arr root node next next false

def avlTreeDelete (build : Build) (state : AvlState) (node : Nat) : Except Exit AvlState := do
  if (state.arr node).isOrphan then
    let state := removeOrphan state node
    .ok { state with arr := state.arr.setOrphan node false }
  else
    let tree ← cacheDelete build state.arr state.tree node
    let unlinked ← unlinkNode build state.arr tree.root node
    let retraced ←
      deleteRetrace build.maxAvlHeight unlinked.arr unlinked.root unlinked.x unlinked.fromTheLeft
    let popped := popFirstOrphan { arr := retraced.1, tree := { tree with root := retraced.2 } }
    if popped.2 = 0 then .ok popped.1 else avlTreeInsert build popped.1 popped.2

def avlTreePopMin (build : Build) (state : AvlState) : Except Exit (AvlState × Nat) := do
  let min ← avlTreeMin build state
  if min = 0 then .ok (state, min)
  else
    let state ← avlTreeDelete build state min
    .ok (state, min)

def avlTreePopMax (build : Build) (state : AvlState) : Except Exit (AvlState × Nat) := do
  let max ← avlTreeMax build state
  if max = 0 then .ok (state, max)
  else
    let state ← avlTreeDelete build state max
    .ok (state, max)

/-! ## Ending without an exit -/

section Plain

variable {build : Build} {arr : Arr} {state : AvlState} {fuel root node x z : Nat}

theorem minLoop_plain {id : Nat} (ends : minLoop arr fuel x = .ok id) :
    Avl.minLoop arr fuel x = id := by
  fun_induction minLoop arr fuel x with
  | case1 => cases ends
  | case2 fuel => simpa [Avl.minLoop] using ends
  | case3 fuel x present found => simpa [Avl.minLoop, present, found] using ends
  | case4 fuel x present goes ih => simpa [Avl.minLoop, present, goes] using ih ends

theorem maxLoop_plain {id : Nat} (ends : maxLoop arr fuel x = .ok id) :
    Avl.maxLoop arr fuel x = id := by
  fun_induction maxLoop arr fuel x with
  | case1 => cases ends
  | case2 fuel => simpa [Avl.maxLoop] using ends
  | case3 fuel x present found => simpa [Avl.maxLoop, present, found] using ends
  | case4 fuel x present goes ih => simpa [Avl.maxLoop, present, goes] using ih ends

theorem nextClimb_plain {id : Nat} (ends : nextClimb arr fuel x = .ok id) :
    Avl.nextClimb arr fuel x = id := by
  fun_induction nextClimb arr fuel x with
  | case1 => cases ends
  | case2 fuel x parent null =>
      simp only [Avl.nextClimb]
      rw [if_pos null, Except.ok.inj ends]
  | case3 fuel x parent present found =>
      simp only [Avl.nextClimb]
      rw [if_neg present, if_pos found]
      exact Except.ok.inj ends
  | case4 fuel x parent present climbs ih =>
      simp only [Avl.nextClimb]
      rw [if_neg present, if_neg climbs, ih ends]

theorem prevClimb_plain {id : Nat} (ends : prevClimb arr fuel x = .ok id) :
    Avl.prevClimb arr fuel x = id := by
  fun_induction prevClimb arr fuel x with
  | case1 => cases ends
  | case2 fuel x parent null =>
      simp only [Avl.prevClimb]
      rw [if_pos null, Except.ok.inj ends]
  | case3 fuel x parent present found =>
      simp only [Avl.prevClimb]
      rw [if_neg present, if_pos found]
      exact Except.ok.inj ends
  | case4 fuel x parent present climbs ih =>
      simp only [Avl.prevClimb]
      rw [if_neg present, if_neg climbs, ih ends]

theorem avlNextNode_plain {id : Nat} (ends : avlNextNode build arr x = .ok id) :
    Avl.avlNextNode build arr x = id := by
  unfold avlNextNode at ends
  unfold Avl.avlNextNode
  split_ifs at ends ⊢
  · exact Except.ok.inj ends
  · exact minLoop_plain ends
  · exact nextClimb_plain ends

theorem avlPrevNode_plain {id : Nat} (ends : avlPrevNode build arr x = .ok id) :
    Avl.avlPrevNode build arr x = id := by
  unfold avlPrevNode at ends
  unfold Avl.avlPrevNode
  split_ifs at ends ⊢
  · exact Except.ok.inj ends
  · exact maxLoop_plain ends
  · exact prevClimb_plain ends

/-- The plain rotation of `rotate`. -/
theorem rotate_plain {left : Bool} {rotated : Arr × Nat} (ends : rotate arr x z left = .ok rotated) :
    (if left then
      if (arr z).balance ≤ 0 then avlRotateRight arr x z else Avl.avlRotateLeftRight arr x z
    else
      if (arr z).balance ≥ 0 then avlRotateLeft arr x z else Avl.avlRotateRightLeft arr x z) =
      rotated := by
  unfold rotate avlRotateLeftRight avlRotateRightLeft at ends
  split_ifs at ends ⊢ <;> exact Except.ok.inj ends

/-- The assertion of the descent cannot fail: no identifier but zero is null. -/
theorem insertDescend_plain {key next : Nat} {left : Bool} :
    insertDescend arr key fuel next x left = .ok (Avl.insertDescend arr key fuel next x left) := by
  induction fuel generalizing next x left with
  | zero => rfl
  | succ fuel ih =>
      by_cases null : next = 0
      · simp [insertDescend, Avl.insertDescend, null]
      · simp only [insertDescend, Avl.insertDescend, null, avlIdToNode, if_false, ih]
        split <;> rfl

theorem insertRetrace_plain {out : Arr × Nat} (ends : insertRetrace fuel arr root x z = .ok out) :
    Avl.insertRetrace fuel arr root x z = out := by
  induction fuel generalizing arr x z with
  | zero => cases ends
  | succ fuel ih =>
      simp only [insertRetrace] at ends
      simp only [Avl.insertRetrace]
      split at ends
      · next null => rw [if_pos null, Except.ok.inj ends]
      · next present =>
          rw [if_neg present]
          split at ends
          · next level =>
              rw [if_pos level]
              exact ih ends
          · next heavy =>
              rw [if_neg heavy]
              split at ends
              · next absorbed => rw [if_pos absorbed, Except.ok.inj ends]
              · next turns =>
                  rw [if_neg turns]
                  cases outcome : rotate arr x z (decide ((arr x).leftId = z)) with
                  | error exit =>
                      rw [outcome] at ends
                      cases ends
                  | ok rotated =>
                      rw [outcome] at ends
                      have plain := rotate_plain outcome
                      simp only [decide_eq_true_eq] at plain
                      rw [plain]
                      exact Except.ok.inj ends

theorem avlReplaceNode_plain {withId : Nat} :
    avlReplaceNode arr root x withId = .ok (Avl.avlReplaceNode arr root x withId) := by
  by_cases null : (arr x).parentId = 0
  · simp [avlReplaceNode, avlIdToNode, null, assert]
    rfl
  · simp [avlReplaceNode, avlIdToNode, null]

theorem deleteRetrace_plain {fromTheLeft : Bool} {out : Arr × Nat}
    (ends : deleteRetrace fuel arr root x fromTheLeft = .ok out) :
    Avl.deleteRetrace fuel arr root x fromTheLeft = .ok out := by
  induction fuel generalizing arr root x fromTheLeft with
  | zero => cases ends
  | succ fuel ih =>
      simp only [deleteRetrace] at ends
      simp only [Avl.deleteRetrace]
      split at ends
      · next null => rw [if_pos null, Except.ok.inj ends]
      · next present =>
          rw [if_neg present]
          split at ends
          · next level => rw [if_pos level, Except.ok.inj ends]
          · next heavy =>
              rw [if_neg heavy]
              split at ends
              · next passes =>
                  rw [if_pos passes]
                  split at ends
                  · next top => rw [if_pos top, Except.ok.inj ends]
                  · next more =>
                      rw [if_neg more]
                      exact ih ends
              · next turns =>
                  rw [if_neg turns]
                  generalize (if fromTheLeft then (arr x).rightId else (arr x).leftId) = z at ends ⊢
                  by_cases partner : z = 0
                  · rw [if_pos partner] at ends
                    cases ends
                  · rw [if_neg partner] at ends ⊢
                    obtain ⟨rotated, outcome, later⟩ := bind_eq_ok_iff.mp ends
                    have plain := rotate_plain outcome
                    have sides : (if fromTheLeft then
                        if (arr z).balance ≥ 0 then avlRotateLeft arr x z
                        else Avl.avlRotateRightLeft arr x z
                      else if (arr z).balance ≤ 0 then avlRotateRight arr x z
                        else Avl.avlRotateLeftRight arr x z) = rotated := by
                      cases fromTheLeft <;> exact plain
                    rw [sides]
                    split at later
                    · next ended => rw [if_pos ended, Except.ok.inj later]
                    · next climbs =>
                        rw [if_neg climbs]
                        exact ih later

theorem avlTreeInsert_plain {next : AvlState} (ends : avlTreeInsert build state node = .ok next) :
    Avl.avlTreeInsert build state node = next := by
  simp only [avlTreeInsert, insertDescend_plain, bind, Except.bind] at ends
  simp only [Avl.avlTreeInsert]
  split at ends
  · next full => rw [if_pos full, Except.ok.inj ends]
  · next found =>
      rw [if_neg found]
      split at ends
      · next first => rw [if_pos first, Except.ok.inj ends]
      · next below =>
          rw [if_neg below]
          obtain ⟨retraced, outcome, later⟩ := bind_eq_ok_iff.mp ends
          rw [insertRetrace_plain outcome, Except.ok.inj later]

/-- Beyond the early returns, which the plain function has too, only the walk to the
successor can go wrong. -/
theorem unlinkNode_of_plain {unlinked : Unlinked}
    (walks : avlNextNode build arr node = .ok (Avl.avlNextNode build arr node))
    (ends : Avl.unlinkNode build arr root node = .ok unlinked) :
    unlinkNode build arr root node = .ok unlinked := by
  unfold Avl.unlinkNode at ends
  simp only [unlinkNode, takeOver, avlReplaceNode_plain, walks, bind, Except.bind]
  dsimp only at ends
  split at ends
  · next noLeft => rw [if_pos noLeft, Except.ok.inj ends]
  · next hasLeft =>
      rw [if_neg hasLeft]
      split at ends
      · next noRight => rw [if_pos noRight, Except.ok.inj ends]
      · next hasRight =>
          rw [if_neg hasRight]
          split at ends
          · cases ends
          · next hasNext =>
              rw [if_neg hasNext]
              split at ends
              · next deep =>
                  rw [if_pos deep]
                  split at ends
                  · cases ends
                  · next hasX =>
                      rw [if_neg hasX]
                      split at ends
                      · cases ends
                      · next linked =>
                          rw [if_neg linked]
                          split at ends
                          · cases ends
                          · next linked' => rw [if_neg linked', Except.ok.inj ends]
              · next child =>
                  rw [if_neg child]
                  split at ends
                  · cases ends
                  · next linked => rw [if_neg linked, Except.ok.inj ends]

theorem cacheDelete_of_walks {tree : AvlTree}
    (next : avlNextNode build arr node = .ok (Avl.avlNextNode build arr node))
    (prev : avlPrevNode build arr node = .ok (Avl.avlPrevNode build arr node)) :
    cacheDelete build arr tree node = .ok (Avl.cacheDelete build arr tree node) := by
  simp only [cacheDelete, next, prev, bind, Except.bind]
  split_ifs <;> rfl

end Plain

end Checked

end Ghost.Avl
