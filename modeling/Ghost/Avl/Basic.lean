import Mathlib.Tactic

/-!
# Array-backed AVL trees

The structures and operations of `lib/avl.bpf.h`. Nodes live in one array and
are named by their index plus one, so zero plays the part of the null pointer.
The userspace `BOUNDED_ARRAY_IDX` performs no check: `avl_id_to_node` is null
exactly at zero, and node pointers and identifiers are interchangeable. Keys
are only ever compared, so a natural number stands for the `uint64_t` key.
-/

set_option autoImplicit false

namespace Ghost.Avl

structure AvlNode where
  key : Nat
  leftId : Nat
  rightId : Nat
  parentId : Nat
  balance : Int
  isOrphan : Bool
  prevOrphanId : Nat
  nextOrphanId : Nat
  deriving DecidableEq, Repr

/-- The element array, read through node identifiers. -/
abbrev Arr := Nat → AvlNode

structure AvlTree where
  root : Nat
  minId : Nat
  minKey : Nat
  maxId : Nat
  maxKey : Nat
  firstOrphanId : Nat
  deriving DecidableEq, Repr

/-- One compiled variant of the header: `MAX_AVL_HEIGHT`, and whether
`AVL_CACHING` is defined. Without it the four cache fields do not exist; here
they are present but neither read nor written. -/
structure Build where
  maxAvlHeight : Nat
  avlCaching : Bool
  height_pos : 1 ≤ maxAvlHeight

/-- The array and the tree header that the operations mutate. -/
structure AvlState where
  arr : Arr
  tree : AvlTree

/-! ## Field writes -/

def Arr.modify (arr : Arr) (id : Nat) (change : AvlNode → AvlNode) : Arr :=
  fun other => if other = id then change (arr other) else arr other

namespace Arr

variable (arr : Arr) (id : Nat)

def setLeft (value : Nat) : Arr := modify arr id fun node => { node with leftId := value }

def setRight (value : Nat) : Arr := modify arr id fun node => { node with rightId := value }

def setParent (value : Nat) : Arr := modify arr id fun node => { node with parentId := value }

def setBalance (value : Int) : Arr := modify arr id fun node => { node with balance := value }

def setOrphan (value : Bool) : Arr := modify arr id fun node => { node with isOrphan := value }

def setPrevOrphan (value : Nat) : Arr :=
  modify arr id fun node => { node with prevOrphanId := value }

def setNextOrphan (value : Nat) : Arr :=
  modify arr id fun node => { node with nextOrphanId := value }

/-- The recurring `if (ptr) ptr->parent_id = value`. -/
def setParentIf (value : Nat) : Arr := if id = 0 then arr else setParent arr id value

end Arr

/-! ## Orphan list -/

/-- `avl_tree_init`: every field of the header is cleared. -/
def avlTreeInit : AvlTree :=
  { root := 0, minId := 0, minKey := 0, maxId := 0, maxKey := 0, firstOrphanId := 0 }

def insertOrphan (state : AvlState) (node : Nat) : AvlState :=
  let next := state.tree.firstOrphanId
  let arr := if next = 0 then state.arr else state.arr.setPrevOrphan next node
  { arr := (arr.setNextOrphan node next).setPrevOrphan node 0
    tree := { state.tree with firstOrphanId := node } }

def removeOrphan (state : AvlState) (node : Nat) : AvlState :=
  let prev := (state.arr node).prevOrphanId
  let next := (state.arr node).nextOrphanId
  let first := if state.tree.firstOrphanId = node then next else state.tree.firstOrphanId
  let arr := if prev = 0 then state.arr else state.arr.setNextOrphan prev next
  let arr := if next = 0 then arr else arr.setPrevOrphan next prev
  { arr := (arr.setNextOrphan node 0).setPrevOrphan node 0
    tree := { state.tree with firstOrphanId := first } }

/-- Returns the popped orphan, or zero when there is none. -/
def popFirstOrphan (state : AvlState) : AvlState × Nat :=
  let first := state.tree.firstOrphanId
  if first = 0 then (state, 0)
  else
    let next := (state.arr first).nextOrphanId
    let arr := if next = 0 then state.arr else state.arr.setPrevOrphan next 0
    ({ arr := (arr.setNextOrphan first 0).setPrevOrphan first 0
       tree := { state.tree with firstOrphanId := next } }, first)

/-! ## Walks -/

/-- The loop of `avl_tree_lookup`, with the remaining iterations. -/
def lookupLoop (arr : Arr) (key : Nat) : Nat → Nat → Nat
  | 0, _ => 0
  | fuel + 1, x =>
      if x = 0 then 0
      else if (arr x).key = key then x
      else if key < (arr x).key then lookupLoop arr key fuel (arr x).leftId
      else lookupLoop arr key fuel (arr x).rightId

def avlTreeLookup (build : Build) (state : AvlState) (key : Nat) : Nat :=
  lookupLoop state.arr key build.maxAvlHeight state.tree.root

def minLoop (arr : Arr) : Nat → Nat → Nat
  | 0, _ => 0
  | fuel + 1, x =>
      if x = 0 then 0
      else if (arr x).leftId = 0 then x
      else minLoop arr fuel (arr x).leftId

def avlMinNodeId (build : Build) (arr : Arr) (id : Nat) : Nat :=
  minLoop arr build.maxAvlHeight id

def avlTreeMin (build : Build) (state : AvlState) : Nat :=
  if build.avlCaching then state.tree.minId
  else avlMinNodeId build state.arr state.tree.root

def maxLoop (arr : Arr) : Nat → Nat → Nat
  | 0, _ => 0
  | fuel + 1, x =>
      if x = 0 then 0
      else if (arr x).rightId = 0 then x
      else maxLoop arr fuel (arr x).rightId

def avlMaxNodeId (build : Build) (arr : Arr) (id : Nat) : Nat :=
  maxLoop arr build.maxAvlHeight id

def avlTreeMax (build : Build) (state : AvlState) : Nat :=
  if build.avlCaching then state.tree.maxId
  else avlMaxNodeId build state.arr state.tree.root

/-- The climb of `__avl_next_node`: stop at the first left-child step. -/
def nextClimb (arr : Arr) : Nat → Nat → Nat
  | 0, _ => 0
  | fuel + 1, x =>
      let parent := (arr x).parentId
      if parent = 0 then 0
      else if x = (arr parent).leftId then parent
      else nextClimb arr fuel parent

def avlNextNode (build : Build) (arr : Arr) (x : Nat) : Nat :=
  if x = 0 then 0
  else if (arr x).rightId ≠ 0 then avlMinNodeId build arr (arr x).rightId
  else nextClimb arr build.maxAvlHeight x

/-- The climb of `__avl_prev_node`: stop at the first right-child step. -/
def prevClimb (arr : Arr) : Nat → Nat → Nat
  | 0, _ => 0
  | fuel + 1, x =>
      let parent := (arr x).parentId
      if parent = 0 then 0
      else if x = (arr parent).rightId then parent
      else prevClimb arr fuel parent

def avlPrevNode (build : Build) (arr : Arr) (x : Nat) : Nat :=
  if x = 0 then 0
  else if (arr x).leftId ≠ 0 then avlMaxNodeId build arr (arr x).leftId
  else prevClimb arr build.maxAvlHeight x

/-! ## Rotations

Each rotation returns the array and the new subtree root. The link between the
old parent of `x` and that root is left to the caller. -/

/-- A level `z` has `t23` as high as `t4`, which only a deletion can cause. -/
def avlRotateLeft (arr : Arr) (x z : Nat) : Arr × Nat :=
  let t23 := (arr z).leftId
  let arr := arr.setRight x t23
  let arr := arr.setParentIf t23 x
  let arr := arr.setLeft z x
  let arr := arr.setParent x z
  if (arr z).balance = 0 then
    ((arr.setBalance x 1).setBalance z (-1), z)
  else
    ((arr.setBalance x 0).setBalance z 0, z)

def avlRotateRight (arr : Arr) (x z : Nat) : Arr × Nat :=
  let t23 := (arr z).rightId
  let arr := arr.setLeft x t23
  let arr := arr.setParentIf t23 x
  let arr := arr.setRight z x
  let arr := arr.setParent x z
  if (arr z).balance = 0 then
    ((arr.setBalance x (-1)).setBalance z 1, z)
  else
    ((arr.setBalance x 0).setBalance z 0, z)

def avlRotateRightLeft (arr : Arr) (x z : Nat) : Arr × Nat :=
  let y := (arr z).leftId
  if y = 0 then (arr, x)
  else
    let t2 := (arr y).leftId
    let t3 := (arr y).rightId
    let arr := arr.setLeft y x
    let arr := arr.setParent x y
    let arr := arr.setRight x t2
    let arr := arr.setParentIf t2 x
    let arr := arr.setRight y z
    let arr := arr.setParent z y
    let arr := arr.setLeft z t3
    let arr := arr.setParentIf t3 z
    if (arr y).balance = 0 then
      (((arr.setBalance x 0).setBalance y 0).setBalance z 0, y)
    else if (arr y).balance > 0 then
      (((arr.setBalance x (-1)).setBalance y 0).setBalance z 0, y)
    else
      (((arr.setBalance x 0).setBalance y 0).setBalance z 1, y)

def avlRotateLeftRight (arr : Arr) (x z : Nat) : Arr × Nat :=
  let y := (arr z).rightId
  if y = 0 then (arr, x)
  else
    let t2 := (arr y).leftId
    let t3 := (arr y).rightId
    let arr := arr.setLeft y z
    let arr := arr.setParent z y
    let arr := arr.setRight z t2
    let arr := arr.setParentIf t2 z
    let arr := arr.setRight y x
    let arr := arr.setParent x y
    let arr := arr.setLeft x t3
    let arr := arr.setParentIf t3 x
    if (arr y).balance = 0 then
      (((arr.setBalance x 0).setBalance y 0).setBalance z 0, y)
    else if (arr y).balance > 0 then
      (((arr.setBalance x 0).setBalance y 0).setBalance z (-1), y)
    else
      (((arr.setBalance x 1).setBalance y 0).setBalance z 0, y)

/-! ## Insertion -/

/-- The search for the future parent: the pending child identifier, the last
node visited and the direction taken there. -/
def insertDescend (arr : Arr) (key : Nat) : Nat → Nat → Nat → Bool → Nat × Nat × Bool
  | 0, next, x, left => (next, x, left)
  | fuel + 1, next, x, left =>
      if next = 0 then (next, x, left)
      else if key < (arr next).key then
        insertDescend arr key fuel (arr next).leftId next true
      else
        insertDescend arr key fuel (arr next).rightId next false

/-- Reconnect a rotated subtree under the old parent of `x`. -/
def reconnect (arr : Arr) (root parent x str : Nat) : Arr × Nat :=
  if parent = 0 then (arr, str)
  else if (arr parent).leftId = x then (arr.setLeft parent str, root)
  else (arr.setRight parent str, root)

/-- The rebalancing loop of `avl_tree_insert`: `z`, a child of `x`, has grown. A level
`x` passes the growth up (case 3 of the source), one that leans the other way absorbs it
(case 1), and so does every rotation (case 2). -/
def insertRetrace : Nat → Arr → Nat → Nat → Nat → Arr × Nat
  | 0, arr, root, _, _ => (arr, root)
  | fuel + 1, arr, root, x, z =>
      if x = 0 then (arr, root)
      else
        let left := (arr x).leftId = z
        if (arr x).balance = 0 then
          let arr := arr.setBalance x (if left then -1 else 1)
          insertRetrace fuel arr root (arr x).parentId x
        else if left ∧ (arr x).balance > 0 ∨ ¬ left ∧ (arr x).balance < 0 then
          (arr.setBalance x 0, root)
        else
          let parent := (arr x).parentId
          let rotated :=
            if left then
              if (arr z).balance ≤ 0 then avlRotateRight arr x z else avlRotateLeftRight arr x z
            else
              if (arr z).balance ≥ 0 then avlRotateLeft arr x z else avlRotateRightLeft arr x z
          let arr := rotated.1.setParent rotated.2 parent
          reconnect arr root parent x rotated.2

/-- The cache update after a node has been linked. Ties go to the right. -/
def cacheInsert (build : Build) (tree : AvlTree) (node key : Nat) : AvlTree :=
  if build.avlCaching then
    let tree :=
      if tree.minId = 0 ∨ key < tree.minKey then { tree with minId := node, minKey := key }
      else tree
    if tree.maxId = 0 ∨ key ≥ tree.maxKey then { tree with maxId := node, maxKey := key }
    else tree
  else tree

/-- The cache after the first node of an empty tree. -/
def cacheFirst (build : Build) (tree : AvlTree) (node key : Nat) : AvlTree :=
  if build.avlCaching then
    { tree with minId := node, minKey := key, maxId := node, maxKey := key }
  else tree

/-- `avl_tree_insert`; the caller has set the key of the node. -/
def avlTreeInsert (build : Build) (state : AvlState) (node : Nat) : AvlState :=
  let arr := ((((state.arr.setBalance node 0).setRight node 0).setLeft node 0).setOrphan node false)
  let key := (arr node).key
  let (next, x, left) :=
    insertDescend arr key (build.maxAvlHeight - 1) state.tree.root 0 false
  if next ≠ 0 then
    insertOrphan { state with arr := arr.setOrphan node true } node
  else
    let arr := arr.setParent node x
    if x = 0 then
      { arr := arr, tree := cacheFirst build { state.tree with root := node } node key }
    else
      let arr := if left then arr.setLeft x node else arr.setRight x node
      let (arr, root) := insertRetrace build.maxAvlHeight arr state.tree.root x node
      { arr := arr, tree := cacheInsert build { state.tree with root := root } node key }

/-! ## Deletion -/

/-- `__avl_replace_node` together with the root update of its macro wrapper. -/
def avlReplaceNode (arr : Arr) (root x withId : Nat) : Arr × Nat :=
  let parent := (arr x).parentId
  let linked :=
    if parent = 0 then arr
    else if (arr parent).leftId = x then arr.setLeft parent withId
    else arr.setRight parent withId
  (linked.setParentIf withId (linked x).parentId, if parent = 0 then withId else root)

/-- The rebalancing loop of `avl_tree_delete`: the given side of `x` has shrunk.
A missing rotation partner makes the source return from the whole deletion;
that outcome is an error holding the array and root so far. -/
def deleteRetrace : Nat → Arr → Nat → Nat → Bool → Except (Arr × Nat) (Arr × Nat)
  | 0, arr, root, _, _ => .ok (arr, root)
  | fuel + 1, arr, root, x, fromTheLeft =>
      if x = 0 then .ok (arr, root)
      else if (arr x).balance = 0 then
        .ok (arr.setBalance x (if fromTheLeft then 1 else -1), root)
      else
        let parent := (arr x).parentId
        if fromTheLeft ∧ (arr x).balance < 0 ∨ ¬ fromTheLeft ∧ (arr x).balance > 0 then
          let arr := arr.setBalance x 0
          if parent = 0 then .ok (arr, root)
          else deleteRetrace fuel arr root parent (decide ((arr parent).leftId = x))
        else
          let z := if fromTheLeft then (arr x).rightId else (arr x).leftId
          if z = 0 then .error (arr, root)
          else
            let absorbed := decide ((arr z).balance = 0)
            let rotated :=
              if fromTheLeft then
                if (arr z).balance ≥ 0 then avlRotateLeft arr x z else avlRotateRightLeft arr x z
              else
                if (arr z).balance ≤ 0 then avlRotateRight arr x z else avlRotateLeftRight arr x z
            let arr := rotated.1.setParent rotated.2 parent
            let nextFromTheLeft := decide ((arr parent).leftId = x)
            let (arr, root) := reconnect arr root parent x rotated.2
            if parent = 0 ∨ absorbed then .ok (arr, root)
            else deleteRetrace fuel arr root parent nextFromTheLeft

/-- The cache update before the node is unlinked. -/
def cacheDelete (build : Build) (arr : Arr) (tree : AvlTree) (node : Nat) : AvlTree :=
  if build.avlCaching then
    let tree :=
      if node = tree.minId then
        let next := avlNextNode build arr node
        { tree with minId := next, minKey := if next = 0 then tree.minKey else (arr next).key }
      else tree
    if node = tree.maxId then
      let prev := avlPrevNode build arr node
      { tree with maxId := prev, maxKey := if prev = 0 then tree.maxKey else (arr prev).key }
    else tree
  else tree

/-- What unlinking leaves for the retrace: array, root, the node whose side has
shrunk and that side. -/
structure Unlinked where
  arr : Arr
  root : Nat
  x : Nat
  fromTheLeft : Bool

/-- The structural part of `avl_tree_delete`. A failed defensive check makes the source
return at once; that outcome is an error, as in the retrace. A node with two children is
replaced by its successor, which is deep in the right subtree or the right child itself. -/
def unlinkNode (build : Build) (arr : Arr) (root node : Nat) : Except (Arr × Nat) Unlinked :=
  let x := (arr node).parentId
  let fromTheLeft := decide (x ≠ 0 ∧ (arr x).leftId = node)
  if (arr node).leftId = 0 then
    let (arr, root) := avlReplaceNode arr root node (arr node).rightId
    .ok { arr := arr, root := root, x := x, fromTheLeft := fromTheLeft }
  else if (arr node).rightId = 0 then
    let (arr, root) := avlReplaceNode arr root node (arr node).leftId
    .ok { arr := arr, root := root, x := x, fromTheLeft := fromTheLeft }
  else
    let next := avlNextNode build arr node
    if next = 0 then .error (arr, root)
    else
      let arr := arr.setBalance next (arr node).balance
      if (arr next).parentId ≠ node then
        let x := (arr next).parentId
        if x = 0 then .error (arr, root)
        else
          let fromTheLeft := decide ((arr x).leftId = next)
          let (arr, root) := avlReplaceNode arr root next (arr next).rightId
          let arr := arr.setRight next (arr node).rightId
          if (arr node).rightId = 0 then .error (arr, root)
          else
            let arr := arr.setParent (arr node).rightId next
            let (arr, root) := avlReplaceNode arr root node next
            let arr := arr.setLeft next (arr node).leftId
            if (arr node).leftId = 0 then .error (arr, root)
            else
              .ok { arr := arr.setParent (arr node).leftId next, root := root
                    x := x, fromTheLeft := fromTheLeft }
      else
        let (arr, root) := avlReplaceNode arr root node next
        let arr := arr.setLeft next (arr node).leftId
        if (arr node).leftId = 0 then .error (arr, root)
        else
          .ok { arr := arr.setParent (arr node).leftId next, root := root
                x := next, fromTheLeft := false }

def avlTreeDelete (build : Build) (state : AvlState) (node : Nat) : AvlState :=
  if (state.arr node).isOrphan then
    let state := removeOrphan state node
    { state with arr := state.arr.setOrphan node false }
  else
    let tree := cacheDelete build state.arr state.tree node
    let rebalanced := do
      let unlinked ← unlinkNode build state.arr tree.root node
      deleteRetrace build.maxAvlHeight unlinked.arr unlinked.root unlinked.x unlinked.fromTheLeft
    match rebalanced with
    | .error (arr, root) => { arr := arr, tree := { tree with root := root } }
    | .ok (arr, root) =>
        let (state, orphan) := popFirstOrphan { arr := arr, tree := { tree with root := root } }
        if orphan = 0 then state else avlTreeInsert build state orphan

/-- `avl_tree_pop_min`: the state afterwards and the node returned, if any. -/
def avlTreePopMin (build : Build) (state : AvlState) : AvlState × Nat :=
  let min := avlTreeMin build state
  (if min = 0 then state else avlTreeDelete build state min, min)

def avlTreePopMax (build : Build) (state : AvlState) : AvlState × Nat :=
  let max := avlTreeMax build state
  (if max = 0 then state else avlTreeDelete build state max, max)

end Ghost.Avl
