import Ghost.Avl.Walks

/-!
# Unlinking a node

The structural part of deletion. A node with at most one child is replaced by
that child. Otherwise its successor takes over its place, and the hole moves to
where the successor was. In every shape the outcome is a context whose balances
are those of a hole one level higher than what fills it now.
-/

set_option autoImplicit false

namespace Ghost.Avl

open Lib

/-! ## Replacing a node -/

@[simp] theorem avlReplaceNode_data (arr : Arr) (root x withId id : Nat) :
    ((avlReplaceNode arr root x withId).1 id).data = (arr id).data := by
  simp only [avlReplaceNode, Arr.setParentIf]
  split <;> split <;> try split
  all_goals simp

/-- Replacement is reconnection followed by the parent link of the new content. -/
theorem avlReplaceNode_eq {arr : Arr} {root x height : Nat} {context : Context Nat}
    (around : LinkedAt arr root x height context) (parentEq : (arr x).parentId = parentId context)
    (outside : x ∉ contextIds context) (withId : Nat) :
    avlReplaceNode arr root x withId =
      ((reconnect arr root (parentId context) x withId).1.setParentIf withId (parentId context),
        (reconnect arr root (parentId context) x withId).2) := by
  unfold avlReplaceNode reconnect
  rw [parentEq]
  by_cases top : parentId context = 0
  · simp [top, parentEq]
  · have different : x ≠ parentId context := by
      intro same
      have nonempty := around.parentId_ne_zero.not.mp top
      exact outside (same ▸ Context.parentD_mem nonempty)
    simp only [if_neg top]
    split <;> simp [different, parentEq]

/-- Replacing the hole's content touches the slot of the hole and the parent link
of the new content. -/
theorem LinkedAt.avlReplaceNode {arr : Arr} {root x height : Nat} {context : Context Nat}
    (around : LinkedAt arr root x height context) (parentEq : (arr x).parentId = parentId context)
    (unique : (contextIds context).Nodup) (present : x ≠ 0) (outside : x ∉ contextIds context)
    (withId : Nat) (withOutside : withId ≠ 0 → withId ∉ contextIds context) :
    LinkedAt (avlReplaceNode arr root x withId).1 (avlReplaceNode arr root x withId).2 withId height
        context ∧
      ∀ id ∉ contextIds context, (avlReplaceNode arr root x withId).1 id =
        arr.setParentIf withId (parentId context) id := by
  rw [avlReplaceNode_eq around parentEq outside]
  obtain ⟨connected, frame, -⟩ := around.reconnect unique present outside withId
  by_cases absent : withId = 0
  · simp only [Arr.setParentIf, absent, if_true] at connected frame ⊢
    exact ⟨connected, frame⟩
  · simp only [Arr.setParentIf, absent, if_false]
    refine ⟨connected.congr fun id inside => ?_, fun id apart => ?_⟩
    · exact Arr.setParent_of_ne _ _ fun same => withOutside absent (same ▸ inside)
    · by_cases same : id = withId
      · subst same
        rw [Arr.setParent_self, Arr.setParent_self, frame id apart]
      · rw [Arr.setParent_of_ne _ _ same, Arr.setParent_of_ne _ _ same, frame id apart]

/-! ## The three shapes -/

/-- The array after unlinking: the context still stores the balances of a hole
one level higher, and nothing outside the given nodes has changed. -/
structure UnlinkedAt (arr : Arr) (ids : List Nat) (unlinked : Unlinked) (context : Context Nat)
    (shrunk : BinaryTree Nat) : Prop where
  x : unlinked.x = parentId context
  side : unlinked.fromTheLeft = fromLeft context
  linked : Linked unlinked.arr (parentId context) shrunk
  around : LinkedAt unlinked.arr unlinked.root (rootId shrunk) (shrunk.height + 1) context
  frame : ∀ id ∉ ids, unlinked.arr id = arr id
  data : ∀ id, (unlinked.arr id).data = (arr id).data

section Shapes

variable {arr : Arr} {root node height : Nat} {context : Context Nat}

private theorem LinkedAt.fromLeft_eq (around : LinkedAt arr root node height context)
    (present : node ≠ 0) (outside : node ∉ contextIds context) :
    decide (parentId context ≠ 0 ∧ (arr (parentId context)).leftId = node) = fromLeft context := by
  by_cases top : context = []
  · subst top
    rfl
  · rw [← around.leftId_eq_iff top present outside]
    simp [around.parentId_ne_zero, top]

/-- A node with a missing child: the other child moves up. -/
private theorem unlink_child {child : BinaryTree Nat} {unlinked : Unlinked}
    (around : LinkedAt arr root node (child.height + 1) context)
    (parentEq : (arr node).parentId = parentId context)
    (linked : Linked arr node child) (present : node ≠ 0)
    (outside : node ∉ contextIds context) (unique : (context.plug child).inorder.Nodup)
    (x : unlinked.x = parentId context) (side : unlinked.fromTheLeft = fromLeft context)
    (replaced : avlReplaceNode arr root node (rootId child) = (unlinked.arr, unlinked.root)) :
    UnlinkedAt arr (context.plug child).inorder unlinked context child := by
  obtain ⟨childUnique, contextUnique, childApart⟩ := plug_nodup_iff.mp unique
  have rootOutside : rootId child ≠ 0 → rootId child ∉ contextIds context := fun some =>
    childApart _ (BinaryTree.rootD_mem (linked.rootId_eq_zero.not.mp some))
  have newArr : unlinked.arr = (avlReplaceNode arr root node (rootId child)).1 := by rw [replaced]
  have newRoot : unlinked.root = (avlReplaceNode arr root node (rootId child)).2 := by rw [replaced]
  obtain ⟨around', cells⟩ := around.avlReplaceNode parentEq contextUnique present outside _
    rootOutside
  rw [← newArr, ← newRoot] at around'
  rw [← newArr] at cells
  refine ⟨x, side, ?_, around', ?_, ?_⟩
  · exact (linked.setParentIf childUnique _).congr fun id inside => cells id (childApart id inside)
  · intro id other
    rw [mem_plug_iff, not_or] at other
    rw [cells id other.2, Arr.setParentIf_rootId _ other.1]
  · intro id
    rw [newArr, avlReplaceNode_data]

/-- The end of both successor shapes: `next` takes the place of the node in its
context and adopts its left subtree. -/
private theorem take_over {next : Nat} {left : BinaryTree Nat}
    (around : LinkedAt arr root node height context)
    (parentEq : (arr node).parentId = parentId context) (leftEq : (arr node).leftId = rootId left)
    (linked : Linked arr node left) (leftPresent : left ≠ .nil) (present : node ≠ 0)
    (nextPresent : next ≠ 0) (nodeNext : node ≠ next) (nextLeft : next ∉ left.inorder)
    (nodeOutside : node ∉ contextIds context) (nextOutside : next ∉ contextIds context)
    (leftApart : ∀ id ∈ left.inorder, id ∉ contextIds context)
    (leftUnique : left.inorder.Nodup) (contextUnique : (contextIds context).Nodup)
    {taken adopted : Arr} {root' : Nat}
    (replaced : avlReplaceNode arr root node next = (taken, root'))
    (adopts : taken.setLeft next (taken node).leftId = adopted) :
    (adopted node).leftId = rootId left ∧
      LinkedAt (adopted.setParent (rootId left) next) root' next height context ∧
      Linked (adopted.setParent (rootId left) next) next left ∧
      adopted.setParent (rootId left) next next =
        { arr next with parentId := parentId context, leftId := rootId left } ∧
      ∀ id, id ∉ contextIds context → id ∉ left.inorder → id ≠ next →
        adopted.setParent (rootId left) next id = arr id := by
  have rootIn : rootId left ∈ left.inorder := BinaryTree.rootD_mem leftPresent
  have rootPresent : rootId left ≠ 0 := linked.ne_zero _ rootIn
  have newArr : taken = (avlReplaceNode arr root node next).1 := by rw [replaced]
  have newRoot : root' = (avlReplaceNode arr root node next).2 := by rw [replaced]
  obtain ⟨around', cells⟩ := around.avlReplaceNode parentEq contextUnique present
    nodeOutside next fun _ => nextOutside
  rw [← newArr, ← newRoot] at around'
  rw [← newArr] at cells
  have takenNext : taken next = { arr next with parentId := parentId context } := by
    rw [cells next nextOutside, Arr.setParentIf, if_neg nextPresent,
      Arr.setParent_self]
  have takenOther : ∀ id, id ∉ contextIds context → id ≠ next → taken id = arr id := by
    intro id outside different
    rw [cells id outside, Arr.setParentIf_of_ne _ _ different]
  have takenNode : (taken node).leftId = rootId left := by
    rw [takenOther node nodeOutside nodeNext, leftEq]
  rw [takenNode] at adopts
  subst adopts
  have inContext : ∀ id ∈ contextIds context, id ≠ next ∧ id ≠ rootId left := fun id inside =>
    ⟨fun same => nextOutside (same ▸ inside), fun same => leftApart _ rootIn (same ▸ inside)⟩
  refine ⟨?_, around'.congr ?_, ?_, ?_, ?_⟩
  · rw [Arr.setLeft_of_ne _ _ nodeNext, takenNode]
  · intro id inside
    rw [Arr.setParent_of_ne _ _ (inContext id inside).2, Arr.setLeft_of_ne _ _ (inContext id inside).1]
  · refine (linked.setParentIf leftUnique next).congr fun id inside => ?_
    have different : id ≠ next := fun same => nextLeft (same ▸ inside)
    have outside := leftApart id inside
    rw [Arr.setParentIf, if_neg rootPresent]
    by_cases top : id = rootId left
    · rw [top, Arr.setParent_self, Arr.setParent_self, ← top, Arr.setLeft_of_ne _ _ different,
        takenOther id outside different]
    · rw [Arr.setParent_of_ne _ _ top, Arr.setParent_of_ne _ _ top, Arr.setLeft_of_ne _ _ different,
        takenOther id outside different]
  · have different : next ≠ rootId left := fun same => nextLeft (same ▸ rootIn)
    rw [Arr.setParent_of_ne _ _ different, Arr.setLeft_self, takenNext]
  · intro id outside notLeft different
    have notRoot : id ≠ rootId left := fun same => notLeft (same ▸ rootIn)
    rw [Arr.setParent_of_ne _ _ notRoot, Arr.setLeft_of_ne _ _ different,
      takenOther id outside different]

/-- The successor is the right child of the node. -/
private theorem unlink_adjacent {next : Nat} {left nextRight : BinaryTree Nat}
    (linked : Linked arr (parentId context) (.node node left (.node next .nil nextRight)))
    (around : LinkedAt arr root node
      (BinaryTree.node node left (.node next .nil nextRight)).height context)
    (unique : (context.plug (.node node left (.node next .nil nextRight))).inorder.Nodup)
    (leftPresent : left ≠ .nil) {taken adopted : Arr} {root' : Nat}
    (replaced : avlReplaceNode (arr.setBalance next (arr node).balance) root node next =
      (taken, root'))
    (adopts : taken.setLeft next (taken node).leftId = adopted) :
    (adopted node).leftId = rootId left ∧
      UnlinkedAt arr (context.plug (.node node left (.node next .nil nextRight))).inorder
        { arr := adopted.setParent (rootId left) next, root := root', x := next
          fromTheLeft := false }
        (⟨.right, next, left⟩ :: context) nextRight := by
  obtain ⟨present, parentEq, leftEq, -, balanceEq, leftLinked, nextPresent, -, -, nextRightEq, -, -,
    nextRightLinked⟩ := linked
  obtain ⟨subUnique, contextUnique, apart⟩ := plug_nodup_iff.mp unique
  simp only [BinaryTree.inorder_node, BinaryTree.inorder_nil, List.nil_append] at subUnique apart
  have nodeNext : node ≠ next := by grind
  have nextLeft : next ∉ left.inorder := by grind
  have leftUnique : left.inorder.Nodup := by grind
  have nextOutside := apart next (by simp)
  have leftKept : ∀ id ∈ left.inorder, arr.setBalance next (arr node).balance id = arr id :=
    fun id inside => Arr.setBalance_of_ne _ _ fun same => nextLeft (same ▸ inside)
  have contextKept : ∀ id ∈ contextIds context, arr.setBalance next (arr node).balance id = arr id :=
    fun id inside => Arr.setBalance_of_ne _ _ fun same => nextOutside (same ▸ inside)
  have nodeKept : arr.setBalance next (arr node).balance node = arr node :=
    Arr.setBalance_of_ne _ _ nodeNext
  obtain ⟨leftEq', around', leftLinked', nextCell, others⟩ :=
    take_over (around.congr contextKept) (by rw [nodeKept, parentEq])
      (by rw [nodeKept, leftEq]) (leftLinked.congr leftKept) leftPresent present nextPresent
      nodeNext nextLeft (apart node (by simp)) nextOutside
      (fun id inside => apart id (by simp [inside])) leftUnique contextUnique replaced adopts
  have untouched : ∀ id, id ∉ contextIds context → id ∉ left.inorder → id ≠ next →
      adopted.setParent (rootId left) next id = arr id := fun id outside notLeft different =>
    (others id outside notLeft different).trans (Arr.setBalance_of_ne _ _ different)
  refine ⟨leftEq', rfl, rfl, ?_, ?_, ?_, ?_⟩
  · refine nextRightLinked.congr fun id inside => ?_
    exact untouched id (apart id (by simp [inside])) (by grind) (by grind)
  · simp only [linkedAt_right, nextCell, Arr.setBalance_self]
    refine ⟨nextPresent, trivial, trivial, nextRightEq, ?_, leftLinked', ?_⟩
    · simpa [BinaryTree.height] using balanceEq
    · convert around' using 2
      simp [BinaryTree.height, max_comm]
  · intro id outside
    simp only [mem_plug_iff, BinaryTree.inorder_node, List.mem_append, List.mem_cons, not_or] at outside
    exact untouched id (by simpa using outside.2) outside.1.1 outside.1.2.2.2.1
  · intro id
    have takenData := avlReplaceNode_data (arr.setBalance next (arr node).balance) root node next id
    rw [replaced] at takenData
    simp only [← adopts, Arr.setParent_data, Arr.setLeft_data, takenData, Arr.setBalance_data]

/-- The part of a linked context beyond some inner frames. -/
private theorem LinkedAt.outer {hole : Nat} {inner outer : Context Nat} {frame : Frame Nat}
    (around : LinkedAt arr root hole height (inner ++ frame :: outer)) (nonempty : inner ≠ [])
    (tree : BinaryTree Nat) :
    LinkedAt arr root (rootId (inner.plug tree)) (inner.heightAt height) (frame :: outer) := by
  induction inner generalizing hole height tree with
  | nil => exact absurd rfl nonempty
  | cons first inner ih =>
      rcases first with ⟨side, id, sibling⟩
      have rest : LinkedAt arr root id (max height sibling.height + 1) (inner ++ frame :: outer) := by
        cases side <;> exact around.2.2.2.2.2.2
      by_cases last : inner = []
      · subst last
        cases side <;> exact rest
      · exact ih rest last _

private theorem rootId_plug_mem {inner : Context Nat} (nonempty : inner ≠ [])
    (tree : BinaryTree Nat) : rootId (inner.plug tree) ∈ contextIds inner := by
  induction inner generalizing tree with
  | nil => exact absurd rfl nonempty
  | cons frame inner ih =>
      rw [mem_contextIds_cons]
      by_cases last : inner = []
      · subst last
        rcases frame with ⟨side, id, sibling⟩
        cases side <;> exact .inl rfl
      · exact .inr (.inr (ih last _))

private theorem parentId_append {inner : Context Nat} (nonempty : inner ≠ [])
    (outer : Context Nat) : parentId (inner ++ outer) = parentId inner := by
  cases inner with
  | nil => exact absurd rfl nonempty
  | cons frame inner => rfl

private theorem fromLeft_append {inner : Context Nat} (nonempty : inner ≠ [])
    (outer : Context Nat) : fromLeft (inner ++ outer) = fromLeft inner := by
  cases inner with
  | nil => exact absurd rfl nonempty
  | cons frame inner =>
      rcases frame with ⟨side, id, sibling⟩
      cases side <;> rfl

/-- Exchanging the node above some inner frames rewrites one parent link of them. -/
private theorem LinkedAt.exchange {arr' : Arr} {root' hole : Nat} {inner outer outer' : Context Nat}
    {frame frame' : Frame Nat}
    (around : LinkedAt arr root hole height (inner ++ frame :: outer)) (nonempty : inner ≠ [])
    (unique : (contextIds inner).Nodup) (tree : BinaryTree Nat)
    (cells : ∀ id ∈ contextIds inner, arr' id =
      if id = rootId (inner.plug tree) then { arr id with parentId := frame'.value } else arr id)
    (above : LinkedAt arr' root' (rootId (inner.plug tree)) (inner.heightAt height)
      (frame' :: outer')) :
    LinkedAt arr' root' hole height (inner ++ frame' :: outer') := by
  induction inner generalizing hole height tree with
  | nil => exact absurd rfl nonempty
  | cons first inner ih =>
      rcases first with ⟨side, id, sibling⟩
      have idApart : id ∉ sibling.inorder ∧ id ∉ contextIds inner := by
        cases side <;> simp only [contextIds, Context.before, Context.after] at unique ⊢ <;> grind
      have innerUnique : (contextIds inner).Nodup := by
        cases side <;> simp only [contextIds, Context.before, Context.after] at unique ⊢ <;> grind
      have siblingApart : ∀ other ∈ sibling.inorder, other ∉ contextIds inner := by
        cases side <;> simp only [contextIds, Context.before, Context.after] at unique ⊢ <;> grind
      have rest : LinkedAt arr root id (max height sibling.height + 1) (inner ++ frame :: outer) := by
        cases side <;> exact around.2.2.2.2.2.2
      simp only [mem_contextIds_cons] at cells
      by_cases last : inner = []
      · subst last
        have top : rootId (Context.plug [⟨side, id, sibling⟩] tree) = id := by cases side <;> rfl
        rw [top] at cells above
        have idCell := cells id (.inl rfl)
        rw [if_pos rfl] at idCell
        have sibCells : ∀ other ∈ sibling.inorder, arr' other = arr other := fun other inside => by
          rw [cells other (.inr (.inl inside)),
            if_neg fun (same : other = id) => idApart.1 (same ▸ inside)]
        cases side with
        | left =>
            obtain ⟨present, -, leftEq, rightEq, balanceEq, sibLinked, -⟩ := around
            simp only [List.cons_append, List.nil_append, linkedAt_left, idCell]
            exact ⟨present, rfl, leftEq, rightEq, balanceEq, sibLinked.congr sibCells, above⟩
        | right =>
            obtain ⟨present, -, leftEq, rightEq, balanceEq, sibLinked, -⟩ := around
            simp only [List.cons_append, List.nil_append, linkedAt_right, idCell]
            exact ⟨present, rfl, leftEq, rightEq, balanceEq, sibLinked.congr sibCells, above⟩
      · have topIn : rootId (Context.plug (⟨side, id, sibling⟩ :: inner) tree) ∈ contextIds inner :=
          rootId_plug_mem last _
        have idCell : arr' id = arr id := by
          rw [cells id (.inl rfl), if_neg]
          exact fun same => idApart.2 (same ▸ topIn)
        have sibCells : ∀ other ∈ sibling.inorder, arr' other = arr other := fun other inside => by
          rw [cells other (.inr (.inl inside)), if_neg]
          exact fun same => siblingApart other inside (same ▸ topIn)
        have inside := ih rest last innerUnique (Frame.attach ⟨side, id, sibling⟩ tree)
          (fun other inside => cells other (.inr (.inr inside))) above
        have sameParent : parentId (inner ++ frame' :: outer') = parentId (inner ++ frame :: outer) := by
          rw [parentId_append last, parentId_append last]
        cases side with
        | left =>
            obtain ⟨present, parentEq, leftEq, rightEq, balanceEq, sibLinked, -⟩ := around
            simp only [List.cons_append, linkedAt_left, idCell, sameParent]
            exact ⟨present, parentEq, leftEq, rightEq, balanceEq, sibLinked.congr sibCells, inside⟩
        | right =>
            obtain ⟨present, parentEq, leftEq, rightEq, balanceEq, sibLinked, -⟩ := around
            simp only [List.cons_append, linkedAt_right, idCell, sameParent]
            exact ⟨present, parentEq, leftEq, rightEq, balanceEq, sibLinked.congr sibCells, inside⟩

/-- The deep successor, seen from its own place in the whole tree. -/
private theorem successor_linked {next : Nat} {left nextRight : BinaryTree Nat}
    {inner : Context Nat}
    (linked : Linked arr (parentId context)
      (.node node left (inner.plug (.node next .nil nextRight))))
    (around : LinkedAt arr root node
      (BinaryTree.node node left (inner.plug (.node next .nil nextRight))).height context) :
    (inner ++ ⟨.right, node, left⟩ :: context).plug (.node next .nil nextRight) =
        context.plug (.node node left (inner.plug (.node next .nil nextRight))) ∧
      Linked arr (parentId (inner ++ ⟨.right, node, left⟩ :: context)) (.node next .nil nextRight) ∧
      LinkedAt arr root next (nextRight.height + 1) (inner ++ ⟨.right, node, left⟩ :: context) := by
  have whole : (inner ++ ⟨.right, node, left⟩ :: context).plug (.node next .nil nextRight) =
      context.plug (.node node left (inner.plug (.node next .nil nextRight))) := by
    rw [Context.plug_append]
    rfl
  have treeLinked := linked_plug.mpr ⟨linked, around⟩
  rw [← whole] at treeLinked
  obtain ⟨nextLinked, nextAround⟩ := linked_plug.mp treeLinked
  simp only [BinaryTree.height, Nat.zero_max, BinaryTree.rootD_node] at nextAround
  exact ⟨whole, nextLinked, nextAround⟩

/-! ### The deep successor -/

/-- Where the parts of the tree are that a deep successor is taken from. -/
private structure Deep (context inner : Context Nat) (node next : Nat)
    (left nextRight right : BinaryTree Nat) : Prop where
  leftUnique : left.inorder.Nodup
  nextRightUnique : nextRight.inorder.Nodup
  innerUnique : (contextIds inner).Nodup
  contextUnique : (contextIds context).Nodup
  wideUnique : (contextIds (inner ++ ⟨.right, node, left⟩ :: context)).Nodup
  top : rootId right ∈ contextIds inner
  inRight : ∀ id, id = next ∨ id ∈ nextRight.inorder ∨ id ∈ contextIds inner → id ∈ right.inorder
  nextInner : next ∉ contextIds inner
  nextRightInner : ∀ id ∈ nextRight.inorder, id ∉ contextIds inner
  nextNotBelow : next ∉ nextRight.inorder
  nodeRight : node ∉ right.inorder
  leftApart : ∀ id ∈ left.inorder, id ∉ right.inorder
  outside : ∀ id, id ∈ left.inorder ∨ id = node ∨ id ∈ right.inorder → id ∉ contextIds context
  wideApart : ∀ id, id = next ∨ id ∈ nextRight.inorder →
    id ∉ contextIds (inner ++ ⟨.right, node, left⟩ :: context)

section Deep

variable {next : Nat} {left nextRight right : BinaryTree Nat} {inner : Context Nat}
  {spliced hung taken adopted : Arr} {root₁ root' : Nat}

private theorem Deep.of_unique (deep : inner ≠ [])
    (split : right = inner.plug (.node next .nil nextRight))
    (unique : (context.plug (.node node left right)).inorder.Nodup)
    (whole : (inner ++ ⟨.right, node, left⟩ :: context).plug (.node next .nil nextRight) =
      context.plug (.node node left right)) : Deep context inner node next left nextRight right := by
  have wide := unique
  rw [← whole] at wide
  obtain ⟨-, wideUnique, wideApart⟩ := plug_nodup_iff.mp wide
  obtain ⟨subUnique, contextUnique, apart⟩ := plug_nodup_iff.mp unique
  simp only [BinaryTree.inorder_node, List.nodup_append, List.nodup_cons, List.mem_cons]
    at subUnique
  obtain ⟨leftUnique, ⟨nodeRight, rightUnique⟩, leftApart⟩ := subUnique
  rw [split] at rightUnique
  obtain ⟨nextUnique, innerUnique, innerApart⟩ := plug_nodup_iff.mp rightUnique
  simp only [BinaryTree.inorder_node, BinaryTree.inorder_nil, List.nil_append, List.nodup_cons]
    at nextUnique
  constructor
  · exact leftUnique
  · exact nextUnique.2
  · exact innerUnique
  · exact contextUnique
  · exact wideUnique
  · exact split ▸ rootId_plug_mem deep _
  · intro id inside
    rw [split, mem_plug_iff]
    simpa [or_assoc] using inside
  · exact innerApart next (by simp)
  · exact fun id inside => innerApart id (by simp [inside])
  · exact nextUnique.1
  · exact nodeRight
  · exact fun id inside inRight => leftApart id inside id (.inr inRight) rfl
  · exact fun id inside => apart id (by simpa using inside)
  · intro id inside
    apply wideApart
    simpa using inside

variable (parts : Deep context inner node next left nextRight right)

section Parts

include parts

private theorem Deep.next_right : next ∈ right.inorder := parts.inRight next (.inl rfl)

private theorem Deep.node_ne_next : node ≠ next :=
  fun same => parts.nodeRight (same ▸ parts.next_right)

private theorem Deep.next_left : next ∉ left.inorder :=
  fun inside => parts.leftApart next inside parts.next_right

private theorem Deep.next_context : next ∉ contextIds context :=
  parts.outside next (.inr (.inr parts.next_right))

private theorem Deep.not_top {id : Nat} (apart : id ∉ contextIds inner) : id ≠ rootId right :=
  fun same => apart (same ▸ parts.top)

private theorem Deep.nextRight_ne {id : Nat} (inside : id ∈ nextRight.inorder) : id ≠ next :=
  fun same => parts.nextNotBelow (same ▸ inside)

end Parts

/-- The successor leaves its place. -/
private theorem Deep.splice (parts : Deep context inner node next left nextRight right)
    (nextLinked : Linked arr (parentId (inner ++ ⟨.right, node, left⟩ :: context))
      (.node next .nil nextRight))
    (nextAround : LinkedAt arr root next (nextRight.height + 1)
      (inner ++ ⟨.right, node, left⟩ :: context))
    (removed : avlReplaceNode (arr.setBalance next (arr node).balance) root next (rootId nextRight) =
      (spliced, root₁)) :
    LinkedAt spliced root₁ (rootId nextRight) (nextRight.height + 1)
        (inner ++ ⟨.right, node, left⟩ :: context) ∧
      ∀ id ∉ contextIds (inner ++ ⟨.right, node, left⟩ :: context), spliced id =
        (arr.setBalance next (arr node).balance).setParentIf (rootId nextRight)
          (parentId (inner ++ ⟨.right, node, left⟩ :: context)) id := by
  obtain ⟨nextPresent, nextParent, -, -, -, -, nextRightLinked⟩ := nextLinked
  have nextWide := parts.wideApart next (.inl rfl)
  have rebalanced : LinkedAt (arr.setBalance next (arr node).balance) root next _ _ :=
    nextAround.congr fun id inside =>
      Arr.setBalance_of_ne _ _ fun same => nextWide (same ▸ inside)
  have replaced := rebalanced.avlReplaceNode (by simpa using nextParent) parts.wideUnique nextPresent
    nextWide (rootId nextRight) fun some => parts.wideApart _
      (.inr (BinaryTree.rootD_mem (nextRightLinked.rootId_eq_zero.not.mp some)))
  rw [removed] at replaced
  exact replaced

/-! #### It adopts the right subtree of the node -/

section Hangs

variable (hangs : (spliced.setRight next (rootId right)).setParent (rootId right) next = hung)
include hangs

private theorem hung_other {id : Nat} (notNext : id ≠ next) (notTop : id ≠ rootId right) :
    hung id = spliced id := by
  rw [← hangs, Arr.setParent_of_ne _ _ notTop, Arr.setRight_of_ne _ _ notNext]

include parts

private theorem Deep.hung_next : hung next = { spliced next with rightId := rootId right } := by
  rw [← hangs, Arr.setParent_of_ne _ _ (parts.not_top parts.nextInner), Arr.setRight_self]

private theorem Deep.hung_left : ∀ id ∈ left.inorder, hung id = spliced id := by
  intro id inside
  have apart := parts.leftApart id inside
  exact hung_other hangs (fun same => apart (same ▸ parts.next_right))
    (parts.not_top fun other => apart (parts.inRight id (.inr (.inr other))))

private theorem Deep.hung_context : ∀ id ∈ contextIds context, hung id = spliced id := by
  intro id inside
  have apart : id ∉ right.inorder := fun other => parts.outside id (.inr (.inr other)) inside
  exact hung_other hangs (fun same => apart (same ▸ parts.next_right))
    (parts.not_top fun other => apart (parts.inRight id (.inr (.inr other))))

private theorem Deep.hung_node : hung node = spliced node :=
  hung_other hangs parts.node_ne_next
    (parts.not_top fun other => parts.nodeRight (parts.inRight node (.inr (.inr other))))

private theorem Deep.hung_inner (split : right = inner.plug (.node next .nil nextRight)) :
    ∀ id ∈ contextIds inner, hung id =
      if id = rootId (inner.plug (.node next .nil nextRight)) then
        { spliced id with parentId := next } else spliced id := by
  intro id inside
  have notNext : id ≠ next := fun same => parts.nextInner (same ▸ inside)
  rw [← split]
  split
  · next isTop => rw [← hangs, isTop, Arr.setParent_self, ← isTop, Arr.setRight_of_ne _ _ notNext]
  · next other => exact hung_other hangs notNext other

end Hangs

/-! #### It takes the place of the node -/

/-- What follows from the steps together: the cells of the final array. -/
private structure Settled (context inner : Context Nat) (node next : Nat)
    (left nextRight right : BinaryTree Nat) (arr spliced hung final : Arr) : Prop where
  parts : Deep context inner node next left nextRight right
  hangs : (spliced.setRight next (rootId right)).setParent (rootId right) next = hung
  cells : ∀ id ∉ contextIds (inner ++ ⟨.right, node, left⟩ :: context), spliced id =
    (arr.setBalance next (arr node).balance).setParentIf (rootId nextRight)
      (parentId (inner ++ ⟨.right, node, left⟩ :: context)) id
  nextCell : final next = { hung next with parentId := parentId context, leftId := rootId left }
  others : ∀ id, id ∉ contextIds context → id ∉ left.inorder → id ≠ next → final id = hung id

variable {final : Arr} (settled : Settled context inner node next left nextRight right arr spliced
  hung final)

section Settled

include settled

private theorem Settled.in_right : ∀ id ∈ right.inorder, id ≠ next → final id = hung id := by
  intro id inside different
  exact settled.others id (settled.parts.outside id (.inr (.inr inside)))
    (fun other => settled.parts.leftApart id other inside) different

private theorem Settled.linked (deep : inner ≠ []) (nextRightLinked : Linked arr next nextRight) :
    Linked final (parentId inner) nextRight := by
  have parts := settled.parts
  have rebalanced : Linked (arr.setBalance next (arr node).balance) next nextRight :=
    nextRightLinked.congr fun id inside => Arr.setBalance_of_ne _ _ (parts.nextRight_ne inside)
  refine (rebalanced.setParentIf parts.nextRightUnique (parentId inner)).congr fun id inside => ?_
  have notNext := parts.nextRight_ne inside
  have cell := settled.cells id (parts.wideApart id (.inr inside))
  rw [parentId_append deep] at cell
  rw [settled.in_right id (parts.inRight id (.inr (.inl inside))) notNext,
    hung_other settled.hangs notNext (parts.not_top (parts.nextRightInner id inside))]
  exact cell

private theorem Settled.next_eq : final next = { arr next with
    parentId := parentId context, leftId := rootId left, rightId := rootId right,
    balance := (arr node).balance } := by
  have parts := settled.parts
  have cell := settled.cells next (parts.wideApart next (.inl rfl))
  rw [Arr.setParentIf_rootId _ parts.nextNotBelow, Arr.setBalance_self] at cell
  rw [settled.nextCell, parts.hung_next settled.hangs, cell]

/-- The right subtree hangs from the successor as it did from the node. -/
private theorem Settled.around (deep : inner ≠ [])
    (split : right = inner.plug (.node next .nil nextRight)) (nextPresent : next ≠ 0)
    (before : LinkedAt arr root next (nextRight.height + 1)
      (inner ++ ⟨.right, node, left⟩ :: context))
    (splicedAround : LinkedAt spliced root₁ (rootId nextRight) (nextRight.height + 1)
      (inner ++ ⟨.right, node, left⟩ :: context))
    (leftLinked : Linked final next left)
    (above : LinkedAt final root' next
      (max (inner.heightAt (nextRight.height + 1)) left.height + 1) context) :
    LinkedAt final root' (rootId nextRight) (nextRight.height + 1)
      (inner ++ ⟨.right, next, left⟩ :: context) := by
  have parts := settled.parts
  refine splicedAround.exchange deep parts.innerUnique (.node next .nil nextRight) ?_ ?_
  · intro id inside
    have notNext : id ≠ next := fun same => parts.nextInner (same ▸ inside)
    rw [settled.in_right id (parts.inRight id (.inr (.inr inside))) notNext]
    exact parts.hung_inner settled.hangs split id inside
  · have balanceEq := (before.outer deep (.node next .nil nextRight)).2.2.2.2.1
    rw [← split]
    simp only [linkedAt_right, settled.next_eq]
    exact ⟨nextPresent, trivial, trivial, trivial, balanceEq, leftLinked, above⟩

private theorem Settled.frame
    (whole : (inner ++ ⟨.right, node, left⟩ :: context).plug (.node next .nil nextRight) =
      context.plug (.node node left right)) :
    ∀ id ∉ (context.plug (.node node left right)).inorder, final id = arr id := by
  intro id apart
  have parts := settled.parts
  have wide := whole ▸ apart
  simp only [mem_plug_iff, BinaryTree.inorder_node, BinaryTree.inorder_nil, List.nil_append,
    List.mem_append, List.mem_cons, not_or] at apart wide
  obtain ⟨⟨notLeft, notNode, notRight⟩, outContext⟩ := apart
  have notNext : id ≠ next := wide.1.1
  have notTop := parts.not_top fun inside => notRight (parts.inRight id (.inr (.inr inside)))
  rw [settled.others id (by simpa using outContext) notLeft notNext,
    hung_other settled.hangs notNext notTop, settled.cells id (by simpa using wide.2),
    Arr.setParentIf_rootId _ wide.1.2, Arr.setBalance_of_ne _ _ notNext]

end Settled

/-- The successor is further down: it leaves its place, adopts the node's right
subtree and takes over from the node. -/
private theorem unlink_deep (deep : inner ≠ [])
    (split : right = inner.plug (.node next .nil nextRight))
    (linked : Linked arr (parentId context) (.node node left right))
    (around : LinkedAt arr root node (BinaryTree.node node left right).height context)
    (unique : (context.plug (.node node left right)).inorder.Nodup) (leftPresent : left ≠ .nil)
    (removed : avlReplaceNode (arr.setBalance next (arr node).balance) root next (rootId nextRight) =
      (spliced, root₁))
    (hangs : (spliced.setRight next (rootId right)).setParent (rootId right) next = hung)
    (replaced : avlReplaceNode hung root₁ node next = (taken, root'))
    (adopts : taken.setLeft next (taken node).leftId = adopted) :
    (spliced node).rightId = rootId right ∧ (adopted node).leftId = rootId left ∧
      UnlinkedAt arr (context.plug (.node node left right)).inorder
        { arr := adopted.setParent (rootId left) next, root := root', x := parentId inner
          fromTheLeft := fromLeft inner }
        (inner ++ ⟨.right, next, left⟩ :: context) nextRight := by
  obtain ⟨whole, nextLinked, nextAround⟩ := successor_linked (split ▸ linked) (split ▸ around)
  rw [← split] at whole
  have parts := Deep.of_unique deep split unique whole
  obtain ⟨splicedAround, cells⟩ := parts.splice nextLinked nextAround removed
  obtain ⟨nodePresent, nodeParent, nodeLeft, nodeRight, -, leftLinked, nodeAround⟩ :=
    splicedAround.outer deep (.node next .nil nextRight)
  rw [← split] at nodeRight
  have sameNode := parts.hung_node hangs
  obtain ⟨leftEq, around', leftLinked', nextCell, others⟩ :=
    take_over (nodeAround.congr (parts.hung_context hangs))
      (by rw [sameNode, nodeParent]) (by rw [sameNode, nodeLeft])
      (leftLinked.congr (parts.hung_left hangs)) leftPresent nodePresent nextLinked.1
      parts.node_ne_next parts.next_left (parts.outside node (.inr (.inl rfl))) parts.next_context
      (fun id inside => parts.outside id (.inl inside)) parts.leftUnique parts.contextUnique replaced
      adopts
  have settled : Settled context inner node next left nextRight right arr spliced hung
      (adopted.setParent (rootId left) next) := ⟨parts, hangs, cells, nextCell, others⟩
  refine ⟨nodeRight, leftEq, (parentId_append deep _).symm, (fromLeft_append deep _).symm, ?_,
    settled.around deep split nextLinked.1 nextAround splicedAround leftLinked' around',
    settled.frame whole, ?_⟩
  · rw [parentId_append deep]
    exact settled.linked deep nextLinked.2.2.2.2.2.2
  · intro id
    have splicedData := avlReplaceNode_data (arr.setBalance next (arr node).balance) root next
      (rootId nextRight) id
    have takenData := avlReplaceNode_data hung root₁ node next id
    rw [removed] at splicedData
    rw [replaced] at takenData
    simp only [← adopts, Arr.setParent_data, Arr.setLeft_data, takenData, ← hangs,
      Arr.setRight_data, splicedData, Arr.setBalance_data]

end Deep

/-- The goal of unlinking: no defensive exit, a hole one level higher than its
content in a tree of unchanged height, and the remaining nodes in their order. -/
def Unlinks (arr : Arr) (outcome : Except (Arr × Nat) Unlinked) (ids remaining : List Nat)
    (height : Nat) : Prop :=
  ∃ unlinked context shrunk, outcome = .ok unlinked ∧
    UnlinkedAt arr ids unlinked context shrunk ∧ shrunk.Balanced ∧
    context.BalancedAt (shrunk.height + 1) ∧ context.heightAt (shrunk.height + 1) = height ∧
    (context.plug shrunk).inorder = remaining

private theorem unlinks_child {child : BinaryTree Nat} {ids : List Nat}
    (around : LinkedAt arr root node (child.height + 1) context)
    (parentEq : (arr node).parentId = parentId context)
    (linked : Linked arr node child) (present : node ≠ 0) (outside : node ∉ contextIds context)
    (unique : (context.plug child).inorder.Nodup) (balanced : child.Balanced)
    (aroundBalanced : context.BalancedAt (child.height + 1))
    (covered : ∀ id ∈ (context.plug child).inorder, id ∈ ids) :
    Unlinks arr
      (.ok { arr := (avlReplaceNode arr root node (rootId child)).1
             root := (avlReplaceNode arr root node (rootId child)).2
             x := parentId context
             fromTheLeft := decide (parentId context ≠ 0 ∧ (arr (parentId context)).leftId = node) })
      ids (context.plug child).inorder (context.heightAt (child.height + 1)) := by
  refine ⟨_, context, child, rfl, ?_, balanced, aroundBalanced, rfl, rfl⟩
  have unlinked : UnlinkedAt arr _ ⟨_, _, _, _⟩ context child := unlink_child around parentEq linked
    present outside unique rfl (around.fromLeft_eq present outside) rfl
  exact { unlinked with frame := fun id apart => unlinked.frame id fun inside => apart (covered id inside) }

/-- Both single-child branches of the source, for the child that remains. -/
private theorem unlinkNode_child {build : Build} {child : Nat}
    (branch : (arr node).leftId = 0 ∧ (arr node).rightId = child ∨
      (arr node).leftId ≠ 0 ∧ (arr node).rightId = 0 ∧ (arr node).leftId = child) :
    unlinkNode build arr root node =
      .ok { arr := (avlReplaceNode arr root node child).1
            root := (avlReplaceNode arr root node child).2
            x := (arr node).parentId
            fromTheLeft := decide ((arr node).parentId ≠ 0 ∧
              (arr (arr node).parentId).leftId = node) } := by
  unfold unlinkNode
  rcases branch with ⟨leftZero, rfl⟩ | ⟨leftSome, rightZero, rfl⟩
  · rw [if_pos leftZero]
  · rw [if_neg leftSome, if_pos rightZero]

private theorem unlinkNode_adjacent {build : Build} {next left : Nat}
    (leftSome : (arr node).leftId ≠ 0) (rightSome : (arr node).rightId ≠ 0)
    (nextEq : avlNextNode build arr node = next) (nextSome : next ≠ 0)
    (near : (arr next).parentId = node) {taken adopted : Arr} {root' : Nat}
    (replaced : avlReplaceNode (arr.setBalance next (arr node).balance) root node next =
      (taken, root'))
    (adopts : taken.setLeft next (taken node).leftId = adopted)
    (leftEq : (adopted node).leftId = left) (leftPresent : left ≠ 0) :
    unlinkNode build arr root node =
      .ok { arr := adopted.setParent left next, root := root', x := next, fromTheLeft := false } := by
  subst leftEq adopts nextEq
  simp only [unlinkNode, leftSome, rightSome, nextSome, if_false, Arr.setBalance_self, near, ne_eq,
    not_true, replaced, leftPresent]

private theorem unlinkNode_deep {build : Build} {next left right x : Nat}
    (leftSome : (arr node).leftId ≠ 0) (rightSome : (arr node).rightId ≠ 0)
    (nextEq : avlNextNode build arr node = next) (nextSome : next ≠ 0)
    (parentEq : (arr next).parentId = x) (far : x ≠ node) (xSome : x ≠ 0) (nodeNext : node ≠ next)
    {spliced hung taken adopted : Arr} {root₁ root' : Nat}
    (removed : avlReplaceNode (arr.setBalance next (arr node).balance) root next
      (arr next).rightId = (spliced, root₁))
    (rightEq : (spliced node).rightId = right) (rightPresent : right ≠ 0)
    (hangs : (spliced.setRight next right).setParent right next = hung)
    (replaced : avlReplaceNode hung root₁ node next = (taken, root'))
    (adopts : taken.setLeft next (taken node).leftId = adopted)
    (leftEq : (adopted node).leftId = left) (leftPresent : left ≠ 0) :
    unlinkNode build arr root node =
      .ok { arr := adopted.setParent left next, root := root', x := x
            fromTheLeft := decide ((arr.setBalance next (arr node).balance x).leftId = next) } := by
  subst leftEq adopts hangs rightEq nextEq parentEq
  simp only [unlinkNode, leftSome, rightSome, nextSome, if_false, Arr.setBalance_self, far, ne_eq,
    not_false_eq_true, if_true, xSome, removed, Arr.setRight_of_ne _ _ nodeNext, rightPresent,
    replaced, leftPresent]

/-- The hole that the successor leaves in the tree in which it has taken the place of
`node`. Its shape is the same whether the successor is near or deep. -/
private theorem successor_hole {left right nextRight : BinaryTree Nat} {next : Nat}
    {inner : Context Nat} (split : right = inner.plug (.node next .nil nextRight))
    (allLeft : ∀ frame ∈ inner, frame.side = .left)
    (balanced : (context.plug (.node node left right)).Balanced) :
    nextRight.Balanced ∧
      (inner ++ ⟨.right, next, left⟩ :: context).BalancedAt (nextRight.height + 1) ∧
      (inner ++ ⟨.right, next, left⟩ :: context).heightAt (nextRight.height + 1) =
        context.heightAt (BinaryTree.node node left right).height ∧
      ((inner ++ ⟨.right, next, left⟩ :: context).plug nextRight).inorder =
        context.before ++ (left.inorder ++ right.inorder) ++ context.after := by
  have rightHeight : inner.heightAt (nextRight.height + 1) = right.height := by
    simp [split, Context.height_plug]
  obtain ⟨subBalanced, aroundBalanced⟩ := Context.balanced_plug.mp balanced
  have rightBalanced := subBalanced.2.2.2
  rw [split, Context.balanced_plug] at rightBalanced
  simp only [BinaryTree.balanced_node, BinaryTree.height, Nat.zero_max] at rightBalanced
  obtain ⟨⟨-, -, -, nextBalanced⟩, innerBalanced⟩ := rightBalanced
  refine ⟨nextBalanced, ?_, ?_, ?_⟩
  · simp only [Context.balancedAt_append, rightHeight, Context.balancedAt_cons]
    refine ⟨innerBalanced, subBalanced.2.1, subBalanced.1, subBalanced.2.2.1, ?_⟩
    simpa [BinaryTree.height, max_comm] using aroundBalanced
  · simp [Context.heightAt_append, rightHeight, max_comm]
  · simp [split, Context.plug_append, Context.inorder_plug, Frame.attach,
      Context.before_of_left allLeft]

/-- Unlinking never takes a defensive exit. It leaves a hole one level higher than its
content, and the other nodes in their order. -/
theorem unlinkNode_unlinks {build : Build} {left right : BinaryTree Nat}
    (linked : Linked arr (parentId context) (.node node left right))
    (around : LinkedAt arr root node (BinaryTree.node node left right).height context)
    (unique : (context.plug (.node node left right)).inorder.Nodup)
    (balanced : (context.plug (.node node left right)).Balanced)
    (bounded : (context.plug (.node node left right)).height ≤ build.maxAvlHeight) :
    Unlinks arr (unlinkNode build arr root node) (context.plug (.node node left right)).inorder
      (context.before ++ (left.inorder ++ right.inorder) ++ context.after)
      (context.plug (.node node left right)).height := by
  have nextEq := avlNextNode_eq linked around unique bounded
  obtain ⟨subUnique, contextUnique, apart⟩ := plug_nodup_iff.mp unique
  have outside := apart node (by simp)
  have linked' := linked
  obtain ⟨present, parentEq, leftEq, rightEq, -, leftLinked, rightLinked⟩ := linked'
  obtain ⟨subBalanced, aroundBalanced⟩ := Context.balanced_plug.mp balanced
  rw [Context.height_plug]
  by_cases leftNil : left = .nil
  · subst leftNil
    simp only [BinaryTree.height, Nat.zero_max] at around aroundBalanced ⊢
    have ids : context.before ++ (BinaryTree.nil.inorder ++ right.inorder) ++ context.after =
        (context.plug right).inorder := by simp [Context.inorder_plug]
    rw [unlinkNode_child (.inl ⟨leftEq, rightEq⟩), parentEq, ids]
    refine unlinks_child around parentEq rightLinked present outside ?_ subBalanced.2.2.2
      aroundBalanced ?_
    · simp only [Context.inorder_plug, BinaryTree.inorder_node] at unique ⊢
      grind
    · simp only [Context.inorder_plug, BinaryTree.inorder_node]
      grind
  have leftSome : (arr node).leftId ≠ 0 := leftEq ▸ leftLinked.rootId_eq_zero.not.mpr leftNil
  by_cases rightNil : right = .nil
  · subst rightNil
    simp only [BinaryTree.height, Nat.max_zero] at around aroundBalanced ⊢
    have ids : context.before ++ (left.inorder ++ BinaryTree.nil.inorder) ++ context.after =
        (context.plug left).inorder := by simp [Context.inorder_plug]
    rw [unlinkNode_child (.inr ⟨leftSome, rightEq, leftEq⟩), parentEq, ids]
    refine unlinks_child around parentEq leftLinked present outside ?_ subBalanced.2.2.1
      aroundBalanced ?_
    · simp only [Context.inorder_plug, BinaryTree.inorder_node] at unique ⊢
      grind
    · simp only [Context.inorder_plug, BinaryTree.inorder_node]
      grind
  have rightSome : (arr node).rightId ≠ 0 := rightEq ▸ rightLinked.rootId_eq_zero.not.mpr rightNil
  obtain ⟨inner, next, nextRight, split, allLeft⟩ := Context.exists_leftmost rightNil
  have rightIds : right.inorder = next :: (nextRight.inorder ++ inner.after) := by
    simp [split, Context.inorder_plug, Context.before_of_left allLeft]
  have hole := successor_hole split allLeft balanced
  have nextIn : next ∈ right.inorder := by simp [rightIds]
  have nextSome : next ≠ 0 := rightLinked.ne_zero next nextIn
  have leftRoot : rootId left ≠ 0 := leftLinked.rootId_eq_zero.not.mpr leftNil
  have rightRoot : rootId right ≠ 0 := rightLinked.rootId_eq_zero.not.mpr rightNil
  replace nextEq : avlNextNode build arr node = next := by rw [nextEq, rightIds]; rfl
  by_cases near : inner = []
  · subst near
    obtain rfl : right = .node next .nil nextRight := split
    obtain ⟨taken, root', replaced⟩ : ∃ taken root',
        avlReplaceNode (arr.setBalance next (arr node).balance) root node next = (taken, root') :=
      ⟨_, _, rfl⟩
    obtain ⟨leftEq', unlinked⟩ := unlink_adjacent linked around unique leftNil replaced rfl
    rw [unlinkNode_adjacent leftSome rightSome nextEq nextSome rightLinked.2.1 replaced rfl leftEq'
      leftRoot]
    exact ⟨_, _, nextRight, rfl, unlinked, hole⟩
  · obtain ⟨spliced, root₁, removed⟩ : ∃ spliced root₁, avlReplaceNode
        (arr.setBalance next (arr node).balance) root next (rootId nextRight) = (spliced, root₁) :=
      ⟨_, _, rfl⟩
    obtain ⟨hung, hangs⟩ : ∃ hung,
        (spliced.setRight next (rootId right)).setParent (rootId right) next = hung := ⟨_, rfl⟩
    obtain ⟨taken, root', replaced⟩ : ∃ taken root',
        avlReplaceNode hung root₁ node next = (taken, root') := ⟨_, _, rfl⟩
    obtain ⟨rightEq', leftEq', unlinked⟩ :=
      unlink_deep near split linked around unique leftNil removed hangs replaced rfl
    have nodeRight : node ∉ right.inorder := by
      simp only [BinaryTree.inorder_node] at subUnique
      grind
    have xIn : parentId inner ∈ right.inorder := by
      rw [split, mem_plug_iff]
      exact .inr (Context.parentD_mem near)
    rw [split] at linked around unique
    obtain ⟨whole, nextLinked, nextAround⟩ := successor_linked linked around
    rw [← whole] at unique
    have nextWide := (plug_nodup_iff.mp unique).2.2 next (by simp)
    obtain ⟨-, nextParent, -, nextRightEq, -⟩ := nextLinked
    rw [parentId_append near] at nextParent
    have xNext : parentId inner ≠ next := by
      intro same
      rw [← parentId_append near (⟨.right, node, left⟩ :: context)] at same
      exact nextWide (same ▸ Context.parentD_mem (by simp))
    have side := nextAround.leftId_eq_iff (by simp) nextSome nextWide
    rw [parentId_append near, fromLeft_append near] at side
    rw [← nextRightEq] at removed
    rw [unlinkNode_deep leftSome rightSome nextEq nextSome nextParent
      (fun same => nodeRight (same ▸ xIn)) (rightLinked.ne_zero _ xIn)
      (fun same => nodeRight (same ▸ nextIn)) removed rightEq' rightRoot hangs replaced rfl leftEq'
      leftRoot,
      Arr.setBalance_of_ne _ _ xNext, side]
    exact ⟨_, _, nextRight, rfl, unlinked, hole⟩

end Shapes

end Ghost.Avl
