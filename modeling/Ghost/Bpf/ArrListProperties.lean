import Ghost.Bpf.ArrList

/-!
# The lists refine sequences

Every insertion links the element between two neighbours and every removal joins
the neighbours of the element, with id 0 for a neighbour that is not there. The
refinement is preserved by these two shapes.
-/

set_option autoImplicit false

namespace Ghost.Bpf

open Lib

section Ids

variable {size : ArrSize}

private theorem elemToId_toNat (elem : size.Elem) : (elemToId elem).toNat = elem.val + 1 := by
  have below := elem.isLt
  have fits := size.fits
  unfold elemToId
  rw [BitVec.toNat_ofNat, Nat.mod_eq_of_lt (by omega)]

theorem elemToId_ne_zero (elem : size.Elem) : elemToId elem ≠ 0#32 := by
  intro zero
  have value := congrArg BitVec.toNat zero
  rw [elemToId_toNat] at value
  cases value

@[simp] theorem idToElem_elemToId (elem : size.Elem) : idToElem (elemToId elem) = some elem := by
  have value := elemToId_toNat elem
  unfold idToElem
  rw [if_neg (elemToId_ne_zero elem), dif_pos (by rw [value]; exact elem.isLt)]
  simp [value]

@[simp] theorem idToElem_zero : (idToElem 0#32 : Option size.Elem) = none := rfl

theorem elemToId_injective : Function.Injective (elemToId : size.Elem → BitVec 32) := by
  intro elem other same
  have equal := congrArg (fun id => (idToElem id : Option size.Elem)) same
  rw [idToElem_elemToId, idToElem_elemToId] at equal
  exact Option.some.inj equal

@[simp] theorem elemToId_inj {elem other : size.Elem} :
    elemToId elem = elemToId other ↔ elem = other := elemToId_injective.eq_iff

/-- An id that names an element is the id of that element. -/
theorem idToElem_eq_some {id : BitVec 32} {elem : size.Elem} (names : idToElem id = some elem) :
    id = elemToId elem := by
  unfold idToElem at names
  split at names
  · cases names
  · next nonzero =>
      split at names
      · cases names
        have positive : id.toNat ≠ 0 := fun zero => nonzero (BitVec.eq_of_toNat_eq zero)
        apply BitVec.eq_of_toNat_eq
        rw [elemToId_toNat]
        dsimp only
        omega
      · cases names

end Ids

namespace ArrLists

variable {size : ArrSize} {Head : Type} {lists : ArrLists size Head}

/-! ## Reading after a store -/

section Stores

variable {elem other : size.Elem} {head : Head} {id target : BitVec 32}

@[simp] theorem next_setNext : ((lists.setNext elem id).field other).next =
    if other = elem then id else (lists.field other).next := by
  unfold setNext
  by_cases same : other = elem
  · subst same
    simp
  · simp [same]

@[simp] theorem prev_setNext :
    ((lists.setNext elem id).field other).prev = (lists.field other).prev := by
  unfold setNext
  by_cases same : other = elem
  · subst same
    simp
  · simp [same]

@[simp] theorem prev_setPrev : ((lists.setPrev elem id).field other).prev =
    if other = elem then id else (lists.field other).prev := by
  unfold setPrev
  by_cases same : other = elem
  · subst same
    simp
  · simp [same]

@[simp] theorem next_setPrev :
    ((lists.setPrev elem id).field other).next = (lists.field other).next := by
  unfold setPrev
  by_cases same : other = elem
  · subst same
    simp
  · simp [same]

private theorem ne_of_idToElem_none (nobody : (idToElem target : Option size.Elem) = none) :
    elemToId other ≠ target := by
  rintro rfl
  rw [idToElem_elemToId] at nobody
  cases nobody

/-- A store through an id goes to the element with that id. -/
@[simp] theorem next_setNextIf : ((lists.setNextIf (idToElem target) id).field other).next =
    if elemToId other = target then id else (lists.field other).next := by
  cases names : (idToElem target : Option size.Elem) with
  | some elem => simp [setNextIf, idToElem_eq_some names]
  | none => simp [setNextIf, ne_of_idToElem_none names]

@[simp] theorem prev_setNextIf (elem : Option size.Elem) :
    ((lists.setNextIf elem id).field other).prev = (lists.field other).prev := by
  cases elem with
  | some elem => exact prev_setNext
  | none => rfl

@[simp] theorem prev_setPrevIf : ((lists.setPrevIf (idToElem target) id).field other).prev =
    if elemToId other = target then id else (lists.field other).prev := by
  cases names : (idToElem target : Option size.Elem) with
  | some elem => simp [setPrevIf, idToElem_eq_some names]
  | none => simp [setPrevIf, ne_of_idToElem_none names]

@[simp] theorem next_setPrevIf (elem : Option size.Elem) :
    ((lists.setPrevIf elem id).field other).next = (lists.field other).next := by
  cases elem with
  | some elem => exact next_setPrev
  | none => rfl

@[simp] theorem setNextIf_none : lists.setNextIf none id = lists := rfl

@[simp] theorem setPrevIf_none : lists.setPrevIf none id = lists := rfl

@[simp] theorem heads_setNext : (lists.setNext elem id).heads = lists.heads := rfl

@[simp] theorem heads_setPrev : (lists.setPrev elem id).heads = lists.heads := rfl

@[simp] theorem heads_setNextIf (elem : Option size.Elem) :
    (lists.setNextIf elem id).heads = lists.heads := by
  cases elem <;> rfl

@[simp] theorem heads_setPrevIf (elem : Option size.Elem) :
    (lists.setPrevIf elem id).heads = lists.heads := by
  cases elem <;> rfl

variable [DecidableEq Head]

@[simp] theorem field_setFirst : (lists.setFirst head id).field = lists.field := rfl

@[simp] theorem field_setLast : (lists.setLast head id).field = lists.field := rfl

@[simp] theorem heads_setFirst {other : Head} : (lists.setFirst head id).heads other =
    if other = head then { lists.heads other with first := id } else lists.heads other := by
  unfold setFirst
  by_cases same : other = head
  · subst same
    simp
  · simp [same]

@[simp] theorem heads_setLast {other : Head} : (lists.setLast head id).heads other =
    if other = head then { lists.heads other with last := id } else lists.heads other := by
  unfold setLast
  by_cases same : other = head
  · subst same
    simp
  · simp [same]

end Stores

/-! ## The two shapes of an update -/

/-- The element was linked between two neighbours. -/
structure Inserted (lists after : ArrLists size Head) (head : Head) (elem : size.Elem)
    (before behind : BitVec 32) : Prop where
  ownNext : (after.field elem).next = behind
  ownPrev : (after.field elem).prev = before
  next : ∀ other, other ≠ elem → (after.field other).next =
    if elemToId other = before then elemToId elem else (lists.field other).next
  prev : ∀ other, other ≠ elem → (after.field other).prev =
    if elemToId other = behind then elemToId elem else (lists.field other).prev
  first : (after.heads head).first =
    if before = 0#32 then elemToId elem else (lists.heads head).first
  last : (after.heads head).last = if behind = 0#32 then elemToId elem else (lists.heads head).last
  heads : ∀ other, other ≠ head → after.heads other = lists.heads other

/-- The two neighbours of the element were joined. -/
structure Removed (lists after : ArrLists size Head) (head : Head) (elem : size.Elem)
    (before behind : BitVec 32) : Prop where
  ownNext : (after.field elem).next = 0#32
  ownPrev : (after.field elem).prev = 0#32
  next : ∀ other, other ≠ elem → (after.field other).next =
    if elemToId other = before then behind else (lists.field other).next
  prev : ∀ other, other ≠ elem → (after.field other).prev =
    if elemToId other = behind then before else (lists.field other).prev
  first : (after.heads head).first = if before = 0#32 then behind else (lists.heads head).first
  last : (after.heads head).last = if behind = 0#32 then before else (lists.heads head).last
  heads : ∀ other, other ≠ head → after.heads other = lists.heads other

section Macros

variable [DecidableEq Head] {head : Head} {elem listElem : size.Elem}

private theorem insertHead_inserted (absent : elemToId elem ≠ (lists.heads head).first) :
    Inserted lists (lists.insertHead head elem) head elem 0#32 (lists.heads head).first := by
  unfold insertHead empty first
  by_cases isEmpty : (lists.heads head).first = 0#32
  · constructor <;> simp +contextual [isEmpty, elemToId_ne_zero]
  · constructor <;> simp +contextual [isEmpty, elemToId_ne_zero, absent]

private theorem insertTail_inserted (absent : elemToId elem ≠ (lists.heads head).last)
    (ends : (lists.heads head).last = 0#32 ↔ (lists.heads head).first = 0#32) :
    Inserted lists (lists.insertTail head elem) head elem (lists.heads head).last 0#32 := by
  unfold insertTail empty last
  by_cases isEmpty : (lists.heads head).first = 0#32
  · constructor <;> simp +contextual [isEmpty, ends.mpr isEmpty, elemToId_ne_zero]
  · have nonempty := mt ends.mp isEmpty
    constructor <;> simp +contextual [isEmpty, nonempty, elemToId_ne_zero, absent]

private theorem insertBefore_inserted (different : elem ≠ listElem)
    (isFirst : (lists.heads head).first = elemToId listElem ↔ (lists.field listElem).prev = 0#32) :
    Inserted lists (lists.insertBefore head listElem elem) head elem
      (lists.field listElem).prev (elemToId listElem) := by
  unfold insertBefore prev
  by_cases starts : (lists.field listElem).prev = 0#32
  · constructor <;> simp +contextual [starts, isFirst, different, elemToId_ne_zero]
  · constructor <;> simp +contextual [starts, isFirst, different, elemToId_ne_zero]

private theorem insertAfter_inserted (different : elem ≠ listElem)
    (isLast : (lists.heads head).last = elemToId listElem ↔ (lists.field listElem).next = 0#32) :
    Inserted lists (lists.insertAfter head listElem elem) head elem
      (elemToId listElem) (lists.field listElem).next := by
  unfold insertAfter next
  by_cases ends : (lists.field listElem).next = 0#32
  · constructor <;> simp +contextual [ends, isLast, different, elemToId_ne_zero]
  · constructor <;> simp +contextual [ends, isLast, different, elemToId_ne_zero]

private theorem remove_removed (notPrev : elemToId elem ≠ (lists.field elem).prev)
    (isFirst : (lists.heads head).first = elemToId elem ↔ (lists.field elem).prev = 0#32)
    (isLast : (lists.heads head).last = elemToId elem ↔ (lists.field elem).next = 0#32) :
    Removed lists (lists.remove head elem) head elem (lists.field elem).prev
      (lists.field elem).next := by
  unfold remove prev next
  by_cases starts : (lists.field elem).prev = 0#32
  · by_cases ends : (lists.field elem).next = 0#32
    · constructor <;> simp +contextual [starts, ends, isFirst, isLast, elemToId_ne_zero]
    · constructor <;> simp +contextual [starts, ends, isFirst, isLast, elemToId_ne_zero]
  · by_cases ends : (lists.field elem).next = 0#32
    · constructor <;> simp +contextual [starts, ends, isFirst, isLast, notPrev, elemToId_ne_zero]
    · constructor <;> simp +contextual [starts, ends, isFirst, isLast, notPrev]

private theorem popFirst_removed (isFirst : (lists.heads head).first = elemToId elem)
    (starts : (lists.field elem).prev = 0#32) (notNext : elemToId elem ≠ (lists.field elem).next)
    (isLast : (lists.heads head).last = elemToId elem ↔ (lists.field elem).next = 0#32) :
    (lists.popFirst head).1 = some elem ∧
      Removed lists (lists.popFirst head).2 head elem 0#32 (lists.field elem).next := by
  have names : lists.first head = some elem := by
    unfold first
    rw [isFirst, idToElem_elemToId]
  unfold popFirst next
  simp only [names]
  refine ⟨trivial, ?_⟩
  by_cases ends : (lists.field elem).next = 0#32
  · constructor <;> simp +contextual [starts, ends, isFirst, isLast, elemToId_ne_zero]
  · constructor <;> simp +contextual [starts, ends, isFirst, isLast, notNext, elemToId_ne_zero]

private theorem popFirst_fst : (lists.popFirst head).1 = lists.first head := by
  unfold popFirst
  cases lists.first head <;> rfl

private theorem popFirst_none (isEmpty : (lists.heads head).first = 0#32) :
    lists.popFirst head = (none, lists) := by
  unfold popFirst first
  rw [isEmpty, idToElem_zero]

end Macros

/-! ## Lists and sequences -/

/-- The id of the first element, or 0. -/
def firstId (items : List size.Elem) : BitVec 32 := (items.map elemToId).headD 0#32

def lastId (items : List size.Elem) : BitVec 32 := (items.map elemToId).getLastD 0#32

section Ends

variable {items front back : List size.Elem} {elem : size.Elem}

@[simp] theorem firstId_nil : firstId ([] : List size.Elem) = 0#32 := rfl

@[simp] theorem firstId_cons : firstId (elem :: items) = elemToId elem := rfl

@[simp] theorem lastId_nil : lastId ([] : List size.Elem) = 0#32 := rfl

@[simp] theorem lastId_singleton : lastId [elem] = elemToId elem := rfl

@[simp] theorem lastId_append_cons : lastId (front ++ elem :: back) = lastId (elem :: back) := by
  unfold lastId
  rw [List.map_append, List.getLastD_eq_getLast?, List.getLastD_eq_getLast?, List.map_cons,
    List.getLast?_append_cons]

private theorem firstId_eq_zero_iff : firstId items = 0#32 ↔ items = [] := by
  cases items with
  | nil => simp
  | cons head rest => simp [elemToId_ne_zero]

theorem mem_of_firstId (named : elemToId elem = firstId items) : elem ∈ items := by
  cases items with
  | nil => exact absurd named (elemToId_ne_zero elem)
  | cons head rest =>
      obtain rfl := elemToId_injective named
      exact List.mem_cons_self

theorem lastId_eq_zero_iff : lastId items = 0#32 ↔ items = [] := by
  cases items using List.reverseRecOn with
  | nil => simp
  | append_singleton front elem => simp [elemToId_ne_zero]

theorem mem_of_lastId (named : elemToId elem = lastId items) : elem ∈ items := by
  cases items using List.reverseRecOn with
  | nil => exact absurd named (elemToId_ne_zero elem)
  | append_singleton front last =>
      rw [lastId_append_cons, lastId_singleton] at named
      obtain rfl := elemToId_injective named
      exact List.mem_append_right _ List.mem_cons_self

end Ends

/-- The link of the element with an id. -/
def nextId (lists : ArrLists size Head) (id : BitVec 32) : BitVec 32 :=
  ((idToElem id : Option size.Elem).map fun elem => (lists.field elem).next).getD 0#32

def prevId (lists : ArrLists size Head) (id : BitVec 32) : BitVec 32 :=
  ((idToElem id : Option size.Elem).map fun elem => (lists.field elem).prev).getD 0#32

@[simp] theorem nextId_elemToId (elem : size.Elem) :
    lists.nextId (elemToId elem) = (lists.field elem).next := by
  simp [nextId]

@[simp] theorem prevId_elemToId (elem : size.Elem) :
    lists.prevId (elemToId elem) = (lists.field elem).prev := by
  simp [prevId]

/-- The head stands for the sequence. -/
structure Represents (lists : ArrLists size Head) (head : Head) (items : List size.Elem) :
    Prop where
  linked : DLinked 0#32 lists.nextId lists.prevId 0#32 (items.map elemToId)
  first : (lists.heads head).first = firstId items
  last : (lists.heads head).last = lastId items
  unique : items.Nodup

section Represents

variable {head : Head} {items front back : List size.Elem} {elem : size.Elem}
  {after : ArrLists size Head}

private theorem Represents.ids_nodup (represents : lists.Represents head items) :
    (0#32 :: items.map elemToId).Nodup := by
  refine List.nodup_cons.mpr ⟨?_, represents.unique.map elemToId_injective⟩
  intro member
  obtain ⟨elem, -, zero⟩ := List.mem_map.mp member
  exact elemToId_ne_zero elem zero

theorem Represents.prev_eq (represents : lists.Represents head (front ++ elem :: back)) :
    (lists.field elem).prev = lastId front := by
  have linked := represents.linked
  rw [List.map_append, List.map_cons] at linked
  have same := linked.prev_eq
  rw [prevId_elemToId] at same
  exact same

theorem Represents.next_eq (represents : lists.Represents head (front ++ elem :: back)) :
    (lists.field elem).next = firstId back := by
  have linked := represents.linked
  rw [List.map_append, List.map_cons] at linked
  have same := linked.next_eq
  rw [nextId_elemToId] at same
  exact same

private theorem Represents.inserted (represents : lists.Represents head (front ++ back))
    (absent : elem ∉ front ++ back)
    (inserted : Inserted lists after head elem (lastId front) (firstId back)) :
    after.Represents head (front ++ elem :: back) := by
  have others : ∀ other ∈ front ++ back, other ≠ elem := by
    rintro other member rfl
    exact absent member
  constructor
  · have linked := represents.linked
    have unique := represents.ids_nodup
    rw [List.map_append] at linked unique
    rw [List.map_append, List.map_cons]
    refine linked.insert unique (elemToId_ne_zero elem) ?_ ?_ ?_ ?_
    · rw [prevId_elemToId]
      exact inserted.ownPrev
    · rw [nextId_elemToId]
      exact inserted.ownNext
    · rw [← List.map_append]
      intro id member
      obtain ⟨other, inList, rfl⟩ := List.mem_map.mp member
      rw [nextId_elemToId, nextId_elemToId, inserted.next other (others other inList)]
      exact ⟨fun named => if_pos named, fun unnamed => if_neg unnamed⟩
    · rw [← List.map_append]
      intro id member
      obtain ⟨other, inList, rfl⟩ := List.mem_map.mp member
      rw [prevId_elemToId, prevId_elemToId, inserted.prev other (others other inList)]
      exact ⟨fun named => if_pos named, fun unnamed => if_neg unnamed⟩
  · rw [inserted.first, represents.first]
    cases front with
    | nil => rfl
    | cons first rest =>
        rw [if_neg (mt lastId_eq_zero_iff.mp (List.cons_ne_nil first rest))]
        rfl
  · rw [inserted.last, represents.last]
    cases back with
    | nil => rw [if_pos firstId_nil, lastId_append_cons, lastId_singleton]
    | cons second rest =>
        rw [firstId_cons, if_neg (elemToId_ne_zero second), lastId_append_cons, lastId_append_cons]
        exact (@lastId_append_cons size [elem] rest second).symm
  · have unique := represents.unique
    rw [List.nodup_middle]
    exact List.nodup_cons.mpr ⟨absent, unique⟩

private theorem Represents.removed (represents : lists.Represents head (front ++ elem :: back))
    (removed : Removed lists after head elem (lastId front) (firstId back)) :
    after.Represents head (front ++ back) := by
  have unique := represents.unique
  rw [List.nodup_middle, List.nodup_cons] at unique
  have others : ∀ other ∈ front ++ back, other ≠ elem := by
    rintro other member rfl
    exact unique.1 member
  have isPrev := represents.prev_eq
  have isNext := represents.next_eq
  constructor
  · have linked := represents.linked
    have ids := represents.ids_nodup
    rw [List.map_append, List.map_cons] at linked ids
    rw [List.map_append]
    refine linked.remove ids ?_ ?_
    · rw [← List.map_append, prevId_elemToId, nextId_elemToId, isPrev, isNext]
      intro id member
      obtain ⟨other, inList, rfl⟩ := List.mem_map.mp member
      rw [nextId_elemToId, nextId_elemToId, removed.next other (others other inList)]
      exact ⟨fun named => if_pos named, fun unnamed => if_neg unnamed⟩
    · rw [← List.map_append, prevId_elemToId, nextId_elemToId, isPrev, isNext]
      intro id member
      obtain ⟨other, inList, rfl⟩ := List.mem_map.mp member
      rw [prevId_elemToId, prevId_elemToId, removed.prev other (others other inList)]
      exact ⟨fun named => if_pos named, fun unnamed => if_neg unnamed⟩
  · rw [removed.first, represents.first]
    cases front with
    | nil => rfl
    | cons first rest =>
        rw [if_neg (mt lastId_eq_zero_iff.mp (List.cons_ne_nil first rest))]
        rfl
  · rw [removed.last, represents.last]
    cases back with
    | nil => rw [if_pos firstId_nil, List.append_nil]
    | cons second rest =>
        rw [firstId_cons, if_neg (elemToId_ne_zero second), lastId_append_cons, lastId_append_cons]
        exact @lastId_append_cons size [elem] rest second
  · exact unique.2

/-- A list whose head and links are as before. -/
theorem Represents.congr (represents : lists.Represents head items)
    (sameHead : after.heads head = lists.heads head)
    (sameField : ∀ elem ∈ items, after.field elem = lists.field elem) :
    after.Represents head items := by
  constructor
  · refine represents.linked.congr ?_ ?_
    · intro id member
      obtain ⟨elem, inList, rfl⟩ := List.mem_map.mp member
      rw [nextId_elemToId, nextId_elemToId, sameField elem inList]
    · intro id member
      obtain ⟨elem, inList, rfl⟩ := List.mem_map.mp member
      rw [prevId_elemToId, prevId_elemToId, sameField elem inList]
  · rw [sameHead, represents.first]
  · rw [sameHead, represents.last]
  · exact represents.unique

theorem Represents.first_eq (represents : lists.Represents head items) :
    lists.first head = items.head? := by
  unfold ArrLists.first
  rw [represents.first]
  cases items with
  | nil => rfl
  | cons elem rest => exact idToElem_elemToId elem

private theorem Represents.ends (represents : lists.Represents head items) :
    (lists.heads head).last = 0#32 ↔ (lists.heads head).first = 0#32 := by
  rw [represents.first, represents.last, firstId_eq_zero_iff, lastId_eq_zero_iff]

/-- The first of the given list is the element with no predecessor. -/
theorem Represents.isFirst (represents : lists.Represents head (front ++ elem :: back)) :
    (lists.heads head).first = elemToId elem ↔ (lists.field elem).prev = 0#32 := by
  rw [represents.first, represents.prev_eq, lastId_eq_zero_iff]
  constructor
  · intro named
    cases front with
    | nil => rfl
    | cons first rest =>
        have isElem : first = elem := elemToId_injective named
        have unique := represents.unique
        rw [isElem, List.cons_append, List.nodup_cons] at unique
        exact absurd (List.mem_append_right rest List.mem_cons_self) unique.1
  · rintro rfl
    rfl

private theorem Represents.isLast (represents : lists.Represents head (front ++ elem :: back)) :
    (lists.heads head).last = elemToId elem ↔ (lists.field elem).next = 0#32 := by
  rw [represents.last, represents.next_eq, firstId_eq_zero_iff, lastId_append_cons]
  constructor
  · intro named
    by_contra nonempty
    have unique := represents.unique
    rw [List.nodup_middle, List.nodup_cons] at unique
    have member : elem ∈ back := by
      cases back with
      | nil => exact absurd rfl nonempty
      | cons second rest =>
          refine mem_of_lastId (named.symm.trans ?_)
          exact @lastId_append_cons size [elem] rest second
    exact unique.1 (List.mem_append_right front member)
  · rintro rfl
    rfl

/-- The ids from `id` on, along a link, name the elements of the sequence. -/
def Chain (link : size.Elem → BitVec 32) : BitVec 32 → List size.Elem → Prop
  | id, [] => id = 0#32
  | id, elem :: rest => idToElem id = some elem ∧ Chain link (link elem) rest

/-- A chain ends at the id 0 and nowhere else. -/
theorem Chain.unique {link : size.Elem → BitVec 32} {id : BitVec 32} {items items' : List size.Elem}
    (chain : Chain link id items) (chain' : Chain link id items') : items = items' := by
  induction items generalizing id items' with
  | nil =>
      cases items' with
      | nil => rfl
      | cons elem' rest' =>
          cases chain
          cases chain'.1
  | cons elem rest ih =>
      cases items' with
      | nil =>
          cases chain'
          cases chain.1
      | cons elem' rest' =>
          have same : elem = elem' := Option.some.inj (chain.1.symm.trans chain'.1)
          subst same
          rw [ih chain.2 chain'.2]

private theorem Represents.forward (represents : lists.Represents head (front ++ back)) :
    Chain (fun elem => (lists.field elem).next) (firstId back) back := by
  induction back generalizing front with
  | nil => rfl
  | cons elem rest ih =>
      refine ⟨idToElem_elemToId elem, ?_⟩
      dsimp only
      rw [represents.next_eq]
      refine @ih (front ++ [elem]) ?_
      rw [List.append_assoc]
      exact represents

/-- A head stands for at most one sequence. -/
theorem Represents.eq {items' : List size.Elem} (represents : lists.Represents head items)
    (represents' : lists.Represents head items') : items = items' := by
  have same : firstId items = firstId items' := represents.first.symm.trans represents'.first
  have chain : Chain (fun elem => (lists.field elem).next) (firstId items) items :=
    @Represents.forward size Head lists head [] items represents
  have chain' : Chain (fun elem => (lists.field elem).next) (firstId items') items' :=
    @Represents.forward size Head lists head [] items' represents'
  exact chain.unique (same ▸ chain')

private theorem Represents.backward (represents : lists.Represents head (front ++ back)) :
    Chain (fun elem => (lists.field elem).prev) (lastId front) front.reverse := by
  induction front using List.reverseRecOn generalizing back with
  | nil => rfl
  | append_singleton front elem ih =>
      rw [List.append_assoc, List.singleton_append] at represents
      rw [List.reverse_append, List.reverse_singleton, List.singleton_append, lastId_append_cons]
      refine ⟨idToElem_elemToId elem, ?_⟩
      dsimp only
      rw [represents.prev_eq]
      exact ih represents

end Represents

end ArrLists

/-! ## What an operation does -/

section Sequences

variable {α : Type} [DecidableEq α] {listElem elem : α} {front back : List α}

private theorem insertBeforeIn_append (absent : listElem ∉ front) :
    insertBeforeIn listElem elem (front ++ listElem :: back) =
      front ++ elem :: listElem :: back := by
  induction front with
  | nil => exact if_pos rfl
  | cons head rest ih =>
      rw [List.mem_cons, not_or] at absent
      rw [List.cons_append, insertBeforeIn, if_neg (Ne.symm absent.1), ih absent.2]
      rfl

private theorem insertAfterIn_append (absent : listElem ∉ front) :
    insertAfterIn listElem elem (front ++ listElem :: back) =
      front ++ listElem :: elem :: back := by
  induction front with
  | nil => exact if_pos rfl
  | cons head rest ih =>
      rw [List.mem_cons, not_or] at absent
      rw [List.cons_append, insertAfterIn, if_neg (Ne.symm absent.1), ih absent.2]
      rfl

end Sequences

section Updates

variable {α Head : Type} [DecidableEq α] [DecidableEq Head] {sequences : Head → List α}
  {head : Head} {elem other : α}

omit [DecidableEq α] in
theorem mem_update_cons (ne : other ≠ elem) (list : Head) :
    other ∈ Function.update sequences head (elem :: sequences head) list ↔
      other ∈ sequences list := by
  by_cases same : list = head
  · subst same
    simp [ne]
  · simp [same]

omit [DecidableEq α] in
theorem mem_update_append (ne : other ≠ elem) (list : Head) :
    other ∈ Function.update sequences head (sequences head ++ [elem]) list ↔
      other ∈ sequences list := by
  by_cases same : list = head
  · subst same
    simp [ne]
  · simp [same]

theorem mem_update_erase (ne : other ≠ elem) (list : Head) :
    other ∈ Function.update sequences head ((sequences head).erase elem) list ↔
      other ∈ sequences list := by
  by_cases same : list = head
  · subst same
    simp [List.mem_erase_of_ne ne]
  · simp [same]

end Updates

/-- The element that an operation takes off its list. -/
def ListOp.taken {size : ArrSize} {Head : Type} : ListOp size Head → Option size.Elem
  | .remove _ elem => some elem
  | .popFirst _ popped => popped
  | _ => none

/-- Every head stands for its sequence, and no element is on two lists. -/
structure Refines {size : ArrSize} {Head : Type}
    (state : ArrLists size Head × Sequences size Head) : Prop where
  represents : ∀ head, state.1.Represents head (state.2 head)
  apart : ∀ head other elem, elem ∈ state.2 head → elem ∈ state.2 other → head = other

/-- An operation inserts, or removes, or pops nothing. -/
inductive Effect {size : ArrSize} {Head : Type} (lists after : ArrLists size Head)
    (sequences : Sequences size Head) (op : ListOp size Head) (items : List size.Elem) : Prop
  | inserts (front back : List size.Elem) (elem : size.Elem) :
      sequences op.head = front ++ back → items = front ++ elem :: back → op.taken = none →
      (∀ head, elem ∉ sequences head) →
      lists.Inserted after op.head elem (ArrLists.lastId front) (ArrLists.firstId back) →
      Effect lists after sequences op items
  | removes (front back : List size.Elem) (elem : size.Elem) :
      sequences op.head = front ++ elem :: back → items = front ++ back → op.taken = some elem →
      lists.Removed after op.head elem (ArrLists.lastId front) (ArrLists.firstId back) →
      Effect lists after sequences op items
  | nothing :
      sequences op.head = [] → items = [] → op.taken = none → after = lists →
      Effect lists after sequences op items

section Effects

variable {size : ArrSize} {Head : Type} {op : ListOp size Head} {lists after : ArrLists size Head}
  {sequences : Sequences size Head} {items : List size.Elem} {elem : size.Elem}

/-- No link of an element on no changed list changes. -/
theorem Effect.frame (effect : Effect lists after sequences op items)
    (elsewhere : elem ∉ sequences op.head) (kept : elem ∉ items) :
    after.field elem = lists.field elem := by
  cases effect with
  | inserts front back inserted split isItems _ _ shape =>
      rw [split, List.mem_append, not_or] at elsewhere
      have different : elem ≠ inserted := by
        rintro rfl
        exact kept (isItems ▸ List.mem_append_right _ List.mem_cons_self)
      apply ArrListEntry.ext
      · rw [shape.next elem different, if_neg fun named =>
          elsewhere.1 (ArrLists.mem_of_lastId named)]
      · rw [shape.prev elem different, if_neg fun named =>
          elsewhere.2 (ArrLists.mem_of_firstId named)]
  | removes front back removed split _ _ shape =>
      rw [split, List.mem_append, List.mem_cons, not_or, not_or] at elsewhere
      apply ArrListEntry.ext
      · rw [shape.next elem elsewhere.2.1, if_neg fun named =>
          elsewhere.1 (ArrLists.mem_of_lastId named)]
      · rw [shape.prev elem elsewhere.2.1, if_neg fun named =>
          elsewhere.2.2 (ArrLists.mem_of_firstId named)]
  | nothing _ _ _ same => rw [same]

private theorem Effect.heads (effect : Effect lists after sequences op items) {head : Head}
    (other : head ≠ op.head) : after.heads head = lists.heads head := by
  cases effect with
  | inserts front back inserted split isItems _ _ shape => exact shape.heads head other
  | removes front back removed split _ _ shape => exact shape.heads head other
  | nothing _ _ _ same => rw [same]

/-- The elements of the new sequence were in the old one or on no list. -/
theorem Effect.mem (effect : Effect lists after sequences op items)
    (listed : elem ∈ items) : elem ∈ sequences op.head ∨ ∀ head, elem ∉ sequences head := by
  cases effect with
  | inserts front back inserted split isItems _ absent _ =>
      rw [isItems, List.mem_append, List.mem_cons] at listed
      rw [split, List.mem_append]
      rcases listed with inFront | rfl | inBack
      · exact .inl (.inl inFront)
      · exact .inr absent
      · exact .inl (.inr inBack)
  | removes front back removed split isItems _ _ =>
      rw [isItems, List.mem_append] at listed
      rw [split, List.mem_append, List.mem_cons]
      exact .inl (listed.imp_right .inr)
  | nothing _ isItems _ _ =>
      rw [isItems] at listed
      cases listed

end Effects

section Refinement

variable {size : ArrSize} {Head : Type} [DecidableEq Head]
  {state next : ArrLists size Head × Sequences size Head} {op : ListOp size Head}

private theorem Refines.effect (refines : Refines state)
    (moved : (arrLists size Head).step state op next) :
    Effect state.1 next.1 state.2 op (next.2 op.head) := by
  obtain ⟨lists, sequences⟩ := state
  obtain ⟨after, sequences'⟩ := next
  obtain ⟨allowed, performs, meaning⟩ := moved
  dsimp only at allowed performs meaning
  subst meaning
  dsimp only
  rw [Function.update_self]
  cases op with
  | insertHead head elem =>
      cases performs
      have represents : lists.Represents head (sequences head) := refines.represents head
      have absent : elemToId elem ≠ (lists.heads head).first := by
        rw [represents.first]
        intro named
        exact allowed head (ArrLists.mem_of_firstId named)
      have inserted := ArrLists.insertHead_inserted absent
      rw [represents.first] at inserted
      exact .inserts [] (sequences head) elem rfl rfl rfl allowed inserted
  | insertTail head elem =>
      cases performs
      have represents : lists.Represents head (sequences head) := refines.represents head
      have absent : elemToId elem ≠ (lists.heads head).last := by
        rw [represents.last]
        intro named
        exact allowed head (ArrLists.mem_of_lastId named)
      have inserted := ArrLists.insertTail_inserted absent represents.ends
      rw [represents.last] at inserted
      exact .inserts (sequences head) [] elem (List.append_nil _).symm rfl rfl allowed inserted
  | insertBefore head listElem elem =>
      cases performs
      obtain ⟨listed, absent⟩ := allowed
      obtain ⟨front, back, split, notFront⟩ := List.eq_append_cons_of_mem listed
      have represents : lists.Represents head (front ++ listElem :: back) :=
        split ▸ refines.represents head
      have different : elem ≠ listElem := by
        rintro rfl
        exact absent head listed
      have inserted := ArrLists.insertBefore_inserted different represents.isFirst
      rw [represents.prev_eq] at inserted
      refine .inserts front (listElem :: back) elem split ?_ rfl absent inserted
      exact (congrArg _ split).trans (insertBeforeIn_append notFront)
  | insertAfter head listElem elem =>
      cases performs
      obtain ⟨listed, absent⟩ := allowed
      obtain ⟨front, back, split, notFront⟩ := List.eq_append_cons_of_mem listed
      have represents : lists.Represents head (front ++ listElem :: back) :=
        split ▸ refines.represents head
      have different : elem ≠ listElem := by
        rintro rfl
        exact absent head listed
      have inserted := ArrLists.insertAfter_inserted different represents.isLast
      rw [represents.next_eq, ← ArrLists.lastId_singleton, ← ArrLists.lastId_append_cons] at inserted
      refine .inserts (front ++ [listElem]) back elem ?_ ?_ rfl absent inserted
      · rw [List.append_assoc]
        exact split
      · rw [List.append_assoc]
        exact (congrArg _ split).trans (insertAfterIn_append notFront)
  | remove head elem =>
      cases performs
      obtain ⟨front, back, split, notFront⟩ := List.eq_append_cons_of_mem allowed
      have represents : lists.Represents head (front ++ elem :: back) :=
        split ▸ refines.represents head
      have notPrev : elemToId elem ≠ (lists.field elem).prev := by
        rw [represents.prev_eq]
        intro named
        exact notFront (ArrLists.mem_of_lastId named)
      have removed := ArrLists.remove_removed notPrev represents.isFirst represents.isLast
      rw [represents.prev_eq, represents.next_eq] at removed
      refine .removes front back elem split ?_ rfl removed
      refine (congrArg (·.erase elem) split).trans ?_
      rw [List.erase_append_right _ notFront, List.erase_cons_head]
  | popFirst head popped =>
      have represents : lists.Represents head (sequences head) := refines.represents head
      cases items : sequences head with
      | nil =>
          rw [items] at represents
          cases performs.trans (ArrLists.popFirst_none represents.first)
          exact .nothing items (congrArg List.tail items) rfl rfl
      | cons elem back =>
          rw [items] at represents
          have whole : lists.Represents head ([] ++ elem :: back) := represents
          have notNext : elemToId elem ≠ (lists.field elem).next := by
            rw [whole.next_eq]
            intro named
            exact (List.nodup_cons.mp represents.unique).1 (ArrLists.mem_of_firstId named)
          obtain ⟨isPopped, removed⟩ :=
            ArrLists.popFirst_removed represents.first whole.prev_eq notNext whole.isLast
          rw [← performs] at isPopped removed
          rw [whole.next_eq] at removed
          exact .removes [] back elem items (congrArg List.tail items) isPopped removed

private theorem Refines.apart_after (refines : Refines state)
    (moved : (arrLists size Head).step state op next) {head : Head} {elem : size.Elem}
    (other : head ≠ op.head) (listed : elem ∈ next.2 op.head) : elem ∉ state.2 head := by
  cases (refines.effect moved).mem listed with
  | inl before => exact fun there => other (refines.apart head op.head elem there before)
  | inr nowhere => exact nowhere head

/-- No operation changes a link of an element on another list. -/
theorem Refines.frame (refines : Refines state)
    (moved : (arrLists size Head).step state op next) {head : Head} {elem : size.Elem}
    (other : head ≠ op.head) (listed : elem ∈ state.2 head) :
    next.1.field elem = state.1.field elem := by
  refine (refines.effect moved).frame ?_ ?_
  · intro here
    exact other (refines.apart head op.head elem listed here)
  · intro here
    exact refines.apart_after moved other here listed

theorem Refines.step (refines : Refines state) (moved : (arrLists size Head).step state op next) :
    Refines next := by
  have effect := refines.effect moved
  have others : ∀ head, head ≠ op.head → next.2 head = state.2 head := by
    intro head other
    rw [moved.2.2, Function.update_of_ne other]
  constructor
  · intro head
    by_cases same : head = op.head
    · subst same
      have represents := refines.represents op.head
      cases effect with
      | inserts front back elem split isItems _ absent shape =>
          rw [split] at represents
          rw [isItems]
          exact represents.inserted (split ▸ absent op.head) shape
      | removes front back elem split isItems _ shape =>
          rw [split] at represents
          rw [isItems]
          exact represents.removed shape
      | nothing split isItems _ unchanged =>
          rw [isItems, unchanged, ← split]
          exact represents
    · rw [others head same]
      exact (refines.represents head).congr (effect.heads same) fun elem listed =>
        refines.frame moved same listed
  · intro head other elem inHead inOther
    by_cases first : head = op.head
    · by_cases second : other = op.head
      · exact first.trans second.symm
      · rw [others other second] at inOther
        exact absurd inOther (refines.apart_after moved second (first ▸ inHead))
    · rw [others head first] at inHead
      by_cases second : other = op.head
      · exact absurd inHead (refines.apart_after moved first (second ▸ inOther))
      · rw [others other second] at inOther
        exact refines.apart head other elem inHead inOther

section Operations

variable {lists : ArrLists size Head} {sequences : Sequences size Head}
  (refines : Refines (lists, sequences)) {head : Head} {listElem elem : size.Elem}
include refines

theorem Refines.insertHead (absent : ∀ other, elem ∉ sequences other) :
    Refines (lists.insertHead head elem,
      Function.update sequences head (elem :: sequences head)) := by
  have moved : (arrLists size Head).step (lists, sequences) (.insertHead head elem)
      (lists.insertHead head elem, Function.update sequences head (elem :: sequences head)) :=
    ⟨absent, rfl, rfl⟩
  exact refines.step moved

theorem Refines.insertTail (absent : ∀ other, elem ∉ sequences other) :
    Refines (lists.insertTail head elem,
      Function.update sequences head (sequences head ++ [elem])) := by
  have moved : (arrLists size Head).step (lists, sequences) (.insertTail head elem)
      (lists.insertTail head elem, Function.update sequences head (sequences head ++ [elem])) :=
    ⟨absent, rfl, rfl⟩
  exact refines.step moved

theorem Refines.insertBefore (listed : listElem ∈ sequences head)
    (absent : ∀ other, elem ∉ sequences other) :
    Refines (lists.insertBefore head listElem elem,
      Function.update sequences head (insertBeforeIn listElem elem (sequences head))) := by
  have moved : (arrLists size Head).step (lists, sequences) (.insertBefore head listElem elem)
      (lists.insertBefore head listElem elem,
        Function.update sequences head (insertBeforeIn listElem elem (sequences head))) :=
    ⟨⟨listed, absent⟩, rfl, rfl⟩
  exact refines.step moved

theorem Refines.insertAfter (listed : listElem ∈ sequences head)
    (absent : ∀ other, elem ∉ sequences other) :
    Refines (lists.insertAfter head listElem elem,
      Function.update sequences head (insertAfterIn listElem elem (sequences head))) := by
  have moved : (arrLists size Head).step (lists, sequences) (.insertAfter head listElem elem)
      (lists.insertAfter head listElem elem,
        Function.update sequences head (insertAfterIn listElem elem (sequences head))) :=
    ⟨⟨listed, absent⟩, rfl, rfl⟩
  exact refines.step moved

theorem Refines.remove (listed : elem ∈ sequences head) :
    Refines (lists.remove head elem,
      Function.update sequences head ((sequences head).erase elem)) := by
  have moved : (arrLists size Head).step (lists, sequences) (.remove head elem)
      (lists.remove head elem, Function.update sequences head ((sequences head).erase elem)) :=
    ⟨listed, rfl, rfl⟩
  exact refines.step moved

theorem Refines.popFirst (head : Head) :
    (lists.popFirst head).1 = (sequences head).head? ∧
      Refines ((lists.popFirst head).2,
        Function.update sequences head (sequences head).tail) := by
  have moved : (arrLists size Head).step (lists, sequences)
      (.popFirst head (lists.popFirst head).1)
      ((lists.popFirst head).2, Function.update sequences head (sequences head).tail) :=
    ⟨trivial, rfl, rfl⟩
  refine ⟨?_, refines.step moved⟩
  rw [ArrLists.popFirst_fst]
  exact (refines.represents head).first_eq

omit [DecidableEq Head] in
theorem Refines.nodup (head : Head) : (sequences head).Nodup := (refines.represents head).unique

omit [DecidableEq Head] in
theorem Refines.first_eq : lists.first head = (sequences head).head? :=
  (refines.represents head).first_eq

omit [DecidableEq Head] in
theorem Refines.mem_of_first (isFirst : lists.first head = some elem) : elem ∈ sequences head :=
  List.mem_of_head? (refines.first_eq.symm.trans isFirst)

end Operations

/-- With one head the sequences are one. -/
theorem Refines.only {size : ArrSize} {lists : ArrLists size Unit} {items items' : List size.Elem}
    (refines : Refines (lists, Function.update (fun _ => items) () items')) :
    Refines (lists, fun _ => items') := by
  have same : Function.update (fun _ => items) () items' = fun _ => items' :=
    funext fun _ => Function.update_self ..
  rwa [same] at refines

omit [DecidableEq Head] in
theorem Refines.initial {lists : ArrLists size Head}
    (zeroed : ∀ head, lists.heads head = ⟨0#32, 0#32⟩) : Refines (lists, fun _ => []) := by
  constructor
  · intro head
    constructor
    · trivial
    · rw [zeroed head]
      rfl
    · rw [zeroed head]
      rfl
    · exact List.nodup_nil
  · intro head other elem listed
    cases listed

theorem arrLists_refines (reachable : (arrLists size Head).Reachable state) : Refines state := by
  refine reachable.invariant _ ?_ fun _ _ _ refines moved => refines.step moved
  intro state starts
  obtain ⟨lists, sequences⟩ := state
  obtain ⟨zeroed, noItems⟩ := starts
  obtain rfl : sequences = fun _ => [] := funext noItems
  exact Refines.initial zeroed

/-! ## The result -/

/-- The chains of every head spell its sequence forwards and backwards, the queries
answer for it, and an operation leaves the other lists alone and clears the links
of what it takes off its own. -/
theorem arrLists_spell_sequences (reachable : (arrLists size Head).Reachable state) :
    (∀ head,
      ArrLists.Chain (fun elem => (state.1.field elem).next) (state.1.heads head).first
        (state.2 head) ∧
      ArrLists.Chain (fun elem => (state.1.field elem).prev) (state.1.heads head).last
        (state.2 head).reverse ∧
      (state.1.empty head = true ↔ state.2 head = []) ∧
      state.1.first head = (state.2 head).head? ∧
      state.1.last head = (state.2 head).getLast? ∧
      ((state.1.heads head).last = 0#32 ↔ (state.1.heads head).first = 0#32) ∧
      (state.2 head).Nodup) ∧
    (∀ head other elem, elem ∈ state.2 head → elem ∈ state.2 other → head = other) ∧
    ∀ op next, (arrLists size Head).step state op next →
      (∀ elem, op.taken = some elem → next.1.field elem = ⟨0#32, 0#32⟩) ∧
      (∀ head popped, op = .popFirst head popped → popped = (state.2 head).head?) ∧
      ∀ head, head ≠ op.head → ∀ elem ∈ state.2 head, next.1.field elem = state.1.field elem := by
  have refines := arrLists_refines reachable
  refine ⟨?_, refines.apart, ?_⟩
  · intro head
    have represents := refines.represents head
    have forward := @ArrLists.Represents.forward size Head state.1 head [] (state.2 head) represents
    have backward := @ArrLists.Represents.backward size Head state.1 head (state.2 head) []
      (by rw [List.append_nil]; exact represents)
    rw [← represents.first] at forward
    rw [← represents.last] at backward
    refine ⟨forward, backward, ?_, ?_, ?_, represents.ends, represents.unique⟩
    · unfold ArrLists.empty
      rw [decide_eq_true_eq, represents.first, ArrLists.firstId_eq_zero_iff]
    · exact represents.first_eq
    · unfold ArrLists.last
      rw [represents.last]
      cases state.2 head using List.reverseRecOn with
      | nil => rfl
      | append_singleton front elem => simp
  · intro op next moved
    refine ⟨?_, ?_, fun head other elem listed => refines.frame moved other listed⟩
    · intro elem taken
      cases refines.effect moved with
      | inserts front back inserted _ _ notTaken =>
          rw [notTaken] at taken
          cases taken
      | removes front back removed _ _ isTaken shape =>
          cases isTaken.symm.trans taken
          have ownNext := shape.ownNext
          have ownPrev := shape.ownPrev
          generalize next.1.field elem = entry at ownNext ownPrev
          cases entry
          cases ownNext
          cases ownPrev
          rfl
      | nothing _ _ notTaken =>
          rw [notTaken] at taken
          cases taken
    · rintro head popped rfl
      have isPopped : popped = (state.1.popFirst head).1 := congrArg Prod.fst moved.2.1
      rw [isPopped, ArrLists.popFirst_fst]
      exact (refines.represents head).first_eq

end Refinement

/-- Two elements with stale links, put on one of two lists. -/
theorem arrLists_spell_sequences_pair :
    ∃ state : ArrLists ⟨2, by decide⟩ Bool × Sequences ⟨2, by decide⟩ Bool,
      (arrLists ⟨2, by decide⟩ Bool).Reachable state ∧ state.2 true = [1, 0] ∧
      ArrLists.Chain (fun elem => (state.1.field elem).prev) (state.1.heads true).last [0, 1] := by
  let stale : ArrLists ⟨2, by decide⟩ Bool := ⟨fun _ => ⟨7, 7⟩, fun _ => ⟨0, 0⟩⟩
  let one := stale.insertHead true 0
  let none : Sequences ⟨2, by decide⟩ Bool := fun _ => []
  let single := Function.update none true [0]
  have inserts : (arrLists ⟨2, by decide⟩ Bool).step (stale, none) (.insertHead true 0)
      (one, single) := ⟨fun _ => List.not_mem_nil, rfl, rfl⟩
  have insertsAgain : (arrLists ⟨2, by decide⟩ Bool).step (one, single) (.insertHead true 1)
      (one.insertHead true 1, Function.update single true [1, 0]) := by
    refine ⟨?_, rfl, rfl⟩
    intro head
    cases head <;> decide
  have reachable : (arrLists ⟨2, by decide⟩ Bool).Reachable
      (one.insertHead true 1, Function.update single true [1, 0]) :=
    ⟨_, _, ⟨fun _ => rfl, fun _ => rfl⟩, .cons inserts (.cons insertsAgain (.nil _))⟩
  exact ⟨_, reachable, rfl, ((arrLists_spell_sequences reachable).1 true).2.1⟩

end Ghost.Bpf
