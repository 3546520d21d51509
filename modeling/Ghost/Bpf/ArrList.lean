import Ghost.Lib.DoublyLinked
import Ghost.Lib.Machine
import Mathlib.Logic.Function.Basic

/-!
# Lists of array elements

The `arr_list` macros of `lib/queue.bpf.h` over the ids of `lib/arr_structs.bpf.h`:
the elements of one array are linked by 32-bit ids, with 0 for no element. Any
number of list heads share one field of the elements.
-/

set_option autoImplicit false

namespace Ghost.Bpf

open Lib

/-- An array has fewer elements than there are ids. -/
structure ArrSize where
  value : Nat
  fits : value < 2 ^ 32

abbrev ArrSize.Elem (size : ArrSize) : Type := Fin size.value

structure ArrList where
  first : BitVec 32
  last : BitVec 32

@[ext] structure ArrListEntry where
  next : BitVec 32
  prev : BitVec 32

/-- The field of every element, and the heads. -/
structure ArrLists (size : ArrSize) (Head : Type) where
  field : size.Elem → ArrListEntry
  heads : Head → ArrList

section Ids

variable {size : ArrSize}

/-- `__id_to_elem`. -/
def idToElem (id : BitVec 32) : Option size.Elem :=
  if id = 0#32 then none
  else if inRange : id.toNat - 1 < size.value then some ⟨id.toNat - 1, inRange⟩ else none

/-- `__elem_to_id`, stored in an `unsigned int`. -/
def elemToId (elem : size.Elem) : BitVec 32 := BitVec.ofNat 32 (elem.val + 1)

end Ids

namespace ArrLists

variable {size : ArrSize} {Head : Type}

/-! ## Queries -/

def next (lists : ArrLists size Head) (elem : size.Elem) : Option size.Elem :=
  idToElem (lists.field elem).next

def prev (lists : ArrLists size Head) (elem : size.Elem) : Option size.Elem :=
  idToElem (lists.field elem).prev

def first (lists : ArrLists size Head) (head : Head) : Option size.Elem :=
  idToElem (lists.heads head).first

def last (lists : ArrLists size Head) (head : Head) : Option size.Elem :=
  idToElem (lists.heads head).last

def empty (lists : ArrLists size Head) (head : Head) : Bool := (lists.heads head).first = 0#32

variable [DecidableEq Head]

/-! ## Stores -/

def setNext (lists : ArrLists size Head) (elem : size.Elem) (id : BitVec 32) :
    ArrLists size Head :=
  { lists with field := Function.update lists.field elem { lists.field elem with next := id } }

def setPrev (lists : ArrLists size Head) (elem : size.Elem) (id : BitVec 32) :
    ArrLists size Head :=
  { lists with field := Function.update lists.field elem { lists.field elem with prev := id } }

/-- `if (elem) elem->field.next = id`. -/
def setNextIf (lists : ArrLists size Head) (elem : Option size.Elem) (id : BitVec 32) :
    ArrLists size Head :=
  match elem with
  | some elem => lists.setNext elem id
  | none => lists

def setPrevIf (lists : ArrLists size Head) (elem : Option size.Elem) (id : BitVec 32) :
    ArrLists size Head :=
  match elem with
  | some elem => lists.setPrev elem id
  | none => lists

def setFirst (lists : ArrLists size Head) (head : Head) (id : BitVec 32) : ArrLists size Head :=
  { lists with heads := Function.update lists.heads head { lists.heads head with first := id } }

def setLast (lists : ArrLists size Head) (head : Head) (id : BitVec 32) : ArrLists size Head :=
  { lists with heads := Function.update lists.heads head { lists.heads head with last := id } }

/-! ## Updates -/

def insertHead (lists : ArrLists size Head) (head : Head) (elem : size.Elem) :
    ArrLists size Head :=
  let id := elemToId elem
  let lists := lists.setPrev elem 0#32
  let lists := lists.setNext elem (lists.heads head).first
  let lists :=
    if lists.empty head then lists.setLast head id
    else lists.setPrevIf (lists.first head) id
  lists.setFirst head id

def insertTail (lists : ArrLists size Head) (head : Head) (elem : size.Elem) :
    ArrLists size Head :=
  let id := elemToId elem
  let lists := lists.setPrev elem (lists.heads head).last
  let lists := lists.setNext elem 0#32
  let lists :=
    if lists.empty head then lists.setFirst head id
    else lists.setNextIf (lists.last head) id
  lists.setLast head id

def insertBefore (lists : ArrLists size Head) (head : Head) (listElem elem : size.Elem) :
    ArrLists size Head :=
  let id := elemToId elem
  let lid := elemToId listElem
  let lists := lists.setNextIf (lists.prev listElem) id
  let lists := lists.setPrev elem (lists.field listElem).prev
  let lists := lists.setNext elem lid
  let lists := lists.setPrev listElem id
  if (lists.heads head).first = lid then lists.setFirst head id else lists

def insertAfter (lists : ArrLists size Head) (head : Head) (listElem elem : size.Elem) :
    ArrLists size Head :=
  let id := elemToId elem
  let lid := elemToId listElem
  let lists := lists.setPrevIf (lists.next listElem) id
  let lists := lists.setPrev elem lid
  let lists := lists.setNext elem (lists.field listElem).next
  let lists := lists.setNext listElem id
  if (lists.heads head).last = lid then lists.setLast head id else lists

def remove (lists : ArrLists size Head) (head : Head) (elem : size.Elem) : ArrLists size Head :=
  let id := elemToId elem
  let lists := lists.setNextIf (lists.prev elem) (lists.field elem).next
  let lists := lists.setPrevIf (lists.next elem) (lists.field elem).prev
  let lists :=
    if (lists.heads head).first = id then lists.setFirst head (lists.field elem).next else lists
  let lists :=
    if (lists.heads head).last = id then lists.setLast head (lists.field elem).prev else lists
  let lists := lists.setPrev elem 0#32
  lists.setNext elem 0#32

def popFirst (lists : ArrLists size Head) (head : Head) :
    Option size.Elem × ArrLists size Head :=
  let id := (lists.heads head).first
  match lists.first head with
  | none => (none, lists)
  | some first =>
      let lists := lists.setPrevIf (lists.next first) 0#32
      let lists := lists.setFirst head (lists.field first).next
      let lists := if (lists.heads head).last = id then lists.setLast head 0#32 else lists
      let lists := lists.setNext first 0#32
      (some first, lists)

/-- `arr_list_init`. -/
def init (lists : ArrLists size Head) (head : Head) : ArrLists size Head :=
  { lists with heads := Function.update lists.heads head ⟨0#32, 0#32⟩ }

def concat (lists : ArrLists size Head) (head1 head2 : Head) : ArrLists size Head :=
  let lists := lists.setNextIf (lists.last head1) (lists.heads head2).first
  let lists := lists.setPrevIf (lists.first head2) (lists.heads head1).last
  let lists :=
    if lists.empty head1 then lists.setFirst head1 (lists.heads head2).first else lists
  let lists := lists.setLast head1 (lists.heads head2).last
  lists.init head2

end ArrLists

/-! ## Iterators

The four `for` headers differ in the end they start from and in when they read the
link to the next element. Here they run over any state that holds the lists. -/

/-- How the body of a loop ends. -/
inductive Flow where
  | next
  | leave

/-- What a loop leaves behind; `visited` records the elements its body ran on. -/
structure Walk (size : ArrSize) (State : Type) where
  var : Option size.Elem
  state : State
  visited : List size.Elem

section Loops

variable {size : ArrSize} {State : Type} (link : State → size.Elem → Option size.Elem)
  (body : size.Elem → State → Flow × State)

/-- `for (...; var && i < max; var = link(var), i++)`, with the rounds left. -/
def forLoop : Nat → Option size.Elem → State → Walk size State
  | _, none, state => ⟨none, state, []⟩
  | 0, some elem, state => ⟨some elem, state, []⟩
  | rounds + 1, some elem, state =>
      match body elem state with
      | (.leave, state) => ⟨some elem, state, [elem]⟩
      | (.next, state) =>
          let rest := forLoop rounds (link state elem) state
          { rest with visited := elem :: rest.visited }

/-- `for (...; var && i < max && (tvar = link(var), 1); var = tvar, i++)`. -/
def forSafeLoop : Nat → Option size.Elem → State → Walk size State
  | _, none, state => ⟨none, state, []⟩
  | 0, some elem, state => ⟨some elem, state, []⟩
  | rounds + 1, some elem, state =>
      let tvar := link state elem
      match body elem state with
      | (.leave, state) => ⟨some elem, state, [elem]⟩
      | (.next, state) =>
          let rest := forSafeLoop rounds tvar state
          { rest with visited := elem :: rest.visited }

end Loops

section Iterators

variable {size : ArrSize} {Head State : Type} (lists : State → ArrLists size Head) (head : Head)
  (max : Nat) (body : size.Elem → State → Flow × State) (state : State)

def arrListForeach : Walk size State :=
  forLoop (fun state => (lists state).next) body max ((lists state).first head) state

def arrListForeachSafe : Walk size State :=
  forSafeLoop (fun state => (lists state).next) body max ((lists state).first head) state

def arrListForeachReverse : Walk size State :=
  forLoop (fun state => (lists state).prev) body max ((lists state).last head) state

def arrListForeachReverseSafe : Walk size State :=
  forSafeLoop (fun state => (lists state).prev) body max ((lists state).last head) state

end Iterators

/-! ## Sequences -/

/-- Disjoint finite sequences, one for each head. -/
abbrev Sequences (size : ArrSize) (Head : Type) : Type := Head → List size.Elem

section Sequences

variable {α : Type} [DecidableEq α]

def insertBeforeIn (listElem elem : α) : List α → List α
  | [] => []
  | head :: rest =>
      if head = listElem then elem :: head :: rest else head :: insertBeforeIn listElem elem rest

def insertAfterIn (listElem elem : α) : List α → List α
  | [] => []
  | head :: rest =>
      if head = listElem then head :: elem :: rest else head :: insertAfterIn listElem elem rest

end Sequences

inductive ListOp (size : ArrSize) (Head : Type) where
  | insertHead (head : Head) (elem : size.Elem)
  | insertTail (head : Head) (elem : size.Elem)
  | insertBefore (head : Head) (listElem elem : size.Elem)
  | insertAfter (head : Head) (listElem elem : size.Elem)
  | remove (head : Head) (elem : size.Elem)
  | popFirst (head : Head) (popped : Option size.Elem)

namespace ListOp

variable {size : ArrSize} {Head : Type}

def head : ListOp size Head → Head
  | .insertHead head _ => head
  | .insertTail head _ => head
  | .insertBefore head _ _ => head
  | .insertAfter head _ _ => head
  | .remove head _ => head
  | .popFirst head _ => head

/-- An inserted element is on no list; the others are on the given one. -/
def Allowed (sequences : Sequences size Head) : ListOp size Head → Prop
  | .insertHead _ elem => ∀ head, elem ∉ sequences head
  | .insertTail _ elem => ∀ head, elem ∉ sequences head
  | .insertBefore head listElem elem =>
      listElem ∈ sequences head ∧ ∀ other, elem ∉ sequences other
  | .insertAfter head listElem elem =>
      listElem ∈ sequences head ∧ ∀ other, elem ∉ sequences other
  | .remove head elem => elem ∈ sequences head
  | .popFirst _ _ => True

/-- What an operation means for the sequence of its head. -/
def meaning (sequence : List size.Elem) : ListOp size Head → List size.Elem
  | .insertHead _ elem => elem :: sequence
  | .insertTail _ elem => sequence ++ [elem]
  | .insertBefore _ listElem elem => insertBeforeIn listElem elem sequence
  | .insertAfter _ listElem elem => insertAfterIn listElem elem sequence
  | .remove _ elem => sequence.erase elem
  | .popFirst _ _ => sequence.tail

variable [DecidableEq Head]

/-- The macros. -/
def Performs (lists : ArrLists size Head) : ListOp size Head → ArrLists size Head → Prop
  | .insertHead head elem, after => after = lists.insertHead head elem
  | .insertTail head elem, after => after = lists.insertTail head elem
  | .insertBefore head listElem elem, after => after = lists.insertBefore head listElem elem
  | .insertAfter head listElem elem, after => after = lists.insertAfter head listElem elem
  | .remove head elem, after => after = lists.remove head elem
  | .popFirst head popped, after => (popped, after) = lists.popFirst head

end ListOp

/-- The macros beside their meaning, from zeroed heads and any array. -/
def arrLists (size : ArrSize) (Head : Type) [DecidableEq Head] :
    Machine (ArrLists size Head × Sequences size Head) (ListOp size Head) where
  initial state := (∀ head, state.1.heads head = ⟨0#32, 0#32⟩) ∧ ∀ head, state.2 head = []
  step state op next := op.Allowed state.2 ∧ op.Performs state.1 next.1 ∧
    next.2 = Function.update state.2 op.head (op.meaning (state.2 op.head))

end Ghost.Bpf
