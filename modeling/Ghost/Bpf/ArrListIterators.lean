import Ghost.Bpf.ArrListConcat

/-!
# Bounded iteration

A walk goes along the order of its direction. Whatever the body does with the
current element, the elements ahead of it stay as they are, and the variable of the
loop names the first of them.
-/

set_option autoImplicit false

namespace Ghost.Bpf

open Lib

variable {size : ArrSize} {Head State : Type}

/-- From which end a loop walks. -/
inductive Direction where
  | forward
  | backward

namespace Direction

/-- The elements in the order of the walk. -/
def order {α : Type} (items : List α) : Direction → List α
  | .forward => items
  | .backward => items.reverse

def start (lists : ArrLists size Head) (head : Head) : Direction → Option size.Elem
  | .forward => lists.first head
  | .backward => lists.last head

def link (lists : ArrLists size Head) (elem : size.Elem) : Direction → Option size.Elem
  | .forward => lists.next elem
  | .backward => lists.prev elem

private theorem mem_order {α : Type} (direction : Direction) {items : List α} {item : α} :
    item ∈ direction.order items ↔ item ∈ items := by
  cases direction with
  | forward => exact Iff.rfl
  | backward => exact List.mem_reverse

private theorem nodup_order {α : Type} (direction : Direction) {items : List α} :
    (direction.order items).Nodup ↔ items.Nodup := by
  cases direction with
  | forward => exact Iff.rfl
  | backward => exact List.nodup_reverse

private theorem order_erase {α : Type} [DecidableEq α] (direction : Direction) {items : List α}
    (unique : items.Nodup) (item : α) :
    direction.order (items.erase item) = (direction.order items).erase item := by
  rw [unique.erase_eq_filter, (direction.nodup_order.mpr unique).erase_eq_filter]
  cases direction with
  | forward => rfl
  | backward => exact (List.filter_reverse ..).symm

end Direction

section Ends

variable {lists : ArrLists size Head} {head : Head} {items front back : List size.Elem}
  {elem : size.Elem}

private theorem idToElem_firstId (items : List size.Elem) :
    idToElem (ArrLists.firstId items) = items.head? := by
  cases items with
  | nil => rfl
  | cons elem rest => exact idToElem_elemToId elem

private theorem idToElem_lastId (items : List size.Elem) :
    idToElem (ArrLists.lastId items) = items.getLast? := by
  cases items using List.reverseRecOn with
  | nil => rfl
  | append_singleton front elem =>
      rw [ArrLists.lastId_append_cons, ArrLists.lastId_singleton, idToElem_elemToId,
        List.getLast?_concat]

private theorem ArrLists.Represents.start_eq (represents : lists.Represents head items)
    (direction : Direction) : direction.start lists head = (direction.order items).head? := by
  cases direction with
  | forward => exact represents.first_eq
  | backward =>
      change idToElem (lists.heads head).last = items.reverse.head?
      rw [represents.last, idToElem_lastId, List.head?_reverse]

theorem ArrLists.Represents.link_eq (represents : lists.Represents head items)
    (direction : Direction) (split : direction.order items = front ++ elem :: back) :
    direction.link lists elem = back.head? := by
  cases direction with
  | forward =>
      obtain rfl : items = front ++ elem :: back := split
      change idToElem (lists.field elem).next = back.head?
      rw [represents.next_eq, idToElem_firstId]
  | backward =>
      obtain rfl : items = back.reverse ++ elem :: front.reverse := by
        rw [← List.reverse_reverse items, show items.reverse = _ from split]
        simp
      change idToElem (lists.field elem).prev = back.head?
      rw [represents.prev_eq, idToElem_lastId, List.getLast?_reverse]

end Ends

/-! ## Rounds -/

/-- The rounds of a loop, with the elements ahead. In each of them the lists stay well
formed, and the walked list stays as it is or loses the current element. -/
inductive Rounds (lists : State → ArrLists size Head) (head : Head)
    (body : size.Elem → State → State) (removing : Bool) :
    Nat → State → Sequences size Head → List size.Elem → Prop
  | stop {state : State} {sequences : Sequences size Head} {ahead : List size.Elem} :
      Rounds lists head body removing 0 state sequences ahead
  | finish {rounds : Nat} {state : State} {sequences : Sequences size Head} :
      Rounds lists head body removing rounds state sequences []
  | round {rounds : Nat} {state : State} {sequences sequences' : Sequences size Head}
      {elem : size.Elem} {ahead : List size.Elem} :
      Refines (lists (body elem state), sequences') →
      (sequences' head = sequences head ∨
        removing = true ∧ sequences' head = (sequences head).erase elem) →
      Rounds lists head body removing rounds (body elem state) sequences' ahead →
      Rounds lists head body removing (rounds + 1) state sequences (elem :: ahead)

/-- A body that always runs to its end. -/
def runsOn (body : size.Elem → State → State) (elem : size.Elem) (state : State) :
    Flow × State := (.next, body elem state)

/-- The body ran on the elements up to the bound, and the variable names the first
of the others. -/
structure Iterates (walk : Walk size State) (order : List size.Elem) (max : Nat) : Prop where
  visited : walk.visited = order.take max
  var : walk.var = (order.drop max).head?

section Rounds

variable {lists : State → ArrLists size Head} {head : Head} {body : size.Elem → State → State}
  {direction : Direction} {rounds : Nat} {state : State} {sequences : Sequences size Head}
  {behind ahead : List size.Elem} {removing : Bool}

/-- Each link is read after the body, which leaves the walked list alone. -/
theorem Rounds.forLoop (loop : Rounds lists head body false rounds state sequences ahead)
    (refines : Refines (lists state, sequences))
    (split : direction.order (sequences head) = behind ++ ahead) :
    Iterates (forLoop (fun state elem => direction.link (lists state) elem) (runsOn body) rounds
      ahead.head? state) ahead rounds := by
  induction loop generalizing behind with
  | @stop _ _ ahead => cases ahead <;> exact ⟨rfl, rfl⟩
  | @finish rounds => cases rounds <;> exact ⟨rfl, rfl⟩
  | @round rounds state sequences sequences' elem ahead refines' effect _ ih =>
      have same : sequences' head = sequences head := by
        cases effect with
        | inl same => exact same
        | inr removed => cases removed.1
      rw [← same] at split
      have next := (refines'.represents head).link_eq direction split
      have further := @ih (behind ++ [elem]) refines' (by simpa using split)
      simp only [List.head?_cons, Bpf.forLoop, runsOn, next]
      exact ⟨congrArg (elem :: ·) further.visited, further.var⟩

/-- Each link is read before the body, which may remove the element. -/
theorem Rounds.forSafeLoop (loop : Rounds lists head body removing rounds state sequences ahead)
    (refines : Refines (lists state, sequences))
    (split : direction.order (sequences head) = behind ++ ahead) :
    Iterates (forSafeLoop (fun state elem => direction.link (lists state) elem) (runsOn body)
      rounds ahead.head? state) ahead rounds := by
  induction loop generalizing behind with
  | @stop _ _ ahead => cases ahead <;> exact ⟨rfl, rfl⟩
  | @finish rounds => cases rounds <;> exact ⟨rfl, rfl⟩
  | @round rounds state sequences sequences' elem ahead refines' effect _ ih =>
      have next := (refines.represents head).link_eq direction split
      have unique := direction.nodup_order.mpr (refines.nodup head)
      have further : ∃ behind', direction.order (sequences' head) = behind' ++ ahead := by
        cases effect with
        | inl same => exact ⟨behind ++ [elem], by rw [same, split]; simp⟩
        | inr removed =>
            refine ⟨behind, ?_⟩
            rw [split] at unique
            have absent : elem ∉ behind := fun member =>
              (List.nodup_cons.mp (List.nodup_middle.mp unique)).1 (List.mem_append_left _ member)
            rw [removed.2, direction.order_erase (refines.nodup head), split,
              List.erase_append_right _ absent, List.erase_cons_head]
      obtain ⟨behind', split'⟩ := further
      have further := ih refines' split'
      simp only [List.head?_cons, Bpf.forSafeLoop, runsOn, next]
      exact ⟨congrArg (elem :: ·) further.visited, further.var⟩

/-- The body ran once on each of the first elements up to the bound, in order, and a
variable left non-null means that there are more. -/
structure BoundedWalk (walk : Walk size State) (order : List size.Elem) (max : Nat) : Prop where
  visited : walk.visited = order.take (min order.length max)
  once : walk.visited.Nodup
  stoppedShort : walk.var ≠ none ↔ max < order.length

private theorem Iterates.bounded {walk : Walk size State} {order : List size.Elem} {max : Nat}
    (iterates : Iterates walk order max) (unique : order.Nodup) : BoundedWalk walk order max := by
  have visited := iterates.visited
  refine ⟨?_, ?_, ?_⟩
  · rw [visited, Nat.min_comm, List.take_eq_take_min]
  · rw [visited]
    exact unique.sublist (List.take_sublist max order)
  · rw [iterates.var, ne_eq, List.head?_eq_none_iff, List.drop_eq_nil_iff, not_le]

private theorem Rounds.forLoop_bounded (direction : Direction)
    (loop : Rounds lists head body false rounds state sequences (direction.order (sequences head)))
    (refines : Refines (lists state, sequences)) :
    BoundedWalk (Bpf.forLoop (fun state elem => direction.link (lists state) elem) (runsOn body)
      rounds (direction.start (lists state) head) state) (direction.order (sequences head))
      rounds := by
  have walk := loop.forLoop refines (List.nil_append _).symm
  rw [← (refines.represents head).start_eq direction] at walk
  exact walk.bounded (direction.nodup_order.mpr (refines.nodup head))

private theorem Rounds.forSafeLoop_bounded (direction : Direction)
    (loop : Rounds lists head body removing rounds state sequences
      (direction.order (sequences head)))
    (refines : Refines (lists state, sequences)) :
    BoundedWalk (Bpf.forSafeLoop (fun state elem => direction.link (lists state) elem)
      (runsOn body) rounds (direction.start (lists state) head) state)
      (direction.order (sequences head)) rounds := by
  have walk := loop.forSafeLoop refines (List.nil_append _).symm
  rw [← (refines.represents head).start_eq direction] at walk
  exact walk.bounded (direction.nodup_order.mpr (refines.nodup head))

end Rounds

/-! ## Bodies -/

section Bodies

variable [DecidableEq Head]

/-- The current element is removed, or popped. -/
inductive Takes (head : Head) (elem : size.Elem) (lists after : ArrLists size Head) : Prop
  | removes : after = lists.remove head elem → Takes head elem lists after
  | pops : lists.popFirst head = (some elem, after) → Takes head elem lists after

/-- The element is inserted into a list, at an end or next to an element of the list. -/
inductive Inserts (head : Head) (elem : size.Elem) (items : List size.Elem)
    (lists after : ArrLists size Head) : Prop
  | atHead : after = lists.insertHead head elem → Inserts head elem items lists after
  | atTail : after = lists.insertTail head elem → Inserts head elem items lists after
  | before (listElem : size.Elem) : listElem ∈ items →
      after = lists.insertBefore head listElem elem → Inserts head elem items lists after
  | after (listElem : size.Elem) : listElem ∈ items →
      after = lists.insertAfter head listElem elem → Inserts head elem items lists after

/-- What the body of a safe loop may do with the current element. -/
inductive Disposes (head : Head) (elem : size.Elem) (now : Sequences size Head)
    (lists after : ArrLists size Head) : Prop
  | keeps : after = lists → Disposes head elem now lists after
  | takes : Takes head elem lists after → Disposes head elem now lists after
  | moves (other : Head) (taken : ArrLists size Head) : Takes head elem lists taken →
      other ≠ head → Inserts other elem (now other) taken after →
      Disposes head elem now lists after

/-- Where the body of a safe loop runs: the lists are well formed, the current element is
on the walked list, and the other lists have what they had before the loop. -/
structure Within (head : Head) (elem : size.Elem) (before now : Sequences size Head)
    (lists : ArrLists size Head) : Prop where
  refines : Refines (lists, now)
  listed : elem ∈ now head
  kept : ∀ other, other ≠ head → before other ⊆ now other

variable {head : Head} {elem : size.Elem} {before after : ArrLists size Head}
  {sequences : Sequences size Head}

private theorem Refines.takes (refines : Refines (before, sequences))
    (listed : elem ∈ sequences head)
    (takes : Takes head elem before after) :
    Refines (after, Function.update sequences head ((sequences head).erase elem)) := by
  cases takes with
  | removes same =>
      subst same
      exact refines.remove listed
  | pops popped =>
      obtain ⟨isFirst, refines'⟩ := refines.popFirst head
      rw [popped] at isFirst refines'
      cases items : sequences head with
      | nil =>
          rw [items] at listed
          cases listed
      | cons first rest =>
          rw [items] at isFirst refines'
          cases isFirst
          rw [List.erase_cons_head]
          exact refines'

private theorem Refines.absent (refines : Refines (before, sequences))
    (listed : elem ∈ sequences head)
    (other : Head) :
    elem ∉ Function.update sequences head ((sequences head).erase elem) other := by
  by_cases same : other = head
  · subst same
    rw [Function.update_self]
    exact (refines.nodup other).not_mem_erase
  · rw [Function.update_of_ne same]
    exact fun there => same (refines.apart other head elem there listed)

private theorem subset_insertBeforeIn {α : Type} [DecidableEq α] (listElem elem : α)
    (items : List α) :
    items ⊆ insertBeforeIn listElem elem items := by
  induction items with
  | nil => exact List.nil_subset _
  | cons head rest ih =>
      unfold insertBeforeIn
      split
      · exact List.subset_cons_self _ _
      · exact List.cons_subset_cons _ ih

private theorem subset_insertAfterIn {α : Type} [DecidableEq α] (listElem elem : α)
    (items : List α) :
    items ⊆ insertAfterIn listElem elem items := by
  induction items with
  | nil => exact List.nil_subset _
  | cons head rest ih =>
      unfold insertAfterIn
      split
      · exact List.cons_subset_cons _ (List.subset_cons_self _ _)
      · exact List.cons_subset_cons _ ih

private theorem Refines.inserts (refines : Refines (before, sequences))
    (absent : ∀ other, elem ∉ sequences other)
    (inserts : Inserts head elem (sequences head) before after) :
    ∃ items, Refines (after, Function.update sequences head items) ∧ sequences head ⊆ items := by
  cases inserts with
  | atHead same =>
      subst same
      exact ⟨_, refines.insertHead absent, List.subset_cons_self _ _⟩
  | atTail same =>
      subst same
      exact ⟨_, refines.insertTail absent, List.subset_append_left _ _⟩
  | before listElem listed same =>
      subst same
      exact ⟨_, refines.insertBefore listed absent, subset_insertBeforeIn _ _ _⟩
  | after listElem listed same =>
      subst same
      exact ⟨_, refines.insertAfter listed absent, subset_insertAfterIn _ _ _⟩

/-- The walked list stays as it is or loses the current element, and the others only grow. -/
theorem Refines.disposes (refines : Refines (before, sequences)) (listed : elem ∈ sequences head)
    (disposes : Disposes head elem sequences before after) :
    ∃ sequences', Refines (after, sequences') ∧
      (sequences' head = sequences head ∨ sequences' head = (sequences head).erase elem) ∧
      ∀ other, other ≠ head → sequences other ⊆ sequences' other := by
  cases disposes with
  | keeps same =>
      subst same
      exact ⟨sequences, refines, .inl rfl, fun _ _ => List.Subset.refl _⟩
  | takes takes =>
      refine ⟨_, refines.takes listed takes, .inr (Function.update_self ..), fun other different => ?_⟩
      rw [Function.update_of_ne different]
      exact List.Subset.refl _
  | moves other taken takes different inserts =>
      rw [← Function.update_of_ne different ((sequences head).erase elem) sequences] at inserts
      obtain ⟨items, refines', grown⟩ :=
        (refines.takes listed takes).inserts (refines.absent listed) inserts
      refine ⟨_, refines', .inr ?_, fun third apart => ?_⟩
      · rw [Function.update_of_ne different.symm, Function.update_self]
      · by_cases same : third = other
        · subst same
          rw [Function.update_self]
          rwa [Function.update_of_ne different] at grown
        · rw [Function.update_of_ne same, Function.update_of_ne apart]
          exact List.Subset.refl _

end Bodies

section Loops

variable {lists : State → ArrLists size Head} {head : Head} {body : size.Elem → State → State}
  {state : State} {sequences : Sequences size Head} {ahead : List size.Elem}

private theorem rounds_of_untouched
    (untouched : ∀ elem state, lists (body elem state) = lists state)
    (refines : Refines (lists state, sequences)) (rounds : Nat) :
    Rounds lists head body false rounds state sequences ahead := by
  induction ahead generalizing rounds state with
  | nil => exact .finish
  | cons elem ahead ih =>
      cases rounds with
      | zero => exact .stop
      | succ rounds =>
          have refines' : Refines (lists (body elem state), sequences) := by
            rw [untouched]
            exact refines
          exact .round refines' (.inl rfl) (ih refines' rounds)

variable [DecidableEq Head]

private theorem rounds_of_disposes {start : Sequences size Head}
    (disposes : ∀ elem state now, Within head elem start now (lists state) →
      Disposes head elem now (lists state) (lists (body elem state)))
    (refines : Refines (lists state, sequences))
    (kept : ∀ other, other ≠ head → start other ⊆ sequences other)
    (listed : ∀ elem ∈ ahead, elem ∈ sequences head) (unique : ahead.Nodup) (rounds : Nat) :
    Rounds lists head body true rounds state sequences ahead := by
  induction ahead generalizing rounds state sequences with
  | nil => exact .finish
  | cons elem ahead ih =>
      cases rounds with
      | zero => exact .stop
      | succ rounds =>
          obtain ⟨absent, unique⟩ := List.nodup_cons.mp unique
          have here := listed elem List.mem_cons_self
          obtain ⟨sequences', refines', effect, grown⟩ :=
            refines.disposes here (disposes elem state sequences ⟨refines, here, kept⟩)
          refine .round refines' (effect.imp_right fun removed => ⟨rfl, removed⟩)
            (ih refines' (fun other different =>
              List.Subset.trans (kept other different) (grown other different)) ?_ unique rounds)
          intro other member
          have there := listed other (List.mem_cons_of_mem _ member)
          cases effect with
          | inl same => rwa [same]
          | inr removed =>
              rw [removed]
              refine (List.mem_erase_of_ne ?_).mpr there
              rintro rfl
              exact absent member

/-- A loop whose body pops the first element always has the current one first. -/
theorem rounds_of_pops
    (pops : ∀ elem state, lists (body elem state) = ((lists state).popFirst head).2)
    (refines : Refines (lists state, sequences)) (all : sequences head = ahead) (rounds : Nat) :
    Rounds lists head body true rounds state sequences ahead := by
  induction ahead generalizing rounds state sequences with
  | nil => exact .finish
  | cons elem ahead ih =>
      cases rounds with
      | zero => exact .stop
      | succ rounds =>
          obtain ⟨-, refines'⟩ := refines.popFirst head
          rw [← pops elem state, all] at refines'
          refine .round refines' (.inr ⟨rfl, ?_⟩) (ih refines' (Function.update_self ..) rounds)
          rw [Function.update_self, all, List.erase_cons_head]
          rfl

/-- All four iterators are bounded walks: the plain ones if their body leaves the
lists alone, the safe ones if it keeps, removes or pops the current element, or moves it to
another list, to an end or next to an element of that list. -/
theorem iterators_bounded (refines : Refines (lists state, sequences)) (max : Nat) :
    ((∀ elem state, lists (body elem state) = lists state) →
      BoundedWalk (arrListForeach lists head max (runsOn body) state) (sequences head) max ∧
      BoundedWalk (arrListForeachReverse lists head max (runsOn body) state)
        (sequences head).reverse max) ∧
    ((∀ elem state now, Within head elem sequences now (lists state) →
        Disposes head elem now (lists state) (lists (body elem state))) →
      BoundedWalk (arrListForeachSafe lists head max (runsOn body) state) (sequences head) max ∧
      BoundedWalk (arrListForeachReverseSafe lists head max (runsOn body) state)
        (sequences head).reverse max) ∧
    ((∀ elem state, lists (body elem state) = ((lists state).popFirst head).2) →
      BoundedWalk (arrListForeachSafe lists head max (runsOn body) state)
        (sequences head) max) := by
  refine ⟨?_, ?_, ?_⟩
  · intro untouched
    exact ⟨(rounds_of_untouched untouched refines max).forLoop_bounded .forward refines,
      (rounds_of_untouched untouched refines max).forLoop_bounded .backward refines⟩
  · intro disposes
    have loop : ∀ direction : Direction, Rounds lists head body true max state sequences
        (direction.order (sequences head)) := fun direction =>
      rounds_of_disposes disposes refines (fun _ _ => List.Subset.refl _)
        (fun elem member => direction.mem_order.mp member)
        (direction.nodup_order.mpr (refines.nodup head)) max
    exact ⟨(loop .forward).forSafeLoop_bounded .forward refines,
      (loop .backward).forSafeLoop_bounded .backward refines⟩
  · intro pops
    exact (rounds_of_pops pops refines rfl max).forSafeLoop_bounded .forward refines

end Loops

/-- Moves an element to the list `false`, before the elements it has. -/
def moveAway (elem : pairSize.Elem) (lists : ArrLists pairSize Bool) : ArrLists pairSize Bool :=
  match (lists.remove true elem).first false with
  | none => (lists.remove true elem).insertTail false elem
  | some listElem => (lists.remove true elem).insertBefore false listElem elem

/-- A loop over both elements of one list that moves them to the other stops short
after one round, and moves both in two. -/
theorem iterators_bounded_pair :
    BoundedWalk (arrListForeachSafe id true 1 (runsOn moveAway)
      (lonely.insertTail true secondElem)) [firstElem, secondElem] 1 ∧
    BoundedWalk (arrListForeachSafe id true 2 (runsOn moveAway)
      (lonely.insertTail true secondElem)) [firstElem, secondElem] 2 := by
  have refines : Refines (id (lonely.insertTail true secondElem),
      Function.update lonelySequences true [firstElem, secondElem]) :=
    lonely_refines.insertTail lonely_absent
  have disposes : ∀ elem lists now, Within true elem
      (Function.update lonelySequences true [firstElem, secondElem]) now (id lists) →
      Disposes true elem now (id lists) (id (moveAway elem lists)) := by
    intro elem lists now inside
    rw [id_eq] at inside
    rw [id_eq, id_eq]
    have takes : Takes true elem lists (lists.remove true elem) := .removes rfl
    refine .moves false (lists.remove true elem) takes Bool.false_ne_true ?_
    unfold moveAway
    cases isFirst : (lists.remove true elem).first false with
    | none => exact .atTail rfl
    | some listElem =>
        have listed := (inside.refines.takes inside.listed takes).mem_of_first isFirst
        rw [Function.update_of_ne Bool.false_ne_true] at listed
        exact .before listElem listed rfl
  have once := (@iterators_bounded pairSize Bool _ id true moveAway _ _ _ refines 1).2.1 disposes
  have twice := (@iterators_bounded pairSize Bool _ id true moveAway _ _ _ refines 2).2.1 disposes
  rw [Function.update_self] at once twice
  exact ⟨once.1, twice.1⟩

end Ghost.Bpf
