import Ghost.Bpf.ArrListProperties

/-!
# Concatenation

`arr_list_concat` links the last element of one list with the first of another
and takes over the end of the second list. It does so also when the second list
is empty and has no end: then a nonempty first list loses its last element from
sight, and the next insertion at the tail is not linked to it.
-/

set_option autoImplicit false

namespace Ghost.Bpf

open Lib

variable {size : ArrSize} {Head : Type} [DecidableEq Head]

namespace ArrLists

variable (lists : ArrLists size Head) {head1 head2 : Head}

private theorem next_concat (elem : size.Elem) : ((lists.concat head1 head2).field elem).next =
    if elemToId elem = (lists.heads head1).last then (lists.heads head2).first
    else (lists.field elem).next := by
  unfold concat init last
  dsimp only
  split <;> simp

private theorem prev_concat (elem : size.Elem) : ((lists.concat head1 head2).field elem).prev =
    if elemToId elem = (lists.heads head2).first then (lists.heads head1).last
    else (lists.field elem).prev := by
  unfold concat init first
  dsimp only
  split <;> simp

private theorem heads_concat (different : head1 ≠ head2) (other : Head) :
    (lists.concat head1 head2).heads other =
      if other = head2 then ⟨0#32, 0#32⟩
      else if other = head1 then
        ⟨if (lists.heads head1).first = 0#32 then (lists.heads head2).first
          else (lists.heads head1).first, (lists.heads head2).last⟩
      else lists.heads other := by
  unfold concat init empty
  by_cases isSecond : other = head2
  · simp [isSecond]
  · by_cases isFirst : other = head1
    · subst isFirst
      by_cases vacant : (lists.heads other).first = 0#32
      · simp [isSecond, vacant, different.symm]
      · simp [isSecond, vacant]
    · by_cases vacant : (lists.heads head1).first = 0#32
      · simp [isSecond, isFirst, vacant]
      · simp [isSecond, isFirst, vacant]

end ArrLists

/-- What a concatenation means for the sequences. -/
def Sequences.concat (sequences : Sequences size Head) (head1 head2 : Head) :
    Sequences size Head :=
  Function.update (Function.update sequences head1 (sequences head1 ++ sequences head2)) head2 []

section Appending

variable {lists : ArrLists size Head} {sequences : Sequences size Head} {head1 head2 : Head}

private theorem Sequences.concat_first (different : head1 ≠ head2) :
    sequences.concat head1 head2 head1 = sequences head1 ++ sequences head2 := by
  unfold Sequences.concat
  rw [Function.update_of_ne different, Function.update_self]

private theorem Sequences.concat_second : sequences.concat head1 head2 head2 = [] :=
  Function.update_self ..

private theorem Sequences.concat_other {other : Head} (notFirst : other ≠ head1)
    (notSecond : other ≠ head2) : sequences.concat head1 head2 other = sequences other := by
  unfold Sequences.concat
  rw [Function.update_of_ne notSecond, Function.update_of_ne notFirst]

private theorem Sequences.mem_concat {head : Head} {elem : size.Elem} (different : head1 ≠ head2)
    (listed : elem ∈ sequences.concat head1 head2 head) :
    head ≠ head2 ∧ (elem ∈ sequences head ∨ head = head1 ∧ elem ∈ sequences head2) := by
  by_cases isSecond : head = head2
  · subst isSecond
    rw [Sequences.concat_second] at listed
    cases listed
  · refine ⟨isSecond, ?_⟩
    by_cases isFirst : head = head1
    · subst isFirst
      rw [Sequences.concat_first different, List.mem_append] at listed
      exact listed.imp_right fun inSecond => ⟨rfl, inSecond⟩
    · rw [Sequences.concat_other isFirst isSecond] at listed
      exact .inl listed

private theorem Refines.concat_linked (refines : Refines (lists, sequences))
    (different : head1 ≠ head2) :
    DLinked 0#32 (lists.concat head1 head2).nextId (lists.concat head1 head2).prevId 0#32
      ((sequences head1 ++ sequences head2).map elemToId) := by
  have first : lists.Represents head1 (sequences head1) := refines.represents head1
  have second : lists.Represents head2 (sequences head2) := refines.represents head2
  have disjoint : (sequences head1 ++ sequences head2).Nodup := by
    refine List.nodup_append.mpr ⟨first.unique, second.unique, ?_⟩
    rintro elem inFirst other inSecond rfl
    exact different (refines.apart head1 head2 elem inFirst inSecond)
  rw [List.map_append]
  refine first.linked.append second.linked ?_ ?_ ?_
  · rw [← List.map_append]
    exact disjoint.map elemToId_injective
  · rw [← List.map_append]
    intro id member
    obtain ⟨elem, -, rfl⟩ := List.mem_map.mp member
    rw [ArrLists.nextId_elemToId, ArrLists.nextId_elemToId, ArrLists.next_concat, first.last,
      second.first]
    exact ⟨fun named => if_pos named, fun unnamed => if_neg unnamed⟩
  · rw [← List.map_append]
    intro id member
    obtain ⟨elem, -, rfl⟩ := List.mem_map.mp member
    rw [ArrLists.prevId_elemToId, ArrLists.prevId_elemToId, ArrLists.prev_concat, first.last,
      second.first]
    exact ⟨fun named => if_pos named, fun unnamed => if_neg unnamed⟩

/-- Concatenation is append unless it adds nothing to something. -/
theorem Refines.concat (refines : Refines (lists, sequences)) (different : head1 ≠ head2)
    (adds : sequences head2 = [] → sequences head1 = []) :
    Refines (lists.concat head1 head2, sequences.concat head1 head2) := by
  have first : lists.Represents head1 (sequences head1) := refines.represents head1
  have second : lists.Represents head2 (sequences head2) := refines.represents head2
  have linked := refines.concat_linked different
  have heads := lists.heads_concat different
  constructor
  · intro head
    dsimp only
    by_cases isSecond : head = head2
    · subst isSecond
      rw [Sequences.concat_second]
      refine ⟨trivial, ?_, ?_, List.nodup_nil⟩
      · rw [heads, if_pos rfl]
        rfl
      · rw [heads, if_pos rfl]
        rfl
    · by_cases isFirst : head = head1
      · subst isFirst
        rw [Sequences.concat_first different]
        refine ⟨linked, ?_, ?_, ?_⟩
        · rw [heads, if_neg isSecond, if_pos rfl, first.first, second.first]
          dsimp only
          cases sequences head with
          | nil => rfl
          | cons elem rest => exact if_neg (elemToId_ne_zero elem)
        · rw [heads, if_neg isSecond, if_pos rfl, second.last]
          cases items : sequences head2 with
          | nil =>
              rw [adds items]
              rfl
          | cons elem rest => rw [ArrLists.lastId_append_cons]
        · refine List.nodup_append.mpr ⟨first.unique, second.unique, ?_⟩
          rintro elem inFirst other inSecond rfl
          exact different (refines.apart head head2 elem inFirst inSecond)
      · rw [Sequences.concat_other isFirst isSecond]
        refine (refines.represents head).congr ?_ ?_
        · rw [heads, if_neg isSecond, if_neg isFirst]
        · intro elem listed
          have notLast : elemToId elem ≠ (lists.heads head1).last := by
            rw [first.last]
            intro named
            exact isFirst (refines.apart head head1 elem listed (ArrLists.mem_of_lastId named))
          have notFirst : elemToId elem ≠ (lists.heads head2).first := by
            rw [second.first]
            intro named
            exact isSecond (refines.apart head head2 elem listed (ArrLists.mem_of_firstId named))
          apply ArrListEntry.ext
          · exact (lists.next_concat elem).trans (if_neg notLast)
          · exact (lists.prev_concat elem).trans (if_neg notFirst)
  · intro head other elem inHead inOther
    obtain ⟨notSecond, origin⟩ := Sequences.mem_concat different inHead
    obtain ⟨notSecond', origin'⟩ := Sequences.mem_concat different inOther
    rcases origin with listed | ⟨rfl, listed⟩
    · rcases origin' with listed' | ⟨rfl, listed'⟩
      · exact refines.apart head other elem listed listed'
      · exact absurd (refines.apart head head2 elem listed listed') notSecond
    · rcases origin' with listed' | ⟨rfl, listed'⟩
      · exact absurd (refines.apart other head2 elem listed' listed) notSecond'
      · rfl

/-- The concatenation acts as an append from now on: after any operations on the
joined lists, every head stands for its sequence. -/
def Appends (lists : ArrLists size Head) (sequences : Sequences size Head) (head1 head2 : Head) :
    Prop :=
  ∀ ops state, (arrLists size Head).Run
    (lists.concat head1 head2, sequences.concat head1 head2) ops state → Refines state

theorem Refines.run {state next : ArrLists size Head × Sequences size Head}
    {ops : List (ListOp size Head)} (refines : Refines state)
    (run : (arrLists size Head).Run state ops next) : Refines next := by
  induction run with
  | nil => exact refines
  | cons moved _ ih => exact ih (refines.step moved)

/-- `arr_list_concat` is an append, now and under all later operations, if and only
if the second list is not empty or the first is. -/
theorem concat_appends_iff (refines : Refines (lists, sequences)) (different : head1 ≠ head2) :
    Appends lists sequences head1 head2 ↔ (sequences head2 = [] → sequences head1 = []) := by
  constructor
  · intro appends nothing
    have joined := (appends [] _ (.nil _)).represents head1
    have isLast := joined.last
    dsimp only at isLast
    rw [lists.heads_concat different, if_neg different, if_pos rfl,
      Sequences.concat_first different, nothing, List.append_nil] at isLast
    have second : lists.Represents head2 (sequences head2) := refines.represents head2
    rw [second.last, nothing] at isLast
    exact ArrLists.lastId_eq_zero_iff.mp isLast.symm
  · intro adds ops state run
    exact (refines.concat different adds).run run

end Appending

/-! ## Two elements -/

private theorem two_fits : 2 < 2 ^ 32 := by decide

def pairSize : ArrSize := ⟨2, two_fits⟩

def firstElem : pairSize.Elem := ⟨0, Nat.zero_lt_two⟩

def secondElem : pairSize.Elem := ⟨1, Nat.one_lt_two⟩

/-- One element on the list `true`, and nothing on the list `false`. -/
def lonely : ArrLists pairSize Bool :=
  ArrLists.insertTail ⟨fun _ => ⟨0#32, 0#32⟩, fun _ => ⟨0#32, 0#32⟩⟩ true firstElem

def lonelySequences : Sequences pairSize Bool := Function.update (fun _ => []) true [firstElem]

theorem lonely_refines : Refines (lonely, lonelySequences) :=
  (Refines.initial fun _ => rfl).insertTail fun _ => List.not_mem_nil

theorem lonely_absent (head : Bool) : secondElem ∉ lonelySequences head := by
  cases head <;> decide

/-- Joined with the empty list, the list has no end: the element inserted at its
tail is not reached from the one before it. -/
theorem concat_loses_tail :
    Refines (lonely, lonelySequences) ∧ ¬Appends lonely lonelySequences true false ∧
      (((lonely.concat true false).insertTail true secondElem).heads true).first =
        elemToId firstElem ∧
      (((lonely.concat true false).insertTail true secondElem).field firstElem).next = 0#32 := by
  refine ⟨lonely_refines, ?_, by decide, by decide⟩
  intro appends
  have isLast := ((appends [] _ (.nil _)).represents true).last
  revert isLast
  decide

theorem concat_appends_iff_pair :
    Appends (lonely.insertTail false secondElem)
      (Function.update lonelySequences false [secondElem]) true false := by
  have refines : Refines (lonely.insertTail false secondElem,
      Function.update lonelySequences false [secondElem]) :=
    lonely_refines.insertTail lonely_absent
  refine (concat_appends_iff refines Bool.true_eq_false_eq_False).mpr ?_
  intro nothing
  cases nothing

end Ghost.Bpf
