import Mathlib.Data.List.Nodup
import Mathlib.Tactic

/-!
# Doubly linked lists in a store of links

A store is read through two link functions. The judgment below says that a
sequence is spelled by both of them, with a null value at either end.
-/

set_option autoImplicit false

namespace Ghost.Lib

variable {α : Type}

/-- The sequence starts after `before`, its forward links end in `null`, and
each backward link names the preceding element. -/
def DLinked (null : α) (next prev : α → α) (before : α) : List α → Prop
  | [] => True
  | head :: rest =>
      head ≠ null ∧ prev head = before ∧ next head = rest.headD null ∧
        DLinked null next prev head rest

namespace DLinked

variable {null before : α} {next prev next' prev' : α → α} {items : List α}

@[simp] theorem nil : DLinked null next prev before [] := trivial

@[simp] theorem cons {head : α} {rest : List α} :
    DLinked null next prev before (head :: rest) ↔
      head ≠ null ∧ prev head = before ∧ next head = rest.headD null ∧
        DLinked null next prev head rest := Iff.rfl

theorem ne_null (linked : DLinked null next prev before items) :
    ∀ item ∈ items, item ≠ null := by
  induction items generalizing before with
  | nil => simp
  | cons head rest ih =>
      intro item member
      rcases List.mem_cons.mp member with rfl | member
      · exact linked.1
      · exact ih linked.2.2.2 item member

/-- Only the links of the listed elements matter. -/
theorem congr (linked : DLinked null next prev before items)
    (sameNext : ∀ item ∈ items, next' item = next item)
    (samePrev : ∀ item ∈ items, prev' item = prev item) :
    DLinked null next' prev' before items := by
  induction items generalizing before with
  | nil => trivial
  | cons head rest ih =>
      refine ⟨linked.1, ?_, ?_, ?_⟩
      · rw [samePrev head List.mem_cons_self]; exact linked.2.1
      · rw [sameNext head List.mem_cons_self]; exact linked.2.2.1
      · exact ih linked.2.2.2 (fun item member => sameNext item (List.mem_cons_of_mem _ member))
          (fun item member => samePrev item (List.mem_cons_of_mem _ member))

/-- The predecessor link of a listed element names the element before it. -/
theorem prev_eq {front back : List α} {item : α}
    (linked : DLinked null next prev before (front ++ item :: back)) :
    prev item = front.getLastD before := by
  induction front generalizing before with
  | nil => exact linked.2.1
  | cons head rest ih =>
      rw [ih linked.2.2.2]
      cases rest with
      | nil => rfl
      | cons second rest => simp [List.getLastD]

theorem next_eq {front back : List α} {item : α}
    (linked : DLinked null next prev before (front ++ item :: back)) :
    next item = back.headD null := by
  induction front generalizing before with
  | nil => exact linked.2.2.1
  | cons head rest ih => exact ih linked.2.2.2

/-- Linking a fresh element in front patches its own links and the backward
link of the old head. -/
theorem push {head : α} (linked : DLinked null next prev before items)
    (fresh : head ∉ items) (unique : items.Nodup) (present : head ≠ null)
    (headPrev : prev' head = before) (headNext : next' head = items.headD null)
    (sameNext : ∀ item ∈ items, next' item = next item)
    (patchedPrev : ∀ item ∈ items,
      (item = items.headD null → prev' item = head) ∧
        (item ≠ items.headD null → prev' item = prev item)) :
    DLinked null next' prev' before (head :: items) := by
  refine ⟨present, headPrev, headNext, ?_⟩
  cases items with
  | nil => trivial
  | cons second rest =>
      have notLater : second ∉ rest := (List.nodup_cons.mp unique).1
      refine ⟨linked.1, ?_, ?_, ?_⟩
      · exact (patchedPrev second List.mem_cons_self).1 rfl
      · rw [sameNext second List.mem_cons_self]; exact linked.2.2.1
      · refine linked.2.2.2.congr
          (fun item member => sameNext item (List.mem_cons_of_mem _ member)) ?_
        intro item member
        refine (patchedPrev item (List.mem_cons_of_mem _ member)).2 ?_
        rintro rfl
        exact notLater member

/-- Unlinking an element joins its two neighbours; both ends are covered, since
a missing neighbour is the null value and the null value is never listed. -/
theorem remove {front back : List α} {item : α}
    (linked : DLinked null next prev before (front ++ item :: back))
    (unique : (before :: (front ++ item :: back)).Nodup)
    (patchedNext : ∀ other ∈ front ++ back,
      (other = prev item → next' other = next item) ∧
        (other ≠ prev item → next' other = next other))
    (patchedPrev : ∀ other ∈ front ++ back,
      (other = next item → prev' other = prev item) ∧
        (other ≠ next item → prev' other = prev other)) :
    DLinked null next' prev' before (front ++ back) := by
  induction front generalizing before with
  | nil =>
      have itemPrev : prev item = before := linked.2.1
      have itemNext : next item = back.headD null := linked.2.2.1
      simp only [List.nil_append] at *
      cases back with
      | nil => trivial
      | cons second rest =>
          simp only [List.headD_cons, itemPrev] at itemNext patchedNext patchedPrev
          simp only [List.nodup_cons, List.mem_cons, not_or] at unique
          obtain ⟨⟨-, beforeSecond, beforeRest⟩, -, secondRest, -⟩ := unique
          have tail := linked.2.2.2
          refine ⟨tail.1, ?_, ?_, ?_⟩
          · exact (patchedPrev second List.mem_cons_self).1 itemNext.symm
          · rw [(patchedNext second List.mem_cons_self).2 (Ne.symm beforeSecond)]
            exact tail.2.2.1
          · refine tail.2.2.2.congr ?_ ?_
            · intro other member
              exact (patchedNext other (List.mem_cons_of_mem _ member)).2
                (fun same => beforeRest (same ▸ member))
            · intro other member
              refine (patchedPrev other (List.mem_cons_of_mem _ member)).2 ?_
              rw [itemNext]
              exact fun same => secondRest (same ▸ member)
  | cons head rest ih =>
      have itemPrev := prev_eq linked
      have itemNext := next_eq linked
      have inner := linked.2.2.2
      simp only [List.cons_append, List.nodup_cons, List.mem_cons, List.mem_append,
        not_or] at unique
      obtain ⟨-, ⟨headRest, headItem, headBack⟩, restUnique⟩ := unique
      have tail := ih inner
        (by simp only [List.nodup_cons, List.mem_append, List.mem_cons, not_or]
            exact ⟨⟨headRest, headItem, headBack⟩, restUnique⟩)
        (fun other member => patchedNext other (List.mem_cons_of_mem _ member))
        (fun other member => patchedPrev other (List.mem_cons_of_mem _ member))
      have headNotNext : head ≠ next item := by
        rw [itemNext]
        cases back with
        | nil => exact linked.1
        | cons second back => exact fun same => headBack (same ▸ List.mem_cons_self)
      refine ⟨linked.1, ?_, ?_, tail⟩
      · rw [(patchedPrev head List.mem_cons_self).2 headNotNext]; exact linked.2.1
      · cases rest with
        | nil =>
            rw [(patchedNext head List.mem_cons_self).1 (by simpa using itemPrev.symm), itemNext]
            rfl
        | cons second rest =>
            have headNotPrev : head ≠ prev item := by
              rw [itemPrev]
              intro same
              have member : (second :: rest).getLastD head ∈ second :: rest := by
                simp only [List.getLastD]
                exact List.getLast_mem _
              have collapsed : (head :: second :: rest).getLastD before =
                  (second :: rest).getLastD head := by simp [List.getLastD]
              rw [collapsed] at same
              exact headRest (same ▸ member)
            rw [(patchedNext head List.mem_cons_self).2 headNotPrev]
            exact linked.2.2.1

/-- Linking a fresh element between two parts patches its own links and those of
its neighbours, where the null value stands for a missing one. -/
theorem insert {front back : List α} {item : α}
    (linked : DLinked null next prev before (front ++ back))
    (unique : (before :: (front ++ back)).Nodup) (present : item ≠ null)
    (itemPrev : prev' item = front.getLastD before) (itemNext : next' item = back.headD null)
    (patchedNext : ∀ other ∈ front ++ back,
      (other = front.getLastD before → next' other = item) ∧
        (other ≠ front.getLastD before → next' other = next other))
    (patchedPrev : ∀ other ∈ front ++ back,
      (other = back.headD null → prev' other = item) ∧
        (other ≠ back.headD null → prev' other = prev other)) :
    DLinked null next' prev' before (front ++ item :: back) := by
  induction front generalizing before with
  | nil =>
      simp only [List.nil_append, List.nodup_cons] at *
      refine ⟨present, itemPrev, itemNext, ?_⟩
      cases back with
      | nil => trivial
      | cons second rest =>
          obtain ⟨beforeOut, backUnique⟩ := unique
          have secondRest : second ∉ rest := (List.nodup_cons.mp backUnique).1
          have sameNext : ∀ other ∈ second :: rest, next' other = next other := by
            intro other member
            refine (patchedNext other member).2 ?_
            rintro rfl
            exact beforeOut member
          refine ⟨linked.1, (patchedPrev second List.mem_cons_self).1 rfl, ?_, ?_⟩
          · rw [sameNext second List.mem_cons_self]
            exact linked.2.2.1
          · refine linked.2.2.2.congr
              (fun other member => sameNext other (List.mem_cons_of_mem _ member)) ?_
            intro other member
            refine (patchedPrev other (List.mem_cons_of_mem _ member)).2 ?_
            intro same
            have isSecond : other = second := same
            exact secondRest (isSecond ▸ member)
  | cons head rest ih =>
      have collapsed : (head :: rest).getLastD before = rest.getLastD head := by
        cases rest <;> simp [List.getLastD]
      have inner := linked.2.2.2
      simp only [List.cons_append, List.nodup_cons, List.mem_cons, List.mem_append,
        not_or] at unique
      obtain ⟨-, ⟨headRest, headBack⟩, restUnique⟩ := unique
      rw [collapsed] at itemPrev
      simp only [collapsed] at patchedNext
      have tail := ih inner
        (by simp only [List.nodup_cons, List.mem_append, not_or]
            exact ⟨⟨headRest, headBack⟩, restUnique⟩)
        itemPrev
        (fun other member => patchedNext other (List.mem_cons_of_mem _ member))
        (fun other member => patchedPrev other (List.mem_cons_of_mem _ member))
      have headNotNext : head ≠ back.headD null := by
        cases back with
        | nil => exact linked.1
        | cons second back => exact fun same => headBack (same ▸ List.mem_cons_self)
      refine ⟨linked.1, ?_, ?_, tail⟩
      · rw [(patchedPrev head List.mem_cons_self).2 headNotNext]
        exact linked.2.1
      · cases rest with
        | nil => exact (patchedNext head List.mem_cons_self).1 rfl
        | cons second rest =>
            have headNotLast : head ≠ (second :: rest).getLastD head := by
              intro same
              have member : (second :: rest).getLastD head ∈ second :: rest := by
                simp only [List.getLastD]
                exact List.getLast_mem _
              exact headRest (same ▸ member)
            rw [(patchedNext head List.mem_cons_self).2 headNotLast]
            exact linked.2.2.1

/-- Two lists are joined by the forward link of the last element of the one and
the backward link of the first of the other. -/
theorem append {front back : List α} {behind : α}
    (frontLinked : DLinked null next prev before front)
    (backLinked : DLinked null next prev behind back) (unique : (front ++ back).Nodup)
    (patchedNext : ∀ item ∈ front ++ back,
      (item = front.getLastD null → next' item = back.headD null) ∧
        (item ≠ front.getLastD null → next' item = next item))
    (patchedPrev : ∀ item ∈ front ++ back,
      (item = back.headD null → prev' item = front.getLastD before) ∧
        (item ≠ back.headD null → prev' item = prev item)) :
    DLinked null next' prev' before (front ++ back) := by
  induction front generalizing before with
  | nil =>
      have sameNext : ∀ item ∈ back, next' item = next item := fun item member =>
        (patchedNext item member).2 (backLinked.ne_null item member)
      cases back with
      | nil => trivial
      | cons second rest =>
          have notLater : second ∉ rest := (List.nodup_cons.mp unique).1
          refine ⟨backLinked.1, (patchedPrev second List.mem_cons_self).1 rfl, ?_, ?_⟩
          · exact (sameNext second List.mem_cons_self).trans backLinked.2.2.1
          · refine backLinked.2.2.2.congr
              (fun item member => sameNext item (List.mem_cons_of_mem _ member)) ?_
            intro item member
            refine (patchedPrev item (List.mem_cons_of_mem _ member)).2 ?_
            rintro rfl
            exact notLater member
  | cons head rest ih =>
      have outside : head ∉ rest ++ back := (List.nodup_cons.mp unique).1
      refine ⟨frontLinked.1, ?_, ?_, ?_⟩
      · rw [(patchedPrev head List.mem_cons_self).2, frontLinked.2.1]
        cases back with
        | nil => exact frontLinked.1
        | cons second tail =>
            rintro rfl
            exact outside (List.mem_append_right _ List.mem_cons_self)
      · cases rest with
        | nil => exact (patchedNext head List.mem_cons_self).1 rfl
        | cons second tail =>
            rw [(patchedNext head List.mem_cons_self).2, frontLinked.2.2.1]
            · rfl
            · intro isLast
              have member := List.getLast_mem (List.cons_ne_nil second tail)
              rw [List.getLast_eq_getLastD] at member
              rw [List.getLastD_cons, List.getLastD_cons] at isLast
              exact outside (List.mem_append_left _ (isLast ▸ member))
      · refine ih frontLinked.2.2.2 (List.nodup_cons.mp unique).2 ?_ ?_
        · intro item member
          have different : item ≠ head := by
            rintro rfl
            exact outside member
          have patched := patchedNext item (List.mem_cons_of_mem _ member)
          cases rest with
          | nil => exact ⟨fun isNull => absurd isNull (backLinked.ne_null item member),
              fun _ => patched.2 different⟩
          | cons second tail => simpa using patched
        · intro item member
          have patched := patchedPrev item (List.mem_cons_of_mem _ member)
          rwa [List.getLastD_cons] at patched

end DLinked

end Ghost.Lib
