import Ghost.Bpf.PntRing

/-!
# Which transaction is in a slot

How far the transactions are, each named by its index, which party may move them on, and
how the slots show the last 64 of them.
-/

set_option autoImplicit false

namespace Ghost.Bpf.Pnt

open Lib Txn

/-- The parties that use a ring. -/
inductive Party (Producer : Type) where
  | producer (producer : Producer)
  | consumer (cpu : Cpu)
  | agent

/-- How far a transaction is. -/
inductive Status (Producer : Type) where
  /-- Its index has not been taken. -/
  | unborn
  /-- Its producer has stored this many fields of the slot. -/
  | filling (producer : Producer) (stored : Nat)
  /-- A CPU may have taken its index. -/
  | ready (taker : Option Cpu)
  | aborted (taker : Option Cpu)
  | claimed (cpu : Cpu)
  | ran (cpu : Cpu) (result : RunResult)
  | finished (result : RunResult)
  | reaped

namespace Status

variable {Producer : Type}

/-- What `txn_state` of its slot says. -/
def word : Status Producer → Int
  | .unborn => Pnt.reaped
  | .filling _ _ => Pnt.reaped
  | .ready _ => State.ready
  | .aborted _ => State.aborted
  | .claimed cpu => cpu.val
  | .ran cpu _ => cpu.val
  | .finished result => result.txnState
  | .reaped => Pnt.reaped

/-- How many of the fields that the kernel reads are in the slot. -/
def stored : Status Producer → Nat
  | .unborn => 0
  | .filling _ stored => stored
  | .reaped => 0
  | _ => 2

/-- The slot has the task, and is not free. -/
def filled : Status Producer → Bool
  | .unborn => false
  | .filling _ _ => false
  | .reaped => false
  | _ => true

/-- A consumer may take its index. -/
def Waiting (status : Status Producer) : Prop :=
  status = .ready none ∨ status = .aborted none

/-- What a party may make of a transaction. -/
inductive Next : Party Producer → Status Producer → Status Producer → Prop where
  | stay {party : Party Producer} (status : Status Producer) : Next party status status
  | produce (producer : Producer) : Next (.producer producer) .unborn (.filling producer 0)
  | fill (producer : Producer) (stored : Nat) :
      Next (.producer producer) (.filling producer stored) (.filling producer (stored + 1))
  | publish (producer : Producer) (stored : Nat) :
      Next (.producer producer) (.filling producer stored) (.ready none)
  | take (cpu : Cpu) : Next (.consumer cpu) (.ready none) (.ready (some cpu))
  | takeAborted (cpu : Cpu) : Next (.consumer cpu) (.aborted none) (.aborted (some cpu))
  | claim (cpu : Cpu) : Next (.consumer cpu) (.ready (some cpu)) (.claimed cpu)
  | reapAborted (cpu : Cpu) : Next (.consumer cpu) (.aborted (some cpu)) .reaped
  | run (cpu : Cpu) (result : RunResult) :
      Next (.consumer cpu) (.claimed cpu) (.ran cpu result)
  | finish (cpu : Cpu) (result : RunResult) :
      Next (.consumer cpu) (.ran cpu result) (.finished result)
  | abort (taker : Option Cpu) : Next .agent (.ready taker) (.aborted taker)
  | reap (result : RunResult) : Next .agent (.finished result) .reaped

end Status

/-! ## Words -/

private theorem RunResult.txnState_neg (result : RunResult) : result.txnState < 0 := by
  cases result <;> decide

private theorem RunResult.txnState_ne_aborted (result : RunResult) :
    result.txnState ≠ State.aborted := by
  cases result <;> decide

private theorem RunResult.txnState_eq_complete {result : RunResult} :
    result.txnState = State.complete ↔ result = .ok := by
  cases result <;> decide

private theorem cpu_lt_reaped (cpu : Cpu) : (cpu.val : Int) < Pnt.reaped := by
  have bound := cpu.isLt
  simp only [Pnt.reaped, State.ready]
  omega

namespace Status

section Words

variable {Producer : Type} {status : Status Producer}

theorem word_eq_ready : status.word = State.ready ↔ ∃ taker, status = .ready taker := by
  have positive : 0 < State.ready := by decide
  cases status with
  | ready taker => simp [word]
  | claimed cpu | ran cpu _ =>
      have below := cpu_lt_reaped cpu
      simp only [Pnt.reaped] at below
      simp only [word, reduceCtorEq, exists_false, iff_false]
      omega
  | finished result =>
      have negative := result.txnState_neg
      simp only [word, reduceCtorEq, exists_false, iff_false]
      omega
  | _ => simp only [word, reduceCtorEq, exists_false, iff_false]; decide

theorem word_eq_aborted : status.word = State.aborted ↔ ∃ taker, status = .aborted taker := by
  have negative : State.aborted < 0 := by decide
  cases status with
  | aborted taker => simp [word]
  | claimed cpu | ran cpu _ =>
      simp only [word, reduceCtorEq, exists_false, iff_false]
      omega
  | finished result => simp [word, result.txnState_ne_aborted]
  | _ => simp only [word, reduceCtorEq, exists_false, iff_false]; decide

private theorem word_eq_reaped : status.word = Pnt.reaped ↔ status.filled = false := by
  have positive : 0 < Pnt.reaped := by decide
  cases status with
  | claimed cpu | ran cpu _ =>
      have below := cpu_lt_reaped cpu
      simp only [word, filled, Bool.true_eq_false, iff_false]
      omega
  | finished result =>
      have negative := result.txnState_neg
      simp only [word, filled, Bool.true_eq_false, iff_false]
      omega
  | ready _ => simp only [word, filled]; decide
  | aborted _ => simp only [word, filled]; decide
  | _ => simp [word, filled]

theorem word_eq_complete : status.word = State.complete ↔ status = .finished .ok := by
  have negative : State.complete < 0 := by decide
  cases status with
  | claimed cpu | ran cpu _ =>
      simp only [word, reduceCtorEq, iff_false]
      omega
  | finished result => simp [word, RunResult.txnState_eq_complete]
  | _ => simp only [word, reduceCtorEq, iff_false]; decide

theorem word_neg : status.word < 0 ↔
    (∃ taker, status = .aborted taker) ∨ ∃ result, status = .finished result := by
  cases status with
  | claimed cpu | ran cpu _ => simp [word]
  | finished result => simpa [word] using result.txnState_neg
  | aborted taker => simp only [word, aborted.injEq, exists_eq', true_or, iff_true]; decide
  | _ => simp only [word, reduceCtorEq, exists_false, or_false, iff_false]; decide

end Words

private theorem stored_of_filled {Producer : Type} {status : Status Producer}
    (filled : status.filled = true) : status.stored = 2 := by
  cases status <;> first | rfl | cases filled

/-! ## Moves of the other parties -/

section Next

variable {Producer : Type} {party : Party Producer} {status next : Status Producer}

theorem Next.of_filling {producer : Producer} {stored : Nat}
    (moved : Next party (.filling producer stored) next) (other : party ≠ .producer producer) :
    next = .filling producer stored := by
  cases moved <;> first | rfl | exact absurd rfl other

theorem Next.of_claimed {cpu : Cpu} (moved : Next party (.claimed cpu) next)
    (other : party ≠ .consumer cpu) : next = .claimed cpu := by
  cases moved <;> first | rfl | exact absurd rfl other

theorem Next.of_ran {cpu : Cpu} {result : RunResult} (moved : Next party (.ran cpu result) next)
    (other : party ≠ .consumer cpu) : next = .ran cpu result := by
  cases moved <;> first | rfl | exact absurd rfl other

theorem Next.of_aborted {cpu : Cpu} (moved : Next party (.aborted (some cpu)) next)
    (other : party ≠ .consumer cpu) : next = .aborted (some cpu) := by
  cases moved <;> first | rfl | exact absurd rfl other

theorem Next.of_taken {cpu : Cpu} (moved : Next party (.ready (some cpu)) next)
    (other : party ≠ .consumer cpu) :
    next = .ready (some cpu) ∨ next = .aborted (some cpu) := by
  cases moved with
  | stay => exact .inl rfl
  | claim => exact absurd rfl other
  | abort => exact .inr rfl

theorem Next.of_finished {result : RunResult} (moved : Next party (.finished result) next)
    (other : party ≠ .agent) : next = .finished result := by
  cases moved <;> first | rfl | exact absurd rfl other

theorem Next.of_reaped (moved : Next party .reaped next) : next = .reaped := by
  cases moved
  rfl

end Next

end Status

/-! ## The slots of the last transactions -/

private theorem slotOf_inj {idx other : Nat} (same : slotOf idx = slotOf other) :
    idx % 64 = other % 64 := by
  simpa [slotOf, Fin.ext_iff] using same

private theorem slotOf_add (idx : Nat) : slotOf (idx + 64) = slotOf idx := by
  simp [slotOf, Fin.ext_iff]

private theorem slotOf_ne {prodIdx idx other : Nat} (lower : idx < prodIdx)
    (upper : prodIdx ≤ idx + 64)
    (lower' : other < prodIdx) (upper' : prodIdx ≤ other + 64) (ne : other ≠ idx) :
    slotOf other ≠ slotOf idx := by
  intro same
  have congruent := slotOf_inj same
  omega

structure Layout {Producer : Type} (shared : Shared) (status : Nat → Status Producer) : Prop where
  cons_le : shared.consIdx ≤ shared.prodIdx
  prod_le : shared.prodIdx ≤ shared.consIdx + 64
  length : shared.txns.length = shared.prodIdx
  unborn : ∀ idx, status idx = .unborn ↔ shared.prodIdx ≤ idx
  /-- A slot is used again only for a transaction that has been reaped. -/
  old : ∀ idx, idx + 64 < shared.prodIdx → status idx = .reaped
  fresh : ∀ idx, shared.prodIdx ≤ idx → idx < 64 → (shared.slot idx).txnState = Pnt.reaped
  word : ∀ idx, idx < shared.prodIdx → shared.prodIdx ≤ idx + 64 →
    (shared.slot idx).txnState = (status idx).word
  gtid : ∀ idx task, shared.txns[idx]? = some task → 1 ≤ (status idx).stored →
    (shared.slot idx).gtid = task.gtid
  taskBarrier : ∀ idx task, shared.txns[idx]? = some task → 2 ≤ (status idx).stored →
    (shared.slot idx).taskBarrier = task.taskBarrier
  consumed : ∀ idx, idx < shared.consIdx → ∀ producer stored, status idx ≠ .filling producer stored
  unconsumed : ∀ idx, shared.consIdx ≤ idx →
    status idx = .unborn ∨ (∃ producer stored, status idx = .filling producer stored) ∨
      (status idx).Waiting

namespace Layout

variable {Producer : Type} {shared shared' : Shared} {status : Nat → Status Producer} {idx : Nat}

section Reading

variable (layout : Layout shared status)
include layout

/-- A transaction that is neither unborn nor reaped is one of the last 64. -/
theorem current (born : status idx ≠ .unborn) (live : status idx ≠ .reaped) :
    idx < shared.prodIdx ∧ shared.prodIdx ≤ idx + 64 := by
  constructor
  · by_contra later
    exact born ((layout.unborn idx).mpr (by omega))
  · by_contra earlier
    exact live (layout.old idx (by omega))

theorem current_of_filling {producer : Producer} {stored : Nat}
    (was : status idx = .filling producer stored) :
    idx < shared.prodIdx ∧ shared.prodIdx ≤ idx + 64 := by
  apply layout.current
  · rw [was]
    exact nofun
  · rw [was]
    exact nofun

private theorem current_of_stored (some : 1 ≤ (status idx).stored) :
    idx < shared.prodIdx ∧ shared.prodIdx ≤ idx + 64 := by
  apply layout.current
  · intro unborn
    rw [unborn] at some
    cases some
  · intro isReaped
    rw [isReaped] at some
    cases some

theorem current_of_filled (filled : (status idx).filled = true) :
    idx < shared.prodIdx ∧ shared.prodIdx ≤ idx + 64 := by
  apply layout.current_of_stored
  rw [Status.stored_of_filled filled]
  exact Nat.le_succ 1

theorem word_of_filled (filled : (status idx).filled = true) :
    (shared.slot idx).txnState = (status idx).word := by
  obtain ⟨lower, upper⟩ := layout.current_of_filled filled
  exact layout.word idx lower upper

theorem waiting_of_filled (filled : (status idx).filled = true) (later : shared.consIdx ≤ idx) :
    (status idx).Waiting := by
  obtain unborn | ⟨producer, stored, filling⟩ | waiting := layout.unconsumed idx later
  · rw [unborn] at filled
    cases filled
  · rw [filling] at filled
    cases filled
  · exact waiting

/-- The slot that the next producer takes is free when its last transaction is reaped. -/
theorem next_free (earlier : 64 ≤ shared.prodIdx → status (shared.prodIdx - 64) = .reaped) :
    (shared.slot shared.prodIdx).txnState = Pnt.reaped := by
  by_cases first : shared.prodIdx < 64
  · exact layout.fresh _ (Nat.le_refl _) first
  · have shown := layout.word (shared.prodIdx - 64) (by omega) (by omega)
    rw [earlier (by omega)] at shown
    have same : slotOf (shared.prodIdx - 64) = slotOf shared.prodIdx := by
      rw [← slotOf_add, Nat.sub_add_cancel (by omega)]
    rwa [Shared.slot, same] at shown

/-- Read the other way: with room in the ring, a free slot says that its last transaction has
been reaped. -/
theorem reaped_of_free (room : shared.prodIdx < shared.consIdx + 64)
    (free : (shared.slot shared.prodIdx).txnState = Pnt.reaped) (later : 64 ≤ shared.prodIdx) :
    status (shared.prodIdx - 64) = .reaped := by
  have same : slotOf (shared.prodIdx - 64) = slotOf shared.prodIdx := by
    rw [← slotOf_add, Nat.sub_add_cancel later]
  have shown := layout.word (shared.prodIdx - 64) (by omega) (by omega)
  rw [Shared.slot, same, ← Shared.slot, free] at shown
  have vacant := Status.word_eq_reaped.mp shown.symm
  cases was : status (shared.prodIdx - 64) with
  | unborn =>
      have born := (layout.unborn _).mp was
      omega
  | filling producer stored => exact absurd was (layout.consumed _ (by omega) producer stored)
  | reaped => rfl
  | _ =>
      rw [was] at vacant
      cases vacant

end Reading

/-! ### One transaction moves on -/

private theorem slot_of_update {slot : Slot} {other : Nat}
    (slots : shared'.slots = Function.update shared.slots (slotOf idx) slot)
    (ne : slotOf other ≠ slotOf idx) : shared'.slot other = shared.slot other := by
  rw [Shared.slot, slots, Function.update_of_ne ne, Shared.slot]

private theorem slot_of_update_self {slot : Slot}
    (slots : shared'.slots = Function.update shared.slots (slotOf idx) slot) :
    shared'.slot idx = slot := by
  rw [Shared.slot, slots, Function.update_self]

private theorem update {new : Status Producer} {slot : Slot} (layout : Layout shared status)
    (lower : idx < shared.prodIdx) (upper : shared.prodIdx ≤ idx + 64)
    (slots : shared'.slots = Function.update shared.slots (slotOf idx) slot)
    (prodIdx : shared'.prodIdx = shared.prodIdx) (consIdx : shared'.consIdx = shared.consIdx)
    (txns : shared'.txns = shared.txns) (word : slot.txnState = new.word) (born : new ≠ .unborn)
    (gtid : ∀ task, shared.txns[idx]? = some task → 1 ≤ new.stored → slot.gtid = task.gtid)
    (taskBarrier : ∀ task, shared.txns[idx]? = some task → 2 ≤ new.stored →
      slot.taskBarrier = task.taskBarrier)
    (consumed : idx < shared.consIdx → ∀ producer stored, new ≠ .filling producer stored)
    (unconsumed : shared.consIdx ≤ idx →
      (∃ producer stored, new = .filling producer stored) ∨ new.Waiting) :
    Layout shared' (Function.update status idx new) := by
  have self : shared'.slot idx = slot := slot_of_update_self slots
  have kept : ∀ other, other ≠ idx → other < shared.prodIdx → shared.prodIdx ≤ other + 64 →
      shared'.slot other = shared.slot other := by
    intro other ne lower' upper'
    exact slot_of_update slots (slotOf_ne lower upper lower' upper' ne)
  have fields : ∀ other, other ≠ idx → 1 ≤ (status other).stored →
      shared'.slot other = shared.slot other := by
    intro other ne some
    have bounds := layout.current_of_stored some
    exact kept other ne bounds.1 bounds.2
  constructor
  · rw [prodIdx, consIdx]
    exact layout.cons_le
  · rw [prodIdx, consIdx]
    exact layout.prod_le
  · rw [prodIdx, txns]
    exact layout.length
  · intro other
    rw [prodIdx]
    by_cases same : other = idx
    · subst same
      rw [Function.update_self]
      constructor
      · intro unborn
        exact absurd unborn born
      · intro later
        omega
    · rw [Function.update_of_ne same]
      exact layout.unborn other
  · intro other earlier
    rw [prodIdx] at earlier
    rw [Function.update_of_ne (by omega)]
    exact layout.old other earlier
  · intro other later small
    rw [prodIdx] at later
    have apart : slotOf other ≠ slotOf idx := by
      intro same
      have congruent := slotOf_inj same
      omega
    rw [slot_of_update slots apart]
    exact layout.fresh other later small
  · intro other lower' upper'
    rw [prodIdx] at lower' upper'
    by_cases same : other = idx
    · subst same
      rw [Function.update_self, self, word]
    · rw [Function.update_of_ne same, kept other same lower' upper']
      exact layout.word other lower' upper'
  · intro other task found some
    rw [txns] at found
    by_cases same : other = idx
    · subst same
      rw [Function.update_self] at some
      rw [self]
      exact gtid task found some
    · rw [Function.update_of_ne same] at some
      rw [fields other same some]
      exact layout.gtid other task found some
  · intro other task found both
    rw [txns] at found
    by_cases same : other = idx
    · subst same
      rw [Function.update_self] at both
      rw [self]
      exact taskBarrier task found both
    · rw [Function.update_of_ne same] at both
      rw [fields other same (by omega)]
      exact layout.taskBarrier other task found both
  · intro other earlier
    rw [consIdx] at earlier
    by_cases same : other = idx
    · subst same
      rw [Function.update_self]
      exact consumed earlier
    · rw [Function.update_of_ne same]
      exact layout.consumed other earlier
  · intro other later
    rw [consIdx] at later
    by_cases same : other = idx
    · subst same
      rw [Function.update_self]
      exact .inr (unconsumed later)
    · rw [Function.update_of_ne same]
      exact layout.unconsumed other later

/-- A transaction that is filled in moves on, with its task still in the slot. -/
theorem move {old new : Status Producer} {slot : Slot} (layout : Layout shared status)
    (was : status idx = old) (filled : old.filled = true)
    (slots : shared'.slots = Function.update shared.slots (slotOf idx) slot)
    (prodIdx : shared'.prodIdx = shared.prodIdx) (consIdx : shared'.consIdx = shared.consIdx)
    (txns : shared'.txns = shared.txns) (word : slot.txnState = new.word)
    (gtid : slot.gtid = (shared.slot idx).gtid)
    (taskBarrier : slot.taskBarrier = (shared.slot idx).taskBarrier)
    (later : new.filled = true ∨ new = .reaped) (waits : old.Waiting → new.Waiting) :
    Layout shared' (Function.update status idx new) := by
  subst was
  obtain ⟨lower, upper⟩ := layout.current_of_filled filled
  have full : (status idx).stored = 2 := Status.stored_of_filled filled
  apply layout.update lower upper slots prodIdx consIdx txns word
  · intro unborn
    rw [unborn] at later
    simp [Status.filled] at later
  · intro task found _
    rw [gtid]
    exact layout.gtid idx task found (by omega)
  · intro task found _
    rw [taskBarrier]
    exact layout.taskBarrier idx task found (by omega)
  · intro _ producer stored filling
    rw [filling] at later
    simp [Status.filled] at later
  · intro behind
    exact .inr (waits (layout.waiting_of_filled filled behind))

theorem fill {new : Status Producer} {slot : Slot} {producer : Producer} {stored : Nat}
    (layout : Layout shared status) (was : status idx = .filling producer stored)
    (slots : shared'.slots = Function.update shared.slots (slotOf idx) slot)
    (prodIdx : shared'.prodIdx = shared.prodIdx) (consIdx : shared'.consIdx = shared.consIdx)
    (txns : shared'.txns = shared.txns) (word : slot.txnState = new.word)
    (gtid : ∀ task, shared.txns[idx]? = some task → 1 ≤ new.stored → slot.gtid = task.gtid)
    (taskBarrier : ∀ task, shared.txns[idx]? = some task → 2 ≤ new.stored →
      slot.taskBarrier = task.taskBarrier)
    (later : (∃ producer stored, new = .filling producer stored) ∨ new.Waiting) :
    Layout shared' (Function.update status idx new) := by
  have bounds := layout.current_of_filling was
  apply layout.update bounds.1 bounds.2 slots prodIdx consIdx txns word
  · intro unborn
    rw [unborn] at later
    simp [Status.Waiting] at later
  · exact gtid
  · exact taskBarrier
  · intro before
    exact absurd was (layout.consumed idx before producer stored)
  · intro _
    exact later

/-! ### The indexes move on -/

theorem produce {producer : Producer} {task : Task} (layout : Layout shared status)
    (room : shared.prodIdx < shared.consIdx + 64)
    (earlier : 64 ≤ shared.prodIdx → status (shared.prodIdx - 64) = .reaped) :
    Layout { shared with prodIdx := shared.prodIdx + 1, txns := shared.txns ++ [task] }
      (Function.update status shared.prodIdx (.filling producer 0)) := by
  have free := layout.next_free earlier
  have length := layout.length
  have known : ∀ other found, (shared.txns ++ [task])[other]? = some found →
      1 ≤ (Function.update status shared.prodIdx (.filling producer 0) other).stored →
      other ≠ shared.prodIdx ∧ shared.txns[other]? = some found := by
    intro other found got some
    have ne : other ≠ shared.prodIdx := by
      intro same
      rw [same, Function.update_self] at some
      cases some
    have bound := (List.getElem?_eq_some_iff.mp got).1
    rw [List.length_append, List.length_singleton] at bound
    rw [List.getElem?_append_left (by omega)] at got
    exact ⟨ne, got⟩
  constructor
  · exact Nat.le_succ_of_le layout.cons_le
  · exact room
  · rw [List.length_append, List.length_singleton, length]
  · intro other
    change _ ↔ shared.prodIdx + 1 ≤ other
    by_cases same : other = shared.prodIdx
    · rw [same, Function.update_self]
      simp
    · rw [Function.update_of_ne same, layout.unborn other]
      omega
  · intro other before
    change other + 64 < shared.prodIdx + 1 at before
    rw [Function.update_of_ne (by omega)]
    by_cases last : other + 64 = shared.prodIdx
    · have reapedLast := earlier (by omega)
      rwa [← last, Nat.add_sub_cancel] at reapedLast
    · exact layout.old other (by omega)
  · intro other later small
    change shared.prodIdx + 1 ≤ other at later
    exact layout.fresh other (by omega) small
  · intro other lower upper
    change other < shared.prodIdx + 1 at lower
    change shared.prodIdx + 1 ≤ other + 64 at upper
    by_cases same : other = shared.prodIdx
    · rw [same, Function.update_self]
      exact free
    · rw [Function.update_of_ne same]
      exact layout.word other (by omega) (by omega)
  · intro other found got some
    obtain ⟨ne, before⟩ := known other found got some
    rw [Function.update_of_ne ne] at some
    exact layout.gtid other found before some
  · intro other found got both
    obtain ⟨ne, before⟩ := known other found got (by omega)
    rw [Function.update_of_ne ne] at both
    exact layout.taskBarrier other found before both
  · intro other before
    have bound := layout.cons_le
    change other < shared.consIdx at before
    rw [Function.update_of_ne (by omega)]
    exact layout.consumed other before
  · intro other later
    by_cases same : other = shared.prodIdx
    · rw [same, Function.update_self]
      exact .inr (.inl ⟨producer, 0, rfl⟩)
    · rw [Function.update_of_ne same]
      exact layout.unconsumed other later

/-- A consumer takes the next index, whose slot says what it said. -/
theorem consume {new : Status Producer} (layout : Layout shared status)
    (born : shared.consIdx < shared.prodIdx) (word : new.word = (status shared.consIdx).word)
    (filled : (status shared.consIdx).filled = true) (taken : new.filled = true) :
    Layout { shared with consIdx := shared.consIdx + 1 }
      (Function.update status shared.consIdx new) := by
  have bound := layout.prod_le
  have full : new.stored = (status shared.consIdx).stored := by
    rw [Status.stored_of_filled taken, Status.stored_of_filled filled]
  have stored : ∀ other, (Function.update status shared.consIdx new other).stored =
      (status other).stored := by
    intro other
    by_cases same : other = shared.consIdx
    · rw [same, Function.update_self, full]
    · rw [Function.update_of_ne same]
  constructor
  · exact born
  · change shared.prodIdx ≤ shared.consIdx + 1 + 64
    omega
  · exact layout.length
  · intro other
    by_cases same : other = shared.consIdx
    · rw [same, Function.update_self]
      constructor
      · intro unborn
        rw [unborn] at taken
        cases taken
      · intro later
        change shared.prodIdx ≤ shared.consIdx at later
        omega
    · rw [Function.update_of_ne same]
      exact layout.unborn other
  · intro other before
    change other + 64 < shared.prodIdx at before
    rw [Function.update_of_ne (by omega)]
    exact layout.old other before
  · exact layout.fresh
  · intro other lower upper
    have before := layout.word other lower upper
    by_cases same : other = shared.consIdx
    · rw [same] at before ⊢
      rw [Function.update_self, word]
      exact before
    · rw [Function.update_of_ne same]
      exact before
  · intro other task found some
    rw [stored] at some
    exact layout.gtid other task found some
  · intro other task found both
    rw [stored] at both
    exact layout.taskBarrier other task found both
  · intro other before producer stored filling
    by_cases same : other = shared.consIdx
    · rw [same, Function.update_self] at filling
      rw [filling] at taken
      cases taken
    · rw [Function.update_of_ne same] at filling
      change other < shared.consIdx + 1 at before
      exact layout.consumed other (by omega) producer stored filling
  · intro other later
    change shared.consIdx + 1 ≤ other at later
    rw [Function.update_of_ne (by omega)]
    exact layout.unconsumed other (by omega)

end Layout

end Ghost.Bpf.Pnt
