import Mathlib.Tactic

/-!
# Notifications

`Notification` of `lib/base.h` and `lib/base.cc`: the accesses of `Notify` and of
`WaitForNotification` to the word, with the futex under them.
-/

set_option autoImplicit false

namespace Ghost.Agent

inductive NotifiedState where
  | noWaiter
  | waiter
  | notified
  deriving DecidableEq

/-! ## Notify -/

/-- Where a call of `Notify` stands. -/
inductive NotifyPc where
  | load
  /-- `CHECK(!HasBeenNotified())`, with the value loaded before. -/
  | check (v : NotifiedState)
  | compareExchange (v : NotifiedState)
  | wake
  | returned
  /-- The `CHECK` has failed. -/
  | failed
  deriving DecidableEq

/-- One access of `Notify`. The CAS may fail spuriously. -/
def notifyAccess (word : NotifiedState) (spurious : Bool) :
    NotifyPc → NotifiedState × NotifyPc
  | .load => (word, .check word)
  | .check v => (word, if word = .notified then .failed else .compareExchange v)
  | .compareExchange v =>
      if word = v ∧ spurious = false then
        (.notified, if v = .waiter then .wake else .returned)
      else (word, .load)
  | .wake => (word, .returned)
  | .returned => (word, .returned)
  | .failed => (word, .failed)

/-- The notification has not been made yet. -/
def NotifyPc.before : NotifyPc → Bool
  | .load | .check _ | .compareExchange _ => true
  | _ => false

theorem notifyAccess_spec {word : NotifiedState} (fresh : word ≠ .notified) (spurious : Bool)
    {pc : NotifyPc} (before : pc.before = true) :
    ((notifyAccess word spurious pc).1 = word ∧
        (notifyAccess word spurious pc).2.before = true) ∨
      (notifyAccess word spurious pc).1 = .notified ∧
        ((notifyAccess word spurious pc).2 = .wake ∨
          (notifyAccess word spurious pc).2 = .returned ∧ word = .noWaiter) := by
  cases pc with
  | load => exact .inl ⟨rfl, rfl⟩
  | check v =>
      left
      simp [notifyAccess, fresh, NotifyPc.before]
  | compareExchange v =>
      simp only [notifyAccess]
      split_ifs with swaps isWaiter
      · exact .inr ⟨rfl, .inl rfl⟩
      · obtain ⟨rfl, _⟩ := swaps
        refine .inr ⟨rfl, .inr ⟨rfl, ?_⟩⟩
        cases word with
        | noWaiter => rfl
        | waiter => exact absurd rfl isWaiter
        | notified => exact absurd rfl fresh
      · exact .inl ⟨rfl, rfl⟩
  | _ => cases before

/-! ## WaitForNotification -/

/-- Where a call of `WaitForNotification` stands. -/
inductive WaitPc where
  | load
  | compareExchange
  /-- The system call of `Futex::Wait`. -/
  | futex
  | asleep
  /-- The load after the system call has returned zero. -/
  | woken
  | returned
  deriving DecidableEq

/-- One access of `WaitForNotification`. A sleeper makes none. `futex` compares the word
and puts the thread to sleep in one step, or returns EAGAIN. -/
def waitAccess (word : NotifiedState) (spurious : Bool) :
    WaitPc → Option (NotifiedState × WaitPc)
  | .load =>
      some (word, if word = .notified then .returned
        else if word = .noWaiter then .compareExchange else .futex)
  | .compareExchange =>
      some (if word = .noWaiter ∧ spurious = false then .waiter else word, .load)
  | .futex => some (word, if word = .waiter then .asleep else .returned)
  | .asleep => none
  | .woken => some (word, if word = .waiter then .futex else .returned)
  | .returned => some (word, .returned)

/-- The waiter is in `Futex::Wait`. -/
def WaitPc.inFutex : WaitPc → Bool
  | .futex | .asleep | .woken => true
  | _ => false

structure WaitOutcome (word : NotifiedState) (outcome : NotifiedState × WaitPc) : Prop where
  notified : outcome.1 = .notified ↔ word = .notified
  returned : outcome.2 = .returned → word = .notified
  inFutex : outcome.2.inFutex = true → outcome.1 ≠ .noWaiter
  asleep : outcome.2 = .asleep → outcome.1 ≠ .notified

/-- In `Futex::Wait` the word is no longer `noWaiter`, so whatever ends the wait has
seen a notification. -/
theorem waitAccess_spec {word : NotifiedState} {spurious : Bool} {pc : WaitPc}
    {outcome : NotifiedState × WaitPc} (running : pc ≠ .returned)
    (armed : pc.inFutex = true → word ≠ .noWaiter)
    (accessed : waitAccess word spurious pc = some outcome) : WaitOutcome word outcome := by
  cases pc with
  | load =>
      cases accessed
      cases word <;> constructor <;> simp [WaitPc.inFutex]
  | compareExchange =>
      cases accessed
      cases word <;> cases spurious <;> constructor <;> simp [WaitPc.inFutex]
  | futex =>
      cases accessed
      have armed := armed rfl
      cases word <;> constructor <;> simp_all [WaitPc.inFutex]
  | asleep => cases accessed
  | woken =>
      cases accessed
      have armed := armed rfl
      cases word <;> constructor <;> simp_all [WaitPc.inFutex]
  | returned => exact absurd rfl running

end Ghost.Agent
