import Ghost.Lib.Machine

/-!
# Waiting for agent_online

`LocalEnclave::WaitForAgentOnlineValue`: an edge-triggered epoll on the enclave file
`agent_online`, which the call reads once. The file may change at any time.
-/

set_option autoImplicit false

namespace Ghost.Agent

open Lib

inductive WatchPc where
  /-- Before the `epoll_ctl`. -/
  | open
  | firstWait
  | read
  | secondWait
  | returned
  deriving DecidableEq

/-- A call, and whether its epoll has an event that `epoll_wait` has yet to report. -/
structure Watch where
  pc : WatchPc
  event : Bool
  deriving DecidableEq

/-- One access of the call. It has none while `epoll_wait` sleeps. A signal only makes
`epoll_wait` start again. The first `epoll_wait` returns even if the file does not
change. -/
def Watch.access (wanted online : Bool) (watch : Watch) : Option Watch :=
  match watch.pc with
  | .open => some ⟨.firstWait, true⟩
  | .firstWait => if watch.event then some ⟨.read, false⟩ else none
  | .read => some ⟨if online = wanted then .returned else .secondWait, watch.event⟩
  | .secondWait => if watch.event then some ⟨.returned, false⟩ else none
  | .returned => none

/-- What an access does, by where the call stands. -/
theorem Watch.access_cases {wanted online : Bool} {watch after : Watch}
    (accessed : watch.access wanted online = some after) :
    (watch.pc = .open ∧ after = ⟨.firstWait, true⟩) ∨
      (watch.pc = .firstWait ∧ watch.event = true ∧ after = ⟨.read, false⟩) ∨
      (watch.pc = .read ∧ online = wanted ∧ after = ⟨.returned, watch.event⟩) ∨
      (watch.pc = .read ∧ online ≠ wanted ∧ after = ⟨.secondWait, watch.event⟩) ∨
      watch.pc = .secondWait ∧ watch.event = true ∧ after = ⟨.returned, false⟩ := by
  obtain ⟨pc, event⟩ := watch
  cases pc with
  | «open» =>
      cases accessed
      exact .inl ⟨rfl, rfl⟩
  | firstWait =>
      obtain ⟨hasEvent, same⟩ := Option.ite_none_right_eq_some.mp accessed
      cases same
      exact .inr (.inl ⟨rfl, hasEvent, rfl⟩)
  | read =>
      cases accessed
      by_cases same : online = wanted
      · exact .inr (.inr (.inl ⟨rfl, same, by rw [if_pos same]⟩))
      · exact .inr (.inr (.inr (.inl ⟨rfl, same, by rw [if_neg same]⟩)))
  | secondWait =>
      obtain ⟨hasEvent, same⟩ := Option.ite_none_right_eq_some.mp accessed
      cases same
      exact .inr (.inr (.inr (.inr ⟨rfl, hasEvent, rfl⟩)))
  | returned => cases accessed

/-- The file has changed. -/
def Watch.changed (watch : Watch) : Watch := { watch with event := true }

namespace AgentOnline

structure State where
  online : Bool
  watch : Watch
  deriving DecidableEq

inductive Action where
  | access
  | change
  deriving DecidableEq

def perform (wanted : Bool) (state : State) : Action → Option State
  | .access => (state.watch.access wanted state.online).map fun watch => ⟨state.online, watch⟩
  | .change => some ⟨!state.online, state.watch.changed⟩

/-- One call, and a file that others change. -/
def machine (wanted : Bool) : Machine State Action where
  initial state := state.watch = ⟨.open, false⟩
  step state action next := perform wanted state action = some next

variable {wanted : Bool} {state next last : State} {actions : List Action} {action : Action}

/-- The call has not seen the value that it waits for, and nothing tells it to go on. -/
def State.Unseen (state : State) : Prop :=
  state.watch.pc = .open ∨ state.watch.pc = .firstWait ∨
    (state.watch.pc = .read ∨ state.watch.pc = .secondWait) ∧ state.watch.event = false

theorem State.Unseen.step (unseen : state.Unseen) (other : state.online ≠ wanted)
    (moved : perform wanted state action = some next) :
    next.Unseen ∨ next.online = wanted := by
  cases action with
  | change =>
      right
      cases moved
      exact (Bool.eq_not_of_ne other.symm).symm
  | access =>
      left
      obtain ⟨watch, accessed, same⟩ := Option.map_eq_some_iff.mp moved
      cases same
      obtain ⟨opens, rfl⟩ | ⟨-, -, rfl⟩ | ⟨-, same, -⟩ | ⟨reads, -, rfl⟩ | ⟨waits, hasEvent, -⟩ :=
        Watch.access_cases accessed
      · exact .inr (.inl rfl)
      · exact .inr (.inr ⟨.inl rfl, rfl⟩)
      · exact absurd same other
      · obtain opens | waits | ⟨-, noEvent⟩ := unseen
        · cases opens.symm.trans reads
        · cases waits.symm.trans reads
        · exact .inr (.inr ⟨.inr rfl, noEvent⟩)
      · obtain opens | waitsFirst | ⟨-, noEvent⟩ := unseen
        · cases opens.symm.trans waits
        · cases waitsFirst.symm.trans waits
        · cases noEvent.symm.trans hasEvent

/-- A call that returns does so because the file has had the value since the call began, even
though the call may never have read it. -/
theorem wait_has_seen (run : (machine wanted).Run state actions last)
    (starts : (machine wanted).initial state) (returned : last.watch.pc = .returned) :
    ∃ front back middle, actions = front ++ back ∧ (machine wanted).Run state front middle ∧
      (machine wanted).Run middle back last ∧ middle.online = wanted := by
  have unseen : state.Unseen := .inl (congrArg Watch.pc starts)
  clear starts
  induction run with
  | nil state =>
      obtain opens | waits | ⟨reads | waits, -⟩ := unseen
      · cases opens.symm.trans returned
      · cases waits.symm.trans returned
      · cases reads.symm.trans returned
      · cases waits.symm.trans returned
  | @cons state next last action actions moved run ih =>
      by_cases seen : state.online = wanted
      · exact ⟨[], action :: actions, state, rfl, .nil state, .cons moved run, seen⟩
      · obtain unseen | seen := unseen.step seen moved
        · obtain ⟨front, back, middle, rfl, before, after, seen⟩ := ih returned unseen
          exact ⟨action :: front, back, middle, rfl, .cons moved before, after, seen⟩
        · exact ⟨[action], actions, next, rfl, .cons moved (.nil next), run, seen⟩

/-- The file is 0 for a moment between two accesses, and the call returns without having read it. -/
theorem wait_has_seen_briefly :
    ∃ last, (machine false).Run ⟨true, .open, false⟩
        [.access, .access, .access, .change, .change, .access] last ∧
      last.watch.pc = .returned ∧ last.online = true ∧
      ∃ front back middle,
        [.access, .access, .access, .change, .change, .access] = front ++ back ∧
        (machine false).Run ⟨true, .open, false⟩ front middle ∧
        (machine false).Run middle back last ∧ middle.online = false := by
  have run : (machine false).Run ⟨true, .open, false⟩
      [.access, .access, .access, .change, .change, .access] ⟨true, .returned, false⟩ :=
    .of_foldlM_some (fun _ _ _ moved => moved) (by decide)
  exact ⟨_, run, rfl, rfl, wait_has_seen run rfl rfl⟩

/-- Where `epoll_wait` sleeps. -/
def State.Asleep (state : State) : Prop :=
  (state.watch.pc = .firstWait ∨ state.watch.pc = .secondWait) ∧ state.watch.event = false

/-- A call that sleeps has not missed the value: the file has another one. -/
theorem wait_misses_nothing (reachable : (machine wanted).Reachable state)
    (asleep : state.Asleep) : state.online ≠ wanted := by
  have holds := reachable.invariant (fun state =>
    state.watch.pc = .open ∨ state.watch.event = true ∨ state.watch.pc = .read ∨
      state.watch.pc = .returned ∨ state.online ≠ wanted) ?_ ?_
  · obtain ⟨waits | waits, noEvent⟩ := asleep <;> rw [waits, noEvent] at holds <;>
      simpa using holds
  · exact fun state starts => .inl (congrArg Watch.pc starts)
  · intro state action next holds moved
    cases action with
    | change =>
        cases moved
        exact .inr (.inl rfl)
    | access =>
        obtain ⟨watch, accessed, same⟩ := Option.map_eq_some_iff.mp moved
        cases same
        obtain ⟨-, rfl⟩ | ⟨-, -, rfl⟩ | ⟨-, -, rfl⟩ | ⟨-, other, -⟩ | ⟨-, -, rfl⟩ :=
          Watch.access_cases accessed
        · exact .inr (.inl rfl)
        · exact .inr (.inr (.inl rfl))
        · exact .inr (.inr (.inr (.inl rfl)))
        · exact .inr (.inr (.inr (.inr other)))
        · exact .inr (.inr (.inr (.inl rfl)))

theorem wait_misses_nothing_online :
    (⟨true, .secondWait, false⟩ : State).Asleep ∧
      (⟨true, .secondWait, false⟩ : State).online ≠ false := by
  have asleep : (⟨true, .secondWait, false⟩ : State).Asleep := ⟨.inr rfl, rfl⟩
  exact ⟨asleep, wait_misses_nothing ⟨⟨true, .open, false⟩, [.access, .access, .access], rfl,
    .of_foldlM_some (fun _ _ _ moved => moved) (by decide)⟩ asleep⟩

end AgentOnline

end Ghost.Agent
