import Ghost.Flux.CpuAccounting

/-!
# Requests for preemption

`flux_preempt_cpu` of `flux_api.bpf.c`, access by access, against one available CPU whose
`flux_pnt` takes the requests with a load and an exchange. Any number of calls interleave.
-/

set_option autoImplicit false

namespace Ghost.Flux

open Lib

/-- Where a call of `flux_preempt_cpu` stands, by the access that comes next. -/
inductive PreemptPc where
  /-- There is no call, or it left the loop by a `break`. -/
  | returned
  | load (i : Nat)
  | cas (i preemptTo : Nat)
  /-- It left the loop by the bound. -/
  | exhausted
  deriving DecidableEq

def PreemptPc.running : PreemptPc → Bool
  | .load _ | .cas .. => true
  | _ => false

structure PreemptCall where
  myTier : Nat
  pc : PreemptPc
  /-- Not in the code: the exchanges of the CPU since the call started. -/
  exchanges : Nat

/-- The head of the loop. -/
def loopHead (maxNrTiers i : Nat) : PreemptPc :=
  if i < maxNrTiers * 2 then .load i else .exhausted

def PreemptCall.start (maxNrTiers myTier : Nat) : PreemptCall := ⟨myTier, loopHead maxNrTiers 0, 0⟩

/-- The next access of a call, with what it leaves in `preempt_to`. -/
def fluxPreemptCpu (maxNrTiers preemptTo : Nat) (call : PreemptCall) : Option (Nat × PreemptCall) :=
  match call.pc with
  | .load i =>
      some (preemptTo, { call with
        pc := if preemptTo ≤ call.myTier then .returned else .cas i preemptTo })
  | .cas i expected =>
      if preemptTo = expected then some (call.myTier, { call with pc := .returned })
      else some (preemptTo, { call with pc := loopHead maxNrTiers (i + 1) })
  | _ => none

/-- One CPU and the calls that want to preempt it. -/
structure Preempting (Caller : Type) where
  preemptTo : Nat
  calls : Caller → PreemptCall
  /-- `flux_pnt` has loaded a request, and exchanges next. -/
  exchangesNext : Bool

inductive PreemptAction (Caller Sched : Type) where
  | call (caller : Caller) (sched : Sched)
  | access (caller : Caller)
  /-- The load of `flux_pnt`. -/
  | pntLoad
  /-- The exchange of `flux_pnt` and the value that it returns. -/
  | pntExchange (preemptTo : Nat)

def PreemptAction.isExchange {Caller Sched : Type} : PreemptAction Caller Sched → Bool
  | .pntExchange _ => true
  | _ => false

section Machine

variable {Caller Sched : Type} [DecidableEq Caller] (flux : Hierarchy Sched)

/-- Nobody preempts for `FLUX_SCHED_NONE`, the only one in tier 0. -/
def Preempting.act (state : Preempting Caller) :
    PreemptAction Caller Sched → Option (Preempting Caller)
  | .call caller sched =>
      if (state.calls caller).pc.running = false ∧ 0 < flux.tier sched then
        some { state with
          calls := Function.update state.calls caller (.start flux.maxNrTiers (flux.tier sched)) }
      else none
  | .access caller =>
      (fluxPreemptCpu flux.maxNrTiers state.preemptTo (state.calls caller)).map fun effect =>
        { state with preemptTo := effect.1, calls := Function.update state.calls caller effect.2 }
  | .pntLoad =>
      if state.exchangesNext then none
      else some { state with exchangesNext := decide (state.preemptTo ≠ flux.tierNoPreempt) }
  | .pntExchange preemptTo =>
      if state.exchangesNext ∧ preemptTo = state.preemptTo then
        some ⟨flux.tierNoPreempt,
          fun caller =>
            { state.calls caller with exchanges := (state.calls caller).exchanges + 1 }, false⟩
      else none

def Preempting.Initial (state : Preempting Caller) : Prop :=
  state.preemptTo ≤ flux.tierNoPreempt ∧ (∀ caller, (state.calls caller).pc = .returned) ∧
    state.exchangesNext = false

def preempting : Machine (Preempting Caller) (PreemptAction Caller Sched) where
  initial := Preempting.Initial flux
  step state action next := state.act flux action = some next

/-- At most one exchange happens during each call. -/
def Preempting.ExchangesOnce (state : Preempting Caller) (action : PreemptAction Caller Sched) :
    Prop :=
  action.isExchange = true → ∀ caller, (state.calls caller).pc.running = true →
    (state.calls caller).exchanges = 0

end Machine

/-! ## How often a call can fail -/

section Calls

variable {maxNrTiers preemptTo : Nat} {call : PreemptCall}

/-- A call at the head of its loop has failed at most once for each value above its own tier,
before the exchange and again after it. -/
def PreemptCall.Retries (maxNrTiers preemptTo : Nat) (call : PreemptCall) (i : Nat) : Prop :=
  call.exchanges = 0 ∧ i + preemptTo ≤ maxNrTiers ∧ i + call.myTier ≤ maxNrTiers ∨
    call.exchanges = 1 ∧ i + preemptTo + call.myTier ≤ maxNrTiers * 2 ∧
      i + call.myTier * 2 ≤ maxNrTiers * 2

/-- The same, before a CAS that expects a value. It was loaded before the exchange or
after it. -/
def PreemptCall.Expects (maxNrTiers preemptTo : Nat) (call : PreemptCall) (i expected : Nat) :
    Prop :=
  call.exchanges = 0 ∧ preemptTo ≤ expected ∧ i + expected ≤ maxNrTiers ∨
    call.exchanges = 1 ∧
      (i + expected ≤ maxNrTiers ∨
        preemptTo ≤ expected ∧ i + expected + call.myTier ≤ maxNrTiers * 2)

def PreemptCall.Bounded (maxNrTiers preemptTo : Nat) (call : PreemptCall) : Prop :=
  match call.pc with
  | .returned => True
  | .load i =>
      0 < call.myTier ∧ call.myTier < maxNrTiers ∧ call.Retries maxNrTiers preemptTo i
  | .cas i expected =>
      0 < call.myTier ∧ call.myTier < maxNrTiers ∧ call.myTier < expected ∧
        call.Expects maxNrTiers preemptTo i expected
  | .exhausted => False

theorem PreemptCall.Bounded.lower {lower : Nat} (bounded : call.Bounded maxNrTiers preemptTo)
    (lowered : lower ≤ preemptTo) : call.Bounded maxNrTiers lower := by
  unfold Bounded Retries Expects at *
  split <;> simp_all <;> omega

/-- An exchange gives every call another round. -/
theorem PreemptCall.Bounded.exchange (bounded : call.Bounded maxNrTiers preemptTo)
    (first : call.pc.running = true → call.exchanges = 0) :
    ({ call with exchanges := call.exchanges + 1 } : PreemptCall).Bounded maxNrTiers maxNrTiers := by
  obtain ⟨myTier, pc, exchanges⟩ := call
  cases pc with
  | returned => trivial
  | exhausted => exact bounded
  | load i =>
      obtain rfl : exchanges = 0 := first rfl
      obtain ⟨positive, below, retries⟩ := bounded
      refine ⟨positive, below, .inr ⟨rfl, ?_⟩⟩
      simp only [Retries] at retries positive below ⊢
      omega
  | cas i expected =>
      obtain rfl : exchanges = 0 := first rfl
      obtain ⟨positive, below, above, expects⟩ := bounded
      refine ⟨positive, below, above, .inr ⟨rfl, .inl ?_⟩⟩
      simp only [Expects] at expects
      omega

theorem loopHead_bounded {myTier exchanges i : Nat} (positive : 0 < myTier)
    (below : myTier < maxNrTiers)
    (retries : PreemptCall.Retries maxNrTiers preemptTo ⟨myTier, .load i, exchanges⟩ i) :
    PreemptCall.Bounded maxNrTiers preemptTo ⟨myTier, loopHead maxNrTiers i, exchanges⟩ := by
  have inLoop : i < maxNrTiers * 2 := by
    simp only [PreemptCall.Retries] at retries
    omega
  rw [loopHead, if_pos inLoop]
  exact ⟨positive, below, retries⟩

theorem PreemptCall.Bounded.start {myTier : Nat} (positive : 0 < myTier)
    (below : myTier < maxNrTiers) (inRange : preemptTo ≤ maxNrTiers) :
    (PreemptCall.start maxNrTiers myTier).Bounded maxNrTiers preemptTo := by
  apply loopHead_bounded positive below
  exact .inl ⟨rfl, by omega, by simp only; omega⟩

/-- What an access of a call does to `preempt_to`, and to the call. -/
theorem fluxPreemptCpu_effect {next : Nat × PreemptCall}
    (performed : fluxPreemptCpu maxNrTiers preemptTo call = some next)
    (inRange : preemptTo ≤ maxNrTiers) (bounded : call.Bounded maxNrTiers preemptTo) :
    next.1 ≤ preemptTo ∧ next.2.Bounded maxNrTiers next.1 ∧ next.2.myTier = call.myTier ∧
      (next.2.pc = .returned →
        next.1 = if call.myTier < preemptTo then call.myTier else preemptTo) := by
  obtain ⟨myTier, pc, exchanges⟩ := call
  cases pc with
  | returned => cases performed
  | exhausted => cases performed
  | load i =>
      obtain ⟨positive, below, retries⟩ := bounded
      cases performed
      by_cases granted : preemptTo ≤ myTier
      · simp only [granted, if_true]
        exact ⟨le_rfl, trivial, trivial, fun _ => (if_neg (Nat.not_lt_of_le granted)).symm⟩
      · simp only [granted, if_false]
        refine ⟨le_rfl, ⟨positive, below, Nat.lt_of_not_le granted, ?_⟩, trivial, ?_⟩
        · simp only [PreemptCall.Retries, PreemptCall.Expects] at retries ⊢
          omega
        · intro isReturned
          cases isReturned
  | cas i expected =>
      obtain ⟨positive, below, above, expects⟩ := bounded
      simp only [fluxPreemptCpu] at performed
      split at performed
      · next same =>
          cases performed
          have lowered : myTier < preemptTo := same ▸ above
          exact ⟨lowered.le, trivial, rfl, fun _ => (if_pos lowered).symm⟩
      · next changed =>
          cases performed
          have retries : PreemptCall.Retries maxNrTiers preemptTo ⟨myTier, .load (i + 1), exchanges⟩
              (i + 1) := by
            simp only [PreemptCall.Retries, PreemptCall.Expects] at expects above below ⊢
            omega
          have head := loopHead_bounded positive below retries
          refine ⟨le_rfl, head, rfl, ?_⟩
          intro isReturned
          simp only [loopHead] at isReturned
          split at isReturned <;> cases isReturned

end Calls

/-! ## Interleavings -/

section Runs

variable {Caller Sched : Type} [DecidableEq Caller] {flux : Hierarchy Sched}
  {state next : Preempting Caller} {action : PreemptAction Caller Sched}

structure Preempting.Bounded (flux : Hierarchy Sched) (state : Preempting Caller) : Prop where
  inRange : state.preemptTo ≤ flux.maxNrTiers
  calls : ∀ caller, (state.calls caller).Bounded flux.maxNrTiers state.preemptTo

theorem Preempting.Bounded.step (bounded : state.Bounded flux)
    (acted : state.act flux action = some next) (once : state.ExchangesOnce action) :
    next.Bounded flux ∧ (action.isExchange = false → next.preemptTo ≤ state.preemptTo) := by
  cases action with
  | call caller sched =>
      obtain ⟨⟨-, positive⟩, started⟩ := Option.ite_none_right_eq_some.mp acted
      cases started
      refine ⟨⟨bounded.inRange, ?_⟩, fun _ => le_rfl⟩
      intro other
      by_cases isCaller : other = caller
      · subst isCaller
        simp only [Function.update_self]
        exact .start positive (flux.tier_lt sched) bounded.inRange
      · simp only [Function.update_of_ne isCaller]
        exact bounded.calls other
  | access caller =>
      obtain ⟨effect, performed, rfl⟩ := Option.map_eq_some_iff.mp acted
      obtain ⟨lowered, effectBounded, -, -⟩ :=
        fluxPreemptCpu_effect performed bounded.inRange (bounded.calls caller)
      refine ⟨⟨lowered.trans bounded.inRange, ?_⟩, fun _ => lowered⟩
      intro other
      by_cases isCaller : other = caller
      · subst isCaller
        simp only [Function.update_self]
        exact effectBounded
      · simp only [Function.update_of_ne isCaller]
        exact (bounded.calls other).lower lowered
  | pntLoad =>
      simp only [act] at acted
      split at acted
      · cases acted
      · cases acted
        exact ⟨⟨bounded.inRange, bounded.calls⟩, fun _ => le_rfl⟩
  | pntExchange preemptTo =>
      obtain ⟨-, exchanged⟩ := Option.ite_none_right_eq_some.mp acted
      cases exchanged
      refine ⟨⟨le_rfl, ?_⟩, ?_⟩
      · intro caller
        exact (bounded.calls caller).exchange (once rfl caller)
      · intro notExchange
        cases notExchange

theorem preempting_bounded
    (reachable : ((preempting flux).restrict Preempting.ExchangesOnce).Reachable state) :
    state.Bounded flux := by
  refine reachable.invariant (Preempting.Bounded flux) ?_ ?_
  · rintro first ⟨inRange, returned, -⟩
    refine ⟨inRange, fun caller => ?_⟩
    rw [PreemptCall.Bounded, returned caller]
    trivial
  · rintro state action next bounded ⟨once, acted⟩
    exact (bounded.step acted once).1

omit [DecidableEq Caller] in
theorem Preempting.exchangesOnce_of_not_exchange (notExchange : action.isExchange = false) :
    state.ExchangesOnce action := by
  intro isExchange
  rw [notExchange] at isExchange
  cases isExchange

/-- Between two exchanges the value only goes down. -/
theorem preemptTo_le_of_run {actions : List (PreemptAction Caller Sched)}
    (run : (preempting flux).Run state actions next)
    (quiet : ∀ action ∈ actions, action.isExchange = false) (bounded : state.Bounded flux) :
    next.preemptTo ≤ state.preemptTo := by
  induction run with
  | nil => exact le_rfl
  | cons acted _ ih =>
      have notExchange := quiet _ List.mem_cons_self
      obtain ⟨nextBounded, lowered⟩ :=
        bounded.step acted (Preempting.exchangesOnce_of_not_exchange notExchange)
      exact (ih (fun action member => quiet action (List.mem_cons_of_mem _ member))
        nextBounded).trans (lowered notExchange)

/-- The access that ends a call does all that the call does. -/
theorem Preempting.Bounded.decides (bounded : state.Bounded flux) {caller : Caller}
    (acted : state.act flux (.access caller) = some next)
    (decisive : (next.calls caller).pc = .returned) :
    next.preemptTo = if (state.calls caller).myTier < state.preemptTo
      then (state.calls caller).myTier else state.preemptTo := by
  obtain ⟨effect, performed, rfl⟩ := Option.map_eq_some_iff.mp acted
  simp only [Function.update_self] at decisive
  exact (fluxPreemptCpu_effect performed bounded.inRange (bounded.calls caller)).2.2.2 decisive

/-- It is the action that stands for the call where CPUs are counted. -/
theorem Preempting.Bounded.decides_preemptCpu [DecidableEq Sched] (bounded : state.Bounded flux)
    {caller : Caller} (acted : state.act flux (.access caller) = some next)
    (decisive : (next.calls caller).pc = .returned) {sched : Sched}
    (calls : (state.calls caller).myTier = flux.tier sched) (nrCpus : Sched → Int)
    {cpu : FluxCpu Sched} (same : cpu.preemptTo = state.preemptTo) :
    fluxAct flux nrCpus cpu (.preemptCpu sched) =
      some ⟨nrCpus, { cpu with preemptTo := next.preemptTo }⟩ := by
  rw [bounded.decides acted decisive, calls, ← same]
  simp only [fluxAct]
  split <;> rfl

/-- No request is lost: calls do not exhaust their loop, requests are only replaced by higher
ones, and `flux_pnt` takes one that is at least as high as each that was made. -/
theorem preemptions_kept
    (reachable : ((preempting flux).restrict Preempting.ExchangesOnce).Reachable state) :
    (∀ caller, (state.calls caller).pc ≠ .exhausted) ∧
    (∀ action next, (preempting flux).step state action next → action.isExchange = false →
      next.preemptTo ≤ state.preemptTo) ∧
    ∀ caller next actions later preemptTo last,
      (preempting flux).step state (.access caller) next → (next.calls caller).pc = .returned →
      (preempting flux).Run next actions later →
      (∀ action ∈ actions, action.isExchange = false) →
      (preempting flux).step later (.pntExchange preemptTo) last →
      preemptTo ≤ (state.calls caller).myTier := by
  have bounded := preempting_bounded reachable
  refine ⟨?_, ?_, ?_⟩
  · intro caller isExhausted
    have callBounded := bounded.calls caller
    rw [PreemptCall.Bounded, isExhausted] at callBounded
    exact callBounded
  · intro action next acted notExchange
    exact (bounded.step acted (Preempting.exchangesOnce_of_not_exchange notExchange)).2 notExchange
  · intro caller next actions later preemptTo last acted decisive run quiet exchanged
    have nextBounded := (bounded.step acted (Preempting.exchangesOnce_of_not_exchange rfl)).1
    have granted : next.preemptTo ≤ (state.calls caller).myTier := by
      rw [bounded.decides acted decisive]
      split <;> omega
    obtain ⟨⟨-, taken⟩, -⟩ := Option.ite_none_right_eq_some.mp exchanged
    calc preemptTo = later.preemptTo := taken
      _ ≤ next.preemptTo := preemptTo_le_of_run run quiet nextBounded
      _ ≤ (state.calls caller).myTier := granted

end Runs

/-! ## Biff and roci preempt one CPU -/

def unrequested : Preempting SchedId where
  preemptTo := 3
  calls _ := ⟨0, .returned, 0⟩
  exchangesNext := false

/-- Roci overtakes biff, whose CAS fails. -/
def overtaking : List (PreemptAction SchedId SchedId) :=
  [.call .biff .biff, .call .roci .roci, .access .biff, .access .roci, .access .roci,
    .access .biff]

def overtaken : Preempting SchedId :=
  (overtaking.foldlM (Preempting.act rociHierarchy) unrequested).getD unrequested

/-- Biff is content with the request of roci. -/
def contented : Preempting SchedId :=
  (overtaken.act rociHierarchy (.access .biff)).getD overtaken

def exchanging : Preempting SchedId :=
  (contented.act rociHierarchy .pntLoad).getD contented

theorem preemptions_kept_overtaken :
    (overtaken.calls .biff).pc = .load 1 ∧
    (∃ last, exchanging.act rociHierarchy (.pntExchange 1) = some last) ∧
    1 ≤ (overtaken.calls .biff).myTier := by
  have reachable : ((preempting rociHierarchy).restrict
      Preempting.ExchangesOnce).Reachable overtaken := by
    refine ⟨unrequested, overtaking, ⟨le_rfl, fun _ => rfl, rfl⟩, ?_⟩
    have run : (preempting rociHierarchy).Run unrequested overtaking overtaken :=
      .of_foldlM_some (fun _ _ _ acted => acted) rfl
    refine run.restrict ?_
    intro action member state
    refine Preempting.exchangesOnce_of_not_exchange ?_
    revert action
    decide
  have run : (preempting rociHierarchy).Run contented [.pntLoad] exchanging := .cons rfl (.nil _)
  have taken : exchanging.act rociHierarchy (.pntExchange 1) =
      some ⟨3, fun caller => { exchanging.calls caller with
        exchanges := (exchanging.calls caller).exchanges + 1 }, false⟩ := rfl
  refine ⟨rfl, ⟨_, taken⟩, ?_⟩
  exact (preemptions_kept reachable).2.2 .biff contented [.pntLoad] exchanging 1 _ rfl rfl run
    (by decide) taken

end Ghost.Flux
