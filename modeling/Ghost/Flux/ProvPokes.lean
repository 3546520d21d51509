import Ghost.Flux.ProvLists

/-!
# How often prov pokes

`prov_can_poke` of `prov_flux.bpf.c`, access by access, by any number of requests for one child at
once. The clock is `bpf_ktime_get_us`, which does not come to `2 ^ 64` microseconds.
-/

set_option autoImplicit false

namespace Ghost.Flux

open Lib

/-- Where a call of `prov_can_poke` stands, by the access that comes next. -/
inductive CanPokePc where
  | returned (canPoke : Bool)
  /-- The first look at `poked_at`. -/
  | test (now : BitVec 64)
  | exchange (now : BitVec 64)
  deriving DecidableEq

def CanPokePc.isTest : CanPokePc → Bool
  | .test _ => true
  | _ => false

def CanPokePc.isExchange : CanPokePc → Bool
  | .exchange _ => true
  | _ => false

/-- An exchange of `poked_at`, and whether its call may poke. -/
structure PokeExchange where
  now : BitVec 64
  poked : Bool
  deriving DecidableEq

/-- The `prov_poke_tracker` of a child, and the calls that use it. -/
structure Poking (Caller : Type) where
  pokedAt : BitVec 64
  clock : Nat
  calls : Caller → CanPokePc
  /-- Not in the code: the exchanges so far, the newest first. -/
  exchanges : List PokeExchange

inductive PokingAction (Caller : Type) where
  | tick (us : Nat)
  | call (caller : Caller)
  | access (caller : Caller)

namespace Poking

variable {Caller : Type} [DecidableEq Caller] (state : Poking Caller)

def setCall (caller : Caller) (pc : CanPokePc) : Poking Caller :=
  { state with calls := Function.update state.calls caller pc }

def setClock (clock : Nat) : Poking Caller := { state with clock := clock }

def exchange (caller : Caller) (now : BitVec 64) (poked : Bool) : Poking Caller :=
  { state.setCall caller (.returned poked) with
    pokedAt := now
    exchanges := ⟨now, poked⟩ :: state.exchanges }

variable (threshold : BitVec 64)

/-- The next access of a call. The differences wrap. -/
def provCanPoke (caller : Caller) : CanPokePc → Option (Poking Caller)
  | .returned _ => none
  | .test now =>
      some (state.setCall caller
        (if now - state.pokedAt < threshold then .returned false else .exchange now))
  | .exchange now => some (state.exchange caller now (decide (threshold ≤ now - state.pokedAt)))

def perform : PokingAction Caller → Option (Poking Caller)
  | .tick us => if state.clock + us < 2 ^ 64 then some (state.setClock (state.clock + us)) else none
  | .call caller =>
      match state.calls caller with
      | .returned _ =>
          some (state.setCall caller
            (if threshold = 0 then .returned true else .test (.ofNat 64 state.clock)))
      | _ => none
  | .access caller => state.provCanPoke threshold caller (state.calls caller)

structure Initial : Prop where
  pokedAt : state.pokedAt = 0
  clock : state.clock < 2 ^ 64
  calls : ∀ caller, ∃ canPoke, state.calls caller = .returned canPoke
  exchanges : state.exchanges = []

variable {state}

private theorem setCall_self {caller : Caller} {pc : CanPokePc} :
    (state.setCall caller pc).calls caller = pc :=
  Function.update_self ..

private theorem setCall_of_ne {caller other : Caller} {pc : CanPokePc}
    (different : other ≠ caller) :
    (state.setCall caller pc).calls other = state.calls other :=
  Function.update_of_ne different ..

end Poking

def poking (Caller : Type) [DecidableEq Caller] (threshold : BitVec 64) :
    Machine (Poking Caller) (PokingAction Caller) where
  initial := Poking.Initial
  step state action next := state.perform threshold action = some next

section Steps

variable {Caller : Type} [DecidableEq Caller] {state next : Poking Caller} {threshold : BitVec 64}

/-- What a step can do. -/
inductive Poking.Moves (threshold : BitVec 64) (state : Poking Caller) :
    PokingAction Caller → Poking Caller → Prop
  | tick {us : Nat} : state.clock + us < 2 ^ 64 →
      Moves threshold state (.tick us) (state.setClock (state.clock + us))
  | call {caller : Caller} {pc : CanPokePc} : (∀ now, pc ≠ .exchange now) →
      Moves threshold state (.call caller) (state.setCall caller pc)
  | refuse {caller : Caller} {now : BitVec 64} : state.calls caller = .test now →
      now - state.pokedAt < threshold →
      Moves threshold state (.access caller) (state.setCall caller (.returned false))
  | pass {caller : Caller} {now : BitVec 64} : state.calls caller = .test now →
      threshold ≤ now - state.pokedAt →
      Moves threshold state (.access caller) (state.setCall caller (.exchange now))
  | exchange {caller : Caller} {now : BitVec 64} : state.calls caller = .exchange now →
      Moves threshold state (.access caller)
        (state.exchange caller now (decide (threshold ≤ now - state.pokedAt)))

private theorem Poking.Moves.of_perform {action : PokingAction Caller}
    (performed : state.perform threshold action = some next) :
    state.Moves threshold action next := by
  cases action with
  | tick us =>
      obtain ⟨inTime, same⟩ := Option.ite_none_right_eq_some.mp performed
      cases same
      exact .tick inTime
  | call caller =>
      simp only [Poking.perform] at performed
      split at performed
      · cases performed
        refine .call fun now => ?_
        split <;> exact CanPokePc.noConfusion
      · cases performed
  | access caller =>
      simp only [Poking.perform] at performed
      cases at_ : state.calls caller with
      | returned canPoke =>
          rw [at_] at performed
          cases performed
      | test now =>
          rw [at_] at performed
          cases performed
          split
          · exact .refuse at_ ‹_›
          · exact .pass at_ (BitVec.not_lt.mp ‹_›)
      | exchange now =>
          rw [at_] at performed
          cases performed
          exact .exchange at_

end Steps

/-- Nothing has happened. -/
def neverPoked : Poking Bool := ⟨0, 0, fun _ => .returned false, []⟩

theorem neverPoked_initial : neverPoked.Initial :=
  ⟨rfl, by decide, fun _ => ⟨false, rfl⟩, rfl⟩

private theorem neverPoked_reaches {actions : List (PokingAction Bool)} {test : Poking Bool → Bool}
    (passed : (actions.foldlM (fun (state : Poking Bool) action => state.perform 10 action)
      neverPoked).any test = true) :
    ∃ state, (poking Bool 10).Reachable state ∧ test state = true := by
  obtain ⟨state, run, holds⟩ := @Machine.Run.exists_of_any _ _ (poking Bool 10) _ _
    (fun _ _ _ performed => performed) _ _ passed
  exact ⟨state, ⟨neverPoked, actions, neverPoked_initial, run⟩, holds⟩

/-! ## Pokes do not follow each other too soon -/

section Apart

variable {Caller : Type} [DecidableEq Caller] {state next : Poking Caller}
  {threshold pokedAt : BitVec 64} {exchanges : List PokeExchange}

/-- Each exchange found what the one before had left. -/
def Recorded (threshold : BitVec 64) : BitVec 64 → List PokeExchange → Prop
  | pokedAt, [] => pokedAt = 0
  | pokedAt, exchange :: older =>
      pokedAt = exchange.now ∧ ∃ before, Recorded threshold before older ∧
        exchange.poked = decide (threshold ≤ exchange.now - before)

theorem Recorded.step {action : PokingAction Caller}
    (recorded : Recorded threshold state.pokedAt state.exchanges)
    (moved : state.Moves threshold action next) :
    Recorded threshold next.pokedAt next.exchanges := by
  cases moved with
  | exchange at_ => exact ⟨rfl, state.pokedAt, recorded, rfl⟩
  | _ => exact recorded

theorem recorded_of_reachable (reachable : (poking Caller threshold).Reachable state) :
    Recorded threshold state.pokedAt state.exchanges := by
  apply reachable.invariant fun state => Recorded threshold state.pokedAt state.exchanges
  · intro state initial
    rw [initial.pokedAt, initial.exchanges]
    rfl
  · exact fun state action next recorded performed => recorded.step (.of_perform performed)

private theorem Recorded.of_append {newer older : List PokeExchange}
    (recorded : Recorded threshold pokedAt (newer ++ older)) :
    ∃ before, Recorded threshold before older := by
  induction newer generalizing pokedAt with
  | nil => exact ⟨pokedAt, recorded⟩
  | cons newest newer ih =>
      obtain ⟨-, before, recorded', -⟩ := recorded
      exact ih recorded'

/-- The exact condition for a poke, in numbers: a threshold has passed since the last exchange, or
that one had a later reading, by `2 ^ 64` less a threshold at most. -/
theorem poked_iff (reachable : (poking Caller threshold).Reachable state)
    {newer older : List PokeExchange} {late early : PokeExchange}
    (exchanged : state.exchanges = newer ++ late :: early :: older) :
    late.poked = true ↔
      early.now.toNat + threshold.toNat ≤ late.now.toNat ∨
        late.now.toNat < early.now.toNat ∧
          early.now.toNat + threshold.toNat ≤ late.now.toNat + 2 ^ 64 := by
  have recorded := recorded_of_reachable reachable
  rw [exchanged] at recorded
  obtain ⟨_, -, before, recorded', poked⟩ := recorded.of_append
  obtain ⟨rfl, -⟩ := recorded'
  have inWord := late.now.isLt
  have inWord' := early.now.isLt
  have inWord'' := threshold.isLt
  rw [poked, decide_eq_true_iff, BitVec.le_def, BitVec.toNat_sub]
  by_cases overtaken : late.now.toNat < early.now.toNat
  · rw [Nat.mod_eq_of_lt (by omega)]
    omega
  · have wraps : 2 ^ 64 - early.now.toNat + late.now.toNat =
        late.now.toNat - early.now.toNat + 2 ^ 64 := by omega
    rw [wraps, Nat.add_mod_right, Nat.mod_eq_of_lt (by omega)]
    omega

/-- A call is overtaken by one with a later reading. -/
def pokeLate : List (PokingAction Bool) :=
  [.tick 12, .call true, .access true, .tick 1, .call false, .access false, .access false,
    .access true]

theorem poked_iff_overtaken :
    ∃ state : Poking Bool, (poking Bool 10).Reachable state ∧
      state.exchanges = [⟨12, true⟩, ⟨13, true⟩] ∧
      ((13 : BitVec 64).toNat + (10 : BitVec 64).toNat ≤ (12 : BitVec 64).toNat ∨
        (12 : BitVec 64).toNat < (13 : BitVec 64).toNat ∧
          (13 : BitVec 64).toNat + (10 : BitVec 64).toNat ≤ (12 : BitVec 64).toNat + 2 ^ 64) := by
  obtain ⟨state, reachable, holds⟩ := @neverPoked_reaches pokeLate
    (fun state => decide (state.exchanges = [⟨12, true⟩, ⟨13, true⟩])) (by decide +kernel)
  have exchanged := of_decide_eq_true holds
  refine ⟨state, reachable, exchanged, ?_⟩
  exact (@poked_iff Bool _ state 10 reachable [] [] ⟨12, true⟩ ⟨13, true⟩ exchanged).mp rfl

/-- Where the readings are in order, `poked_at` has the greatest of them. -/
theorem Recorded.le_pokedAt (recorded : Recorded threshold pokedAt exchanges)
    (inOrder : exchanges.Pairwise fun newer older => older.now ≤ newer.now)
    {exchange : PokeExchange} (member : exchange ∈ exchanges) : exchange.now ≤ pokedAt := by
  cases exchanges with
  | nil => cases member
  | cons newest older =>
      obtain ⟨rfl, -⟩ := recorded
      cases member with
      | head => exact BitVec.le_refl _
      | tail _ member => exact (List.pairwise_cons.mp inOrder).1 exchange member

private theorem Recorded.apart (recorded : Recorded threshold pokedAt exchanges)
    (inOrder : exchanges.Pairwise fun newer older => older.now ≤ newer.now) :
    (exchanges.filter PokeExchange.poked).Pairwise fun newer older =>
      older.now.toNat + threshold.toNat ≤ newer.now.toNat := by
  induction exchanges generalizing pokedAt with
  | nil => exact .nil
  | cons newest older ih =>
      obtain ⟨rfl, before, recorded', poked⟩ := recorded
      obtain ⟨newer, inOrder'⟩ := List.pairwise_cons.mp inOrder
      have apart := ih recorded' inOrder'
      rw [List.filter_cons]
      split
      · refine List.pairwise_cons.mpr ⟨fun exchange isPoke => ?_, apart⟩
        have member := List.mem_of_mem_filter isPoke
        have notAfter : exchange.now ≤ before := recorded'.le_pokedAt inOrder' member
        have notBefore : before ≤ newest.now := by
          cases older with
          | nil => cases member
          | cons latest others =>
              obtain ⟨rfl, -⟩ := recorded'
              exact newer latest List.mem_cons_self
        have waited : threshold ≤ newest.now - before :=
          of_decide_eq_true (poked.symm.trans ‹newest.poked = true›)
        rw [BitVec.le_def] at notAfter notBefore
        rw [BitVec.le_def, BitVec.toNat_sub_of_le (BitVec.le_def.mpr notBefore)] at waited
        omega
      · exact apart

/-- As long as the calls exchange `poked_at` in the order in which they have read the clock, any two
pokes are a threshold apart, however the calls interleave. -/
theorem pokes_apart (reachable : (poking Caller threshold).Reachable state)
    (inOrder : state.exchanges.Pairwise fun newer older => older.now ≤ newer.now) :
    (state.exchanges.filter PokeExchange.poked).Pairwise fun newer older =>
      older.now.toNat + threshold.toNat ≤ newer.now.toNat :=
  (recorded_of_reachable reachable).apart inOrder

end Apart

/-- One call after the other. -/
def pokeTwice : List (PokingAction Bool) :=
  [.tick 12, .call true, .access true, .access true,
    .tick 15, .call false, .access false, .access false]

theorem pokes_apart_twice :
    ∃ state : Poking Bool, (poking Bool 10).Reachable state ∧
      state.exchanges = [⟨27, true⟩, ⟨12, true⟩] ∧
      (state.exchanges.filter PokeExchange.poked).Pairwise fun newer older =>
        older.now.toNat + (10 : BitVec 64).toNat ≤ newer.now.toNat := by
  obtain ⟨state, reachable, holds⟩ := @neverPoked_reaches pokeTwice
    (fun state => decide (state.exchanges = [⟨27, true⟩, ⟨12, true⟩])) (by decide +kernel)
  have exchanged := of_decide_eq_true holds
  refine ⟨state, reachable, exchanged, pokes_apart reachable ?_⟩
  rw [exchanged]
  decide

/-! ## What a refusal says -/

section Refusals

variable {Caller : Type} [DecidableEq Caller] {state next : Poking Caller}
  {threshold : BitVec 64}

/-- No call tests between the test and the exchange of another one. -/
def TestsAlone (state : Poking Caller) : PokingAction Caller → Prop
  | .access caller => (state.calls caller).isTest = true →
      ∀ other, (state.calls other).isExchange = false
  | _ => True

instance [Fintype Caller] (state : Poking Caller) (action : PokingAction Caller) :
    Decidable (TestsAlone state action) :=
  match action with
  | .access caller => inferInstanceAs (Decidable ((state.calls caller).isTest = true →
      ∀ other, (state.calls other).isExchange = false))
  | .tick _ | .call _ => isTrue trivial

/-- What a call that has passed its test still finds at its exchange. -/
structure Poking.Fair (threshold : BitVec 64) (state : Poking Caller) : Prop where
  sole : ∀ caller other now later, state.calls caller = .exchange now →
    state.calls other = .exchange later → caller = other
  passes : ∀ caller now, state.calls caller = .exchange now → threshold ≤ now - state.pokedAt
  poked : ∀ exchange ∈ state.exchanges, exchange.poked = true
  last : state.pokedAt = 0 ∧ state.exchanges = [] ∨
    ∃ exchange ∈ state.exchanges, exchange.now = state.pokedAt

/-- A call that is not at its exchange then takes no part in it. -/
theorem Poking.Fair.setCall (fair : state.Fair threshold) {caller : Caller} {pc : CanPokePc}
    (elsewhere : ∀ now, pc ≠ .exchange now) : (state.setCall caller pc).Fair threshold := by
  have kept : ∀ other now, (state.setCall caller pc).calls other = .exchange now →
      state.calls other = .exchange now := by
    intro other now at_
    by_cases same : other = caller
    · subst same
      exact absurd (Poking.setCall_self.symm.trans at_) (elsewhere now)
    · exact (Poking.setCall_of_ne same).symm.trans at_
  exact ⟨fun first second now later at_ at_' =>
      fair.sole first second now later (kept first now at_) (kept second later at_'),
    fun other now at_ => fair.passes other now (kept other now at_), fair.poked, fair.last⟩

theorem Poking.Fair.step (fair : state.Fair threshold) {action : PokingAction Caller}
    (allowed : TestsAlone state action) (moved : state.Moves threshold action next) :
    next.Fair threshold := by
  cases moved with
  | tick => exact ⟨fair.sole, fair.passes, fair.poked, fair.last⟩
  | call elsewhere => exact fair.setCall elsewhere
  | refuse => exact fair.setCall fun _ => CanPokePc.noConfusion
  | @pass caller now at_ waited =>
      have alone : ∀ other later, state.calls other ≠ .exchange later := by
        intro other later exchanges
        have apart := allowed (congrArg CanPokePc.isTest at_) other
        rw [exchanges] at apart
        cases apart
      have isCaller : ∀ other later, (state.setCall caller (.exchange now)).calls other =
          .exchange later → other = caller ∧ later = now := by
        intro other later exchanges
        by_cases same : other = caller
        · subst same
          exact ⟨rfl, (CanPokePc.exchange.inj (Poking.setCall_self.symm.trans exchanges)).symm⟩
        · exact absurd ((Poking.setCall_of_ne same).symm.trans exchanges) (alone other later)
      refine ⟨fun first second earlier later at_ at_' => ?_, fun other later exchanges => ?_,
        fair.poked, fair.last⟩
      · exact (isCaller first earlier at_).1.trans (isCaller second later at_').1.symm
      · rw [(isCaller other later exchanges).2]
        exact waited
  | @exchange caller now at_ =>
      have nobody : ∀ other later,
          (state.setCall caller
            (.returned (decide (threshold ≤ now - state.pokedAt)))).calls other ≠ .exchange later := by
        intro other later exchanges
        by_cases same : other = caller
        · subst same
          cases Poking.setCall_self.symm.trans exchanges
        · exact same (fair.sole other caller later now
            ((Poking.setCall_of_ne same).symm.trans exchanges) at_)
      refine ⟨fun other _ later _ exchanges => absurd exchanges (nobody other later),
        fun other later exchanges => absurd exchanges (nobody other later), ?_,
        .inr ⟨_, List.mem_cons_self, rfl⟩⟩
      exact List.forall_mem_cons.mpr ⟨decide_eq_true (fair.passes caller now at_), fair.poked⟩

theorem Poking.fair_of_reachable
    (reachable : ((poking Caller threshold).restrict TestsAlone).Reachable state) :
    state.Fair threshold := by
  apply reachable.invariant fun state => state.Fair threshold
  · intro state initial
    have resting : ∀ caller now, state.calls caller ≠ .exchange now := by
      intro caller now at_
      obtain ⟨canPoke, rests⟩ := initial.calls caller
      cases rests.symm.trans at_
    refine ⟨fun caller _ now _ at_ => absurd at_ (resting caller now),
      fun caller now at_ => absurd at_ (resting caller now), ?_,
      .inl ⟨initial.pokedAt, initial.exchanges⟩⟩
    rw [initial.exchanges]
    exact fun exchange member => absurd member List.not_mem_nil
  · exact fun state action next fair stepped => fair.step stepped.1 (.of_perform stepped.2)

/-- If no call tests between the test and the exchange of another one, every exchange pokes, and a
call is refused only within a threshold of a poke, or of the start of the clock. -/
theorem refusal_follows_poke
    (reachable : ((poking Caller threshold).restrict TestsAlone).Reachable state)
    {caller : Caller} (refused : state.perform threshold (.access caller) = some next)
    (isRefused : next.calls caller = .returned false) :
    ∃ now, state.calls caller = .test now ∧
      (state.exchanges = [] ∧ now < threshold ∨
        ∃ exchange ∈ state.exchanges, exchange.poked = true ∧ now - exchange.now < threshold) := by
  have fair := Poking.fair_of_reachable reachable
  have moved := Poking.Moves.of_perform refused
  generalize isAction : PokingAction.access caller = action at moved
  cases moved with
  | tick | call => cases isAction
  | @refuse other now at_ early =>
      cases isAction
      refine ⟨now, at_, ?_⟩
      obtain ⟨never, none⟩ | ⟨exchange, member, isLast⟩ := fair.last
      · rw [never, show now - 0 = now from BitVec.sub_zero now] at early
        exact .inl ⟨none, early⟩
      · rw [← isLast] at early
        exact .inr ⟨exchange, member, fair.poked exchange member, early⟩
  | pass =>
      cases isAction
      cases Poking.setCall_self.symm.trans isRefused
  | @exchange other now at_ =>
      cases isAction
      have poked := decide_eq_true (fair.passes caller now at_)
      cases poked.symm.trans
        (CanPokePc.returned.inj (Poking.setCall_self.symm.trans isRefused))

end Refusals

/-- A poke, and three microseconds later the first look of another call. -/
def pokeAndLook : List (PokingAction Bool) :=
  [.tick 12, .call true, .access true, .access true, .tick 3, .call false]

theorem refusal_follows_poke_soon :
    ∃ state next : Poking Bool, ((poking Bool 10).restrict TestsAlone).Reachable state ∧
      state.perform 10 (.access false) = some next ∧ next.calls false = .returned false ∧
      ∃ now, state.calls false = .test now ∧
        (state.exchanges = [] ∧ now < 10 ∨
          ∃ exchange ∈ state.exchanges, exchange.poked = true ∧ now - exchange.now < 10) := by
  let perform : Poking Bool → PokingAction Bool → Option (Poking Bool) :=
    fun state action => if TestsAlone state action then state.perform 10 action else none
  have performed : ∀ state action next, perform state action = some next →
      ((poking Bool 10).restrict TestsAlone).step state action next := by
    intro state action next outcome
    exact Option.ite_none_right_eq_some.mp outcome
  have passed : (pokeAndLook.foldlM perform neverPoked).any (fun state =>
      (state.perform 10 (.access false)).any fun next =>
        decide (next.calls false = .returned false)) = true := by decide +kernel
  obtain ⟨state, run, holds⟩ := Machine.Run.exists_of_any performed passed
  obtain ⟨next, refused, isRefused⟩ := (Option.any_eq_true _ _).mp holds
  have reachable : ((poking Bool 10).restrict TestsAlone).Reachable state :=
    ⟨neverPoked, pokeAndLook, neverPoked_initial, run⟩
  exact ⟨state, next, reachable, refused, of_decide_eq_true isRefused,
    refusal_follows_poke reachable refused (of_decide_eq_true isRefused)⟩

/-! ## Refusals without end -/

section Starvation

variable {threshold : BitVec 64} {state : Poking Bool}

theorem Poking.reachable_tick (reachable : (poking Bool threshold).Reachable state) (us : Nat)
    (inTime : state.clock + us < 2 ^ 64) :
    (poking Bool threshold).Reachable (state.setClock (state.clock + us)) := by
  have performed : state.perform threshold (.tick us) =
      some (state.setClock (state.clock + us)) := if_pos inTime
  exact reachable.step performed

theorem Poking.reachable_call (reachable : (poking Bool threshold).Reachable state)
    (isSet : threshold ≠ 0) (caller : Bool) {canPoke : Bool}
    (rests : state.calls caller = .returned canPoke) :
    (poking Bool threshold).Reachable (state.setCall caller (.test (.ofNat 64 state.clock))) := by
  have performed : state.perform threshold (.call caller) =
      some (state.setCall caller (.test (.ofNat 64 state.clock))) := by
    simp only [Poking.perform, rests, if_neg isSet]
  exact reachable.step performed

theorem Poking.reachable_pass (reachable : (poking Bool threshold).Reachable state) (caller : Bool)
    {now : BitVec 64} (at_ : state.calls caller = .test now)
    (waited : threshold ≤ now - state.pokedAt) :
    (poking Bool threshold).Reachable (state.setCall caller (.exchange now)) := by
  have performed : state.perform threshold (.access caller) =
      some (state.setCall caller (.exchange now)) := by
    simp only [Poking.perform, at_, Poking.provCanPoke, if_neg (BitVec.not_lt.mpr waited)]
  exact reachable.step performed

theorem Poking.reachable_exchange (reachable : (poking Bool threshold).Reachable state)
    (caller : Bool) {now : BitVec 64} (at_ : state.calls caller = .exchange now) :
    (poking Bool threshold).Reachable
      (state.exchange caller now (decide (threshold ≤ now - state.pokedAt))) := by
  have performed : state.perform threshold (.access caller) =
      some (state.exchange caller now (decide (threshold ≤ now - state.pokedAt))) := by
    simp only [Poking.perform, at_, Poking.provCanPoke]
  exact reachable.step performed

/-- Readings that are a threshold apart, less a microsecond. -/
def reading (threshold : BitVec 64) (k : Nat) : Nat :=
  threshold.toNat + k * (threshold.toNat - 1)

private theorem reading_succ (k : Nat) :
    reading threshold (k + 1) = reading threshold k + (threshold.toNat - 1) := by
  unfold reading
  rw [Nat.add_mul, Nat.one_mul, Nat.add_assoc]

/-- A poke at the first reading and then `n` refusals, the newest first. -/
def refusals (threshold : BitVec 64) (n : Nat) : List PokeExchange :=
  (List.range n).reverse.map (fun k => ⟨.ofNat 64 (reading threshold (k + 1)), false⟩) ++
    [⟨threshold, true⟩]

private theorem refusals_succ (n : Nat) :
    refusals threshold (n + 1) =
      ⟨.ofNat 64 (reading threshold (n + 1)), false⟩ :: refusals threshold n := by
  unfold refusals
  rw [List.range_succ, List.reverse_append]
  rfl

/-- What `prov_can_poke` compares with the threshold. -/
theorem threshold_le_sub {early late : Nat} (room : late < 2 ^ 64) (inOrder : early ≤ late) :
    threshold ≤ BitVec.ofNat 64 late - BitVec.ofNat 64 early ↔
      early + threshold.toNat ≤ late := by
  have sameLate : (BitVec.ofNat 64 late).toNat = late := Nat.mod_eq_of_lt room
  have sameEarly : (BitVec.ofNat 64 early).toNat = early :=
    Nat.mod_eq_of_lt (inOrder.trans_lt room)
  have ordered : BitVec.ofNat 64 early ≤ BitVec.ofNat 64 late := by
    rw [BitVec.le_def, sameEarly, sameLate]
    exact inOrder
  rw [BitVec.le_def, BitVec.toNat_sub_of_le ordered, sameEarly, sameLate]
  omega

/-- A call is about to exchange a reading that follows the one in `poked_at` too soon, as `k`
others have done since the poke. -/
structure Poking.Refusing (threshold : BitVec 64) (state : Poking Bool) (k : Nat) (caller : Bool) :
    Prop where
  pokedAt : state.pokedAt = .ofNat 64 (reading threshold k)
  clock : state.clock = reading threshold (k + 1)
  exchange : state.calls caller = .exchange (.ofNat 64 (reading threshold (k + 1)))
  rests : ∃ canPoke, state.calls (!caller) = .returned canPoke
  exchanges : state.exchanges = refusals threshold k

/-- The other call passes its test before `poked_at` moves on, and is late as well. -/
theorem Poking.Refusing.round {k : Nat} {caller : Bool}
    (reachable : (poking Bool threshold).Reachable state)
    (refusing : state.Refusing threshold k caller) (atLeast : 2 ≤ threshold.toNat)
    (room : reading threshold (k + 2) < 2 ^ 64) :
    ∃ next : Poking Bool, (poking Bool threshold).Reachable next ∧
      next.Refusing threshold (k + 1) !caller := by
  obtain ⟨canPoke, rests⟩ := refusing.rests
  have isSet : threshold ≠ 0 := by
    intro isZero
    rw [isZero] at atLeast
    exact absurd atLeast (by decide)
  have once : reading threshold (k + 1) = reading threshold k + (threshold.toNat - 1) :=
    reading_succ k
  have twice : reading threshold (k + 2) = reading threshold (k + 1) + (threshold.toNat - 1) :=
    reading_succ (k + 1)
  have clock : state.clock + (threshold.toNat - 1) = reading threshold (k + 2) := by
    rw [refusing.clock, twice]
  have waited : threshold ≤ BitVec.ofNat 64 (state.clock + (threshold.toNat - 1)) -
      state.pokedAt := by
    rw [clock, refusing.pokedAt]
    exact (threshold_le_sub room (by omega)).mpr (by omega)
  have tooSoon : ¬threshold ≤ BitVec.ofNat 64 (reading threshold (k + 1)) - state.pokedAt := by
    rw [refusing.pokedAt, threshold_le_sub (by omega) (by omega)]
    omega
  have apart : caller ≠ !caller := by cases caller <;> decide
  have ticked := Poking.reachable_tick reachable (threshold.toNat - 1) (by rw [clock]; exact room)
  have called := Poking.reachable_call ticked isSet (!caller) rests
  have passed := Poking.reachable_pass called (!caller) Poking.setCall_self waited
  have exchanged := Poking.reachable_exchange passed caller
    ((Poking.setCall_of_ne apart).trans
      ((Poking.setCall_of_ne apart).trans refusing.exchange))
  refine ⟨_, exchanged, rfl, clock, ?_, ?_, ?_⟩
  · rw [← clock]
    exact (Poking.setCall_of_ne apart.symm).trans Poking.setCall_self
  · rw [Bool.not_not]
    exact ⟨_, Poking.setCall_self⟩
  · rw [refusals_succ, ← refusing.exchanges, ← decide_eq_false tooSoon]
    rfl

/-- The first call pokes, and the other one has passed its test by then. -/
theorem Poking.Refusing.start (atLeast : 2 ≤ threshold.toNat)
    (room : reading threshold 1 < 2 ^ 64) :
    ∃ next : Poking Bool, (poking Bool threshold).Reachable next ∧
      next.Refusing threshold 0 false := by
  have isSet : threshold ≠ 0 := by
    intro isZero
    rw [isZero] at atLeast
    exact absurd atLeast (by decide)
  have once : reading threshold 1 = reading threshold 0 + (threshold.toNat - 1) := reading_succ 0
  have zeroth : reading threshold 0 = threshold.toNat := by
    unfold reading
    rw [Nat.zero_mul, Nat.add_zero]
  have waited : ∀ late, reading threshold 0 ≤ late → late < 2 ^ 64 →
      threshold ≤ BitVec.ofNat 64 late - 0 := by
    intro late enough inTime
    exact (threshold_le_sub inTime (Nat.zero_le late)).mpr (by omega)
  have clock : 0 + threshold.toNat + (threshold.toNat - 1) = reading threshold 1 := by omega
  have boots : (poking Bool threshold).Reachable neverPoked :=
    ⟨neverPoked, [], neverPoked_initial, .nil _⟩
  have ticked := Poking.reachable_tick boots threshold.toNat
    (show 0 + threshold.toNat < 2 ^ 64 by omega)
  have called := Poking.reachable_call ticked isSet true rfl
  have passed := Poking.reachable_pass called true Poking.setCall_self
    (waited (0 + threshold.toNat) (by omega) (by omega))
  have ticked' := Poking.reachable_tick passed (threshold.toNat - 1)
    (show 0 + threshold.toNat + (threshold.toNat - 1) < 2 ^ 64 by rw [clock]; exact room)
  have called' := Poking.reachable_call ticked' isSet false rfl
  have passed' := Poking.reachable_pass called' false Poking.setCall_self
    (waited (0 + threshold.toNat + (threshold.toNat - 1)) (by omega) (by rw [clock]; exact room))
  have exchanged := Poking.reachable_exchange passed' true rfl
  refine ⟨_, exchanged, ?_, clock, ?_, ⟨_, rfl⟩, ?_⟩
  · show BitVec.ofNat 64 (0 + threshold.toNat) = .ofNat 64 (reading threshold 0)
    rw [zeroth, Nat.zero_add]
  · rw [← clock]
    rfl
  · have pokes := waited (0 + threshold.toNat) (by omega) (by omega)
    have isThreshold : BitVec.ofNat 64 (0 + threshold.toNat) = threshold := by
      rw [Nat.zero_add, BitVec.ofNat_toNat, BitVec.setWidth_eq]
    show [(⟨BitVec.ofNat 64 (0 + threshold.toNat),
      decide (threshold ≤ BitVec.ofNat 64 (0 + threshold.toNat) - 0)⟩ : PokeExchange)] = _
    rw [decide_eq_true pokes, isThreshold]
    rfl

/-- Two CPUs whose calls overlap can starve a child: the oldest exchange is a poke, and each of the
`n` after it is refused, although its reading of the clock is a threshold less a microsecond after
the one before. -/
theorem pokes_starve (atLeast : 2 ≤ threshold.toNat) (n : Nat)
    (room : (n + 2) * threshold.toNat < 2 ^ 64) :
    ∃ state : Poking Bool, (poking Bool threshold).Reachable state ∧
      state.exchanges =
        (List.range n).reverse.map (fun k =>
          ⟨.ofNat 64 (threshold.toNat + (k + 1) * (threshold.toNat - 1)), false⟩) ++
          [⟨threshold, true⟩] ∧
      state.clock = threshold.toNat + (n + 1) * (threshold.toNat - 1) := by
  have inTime : ∀ k, k ≤ n + 1 → reading threshold k < 2 ^ 64 := by
    intro k few
    have atMost : reading threshold k ≤ (n + 2) * threshold.toNat := by
      calc threshold.toNat + k * (threshold.toNat - 1)
          ≤ threshold.toNat + (n + 1) * threshold.toNat :=
            Nat.add_le_add_left (Nat.mul_le_mul few (Nat.sub_le ..)) _
        _ = (n + 2) * threshold.toNat := by ring
    exact atMost.trans_lt room
  have refuses : ∀ k, k ≤ n → ∃ state : Poking Bool, (poking Bool threshold).Reachable state ∧
      ∃ caller, state.Refusing threshold k caller := by
    intro k
    induction k with
    | zero =>
        intro few
        obtain ⟨state, reachable, refusing⟩ := Poking.Refusing.start atLeast (inTime 1 (by omega))
        exact ⟨state, reachable, false, refusing⟩
    | succ k ih =>
        intro few
        obtain ⟨state, reachable, caller, refusing⟩ := ih (Nat.le_of_succ_le few)
        obtain ⟨next, reachable', refusing'⟩ :=
          refusing.round reachable atLeast (inTime (k + 2) (by omega))
        exact ⟨next, reachable', !caller, refusing'⟩
  obtain ⟨state, reachable, caller, refusing⟩ := refuses n le_rfl
  exact ⟨state, reachable, refusing.exchanges, refusing.clock⟩

end Starvation

theorem pokes_starve_thrice :
    ∃ state : Poking Bool, (poking Bool 10).Reachable state ∧
      state.exchanges = [⟨37, false⟩, ⟨28, false⟩, ⟨19, false⟩, ⟨10, true⟩] ∧ state.clock = 46 :=
  pokes_starve (by decide) 3 (by decide)

end Ghost.Flux
