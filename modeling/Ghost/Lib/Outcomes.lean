import Mathlib.Tactic

/-!
# Computations that succeed

Total correctness of fallible computations: one returns, and its result satisfies
a postcondition. The rules follow the way such computations are composed.
-/

set_option autoImplicit false

namespace Ghost.Lib

variable {Fault Value Result : Type}

def Succeeds (outcome : Except Fault Value) (Post : Value → Prop) : Prop :=
  ∃ value, outcome = .ok value ∧ Post value

namespace Succeeds

variable {outcome : Except Fault Value} {Post Weaker : Value → Prop} {value : Value}

theorem ok (holds : Post value) : Succeeds (Except.ok value : Except Fault Value) Post := ⟨value, rfl, holds⟩

theorem of_eq (returns : outcome = .ok value) (holds : Post value) : Succeeds outcome Post :=
  ⟨value, returns, holds⟩

theorem mono (succeeds : Succeeds outcome Post) (implies : ∀ value, Post value → Weaker value) :
    Succeeds outcome Weaker := by
  obtain ⟨value, returns, holds⟩ := succeeds
  exact ⟨value, returns, implies value holds⟩

theorem bind {continuation : Value → Except Fault Result} {After : Result → Prop}
    (first : Succeeds outcome Post)
    (second : ∀ value, Post value → Succeeds (continuation value) After) :
    Succeeds (outcome >>= continuation) After := by
  obtain ⟨value, returns, holds⟩ := first
  rw [returns]
  exact second value holds

theorem bind_of_eq {continuation : Value → Except Fault Result} {After : Result → Prop}
    (returns : outcome = .ok value) (second : Succeeds (continuation value) After) :
    Succeeds (outcome >>= continuation) After := by
  rw [returns]
  exact second

theorem elim (succeeds : Succeeds outcome Post) (returns : outcome = .ok value) : Post value := by
  obtain ⟨value', returns', holds⟩ := succeeds
  cases returns.symm.trans returns'
  exact holds

instance [DecidablePred Post] : Decidable (Succeeds outcome Post) :=
  decidable_of_iff ((outcome.toOption.any fun value => decide (Post value)) = true) (by
    cases outcome with
    | error fault => simp [Succeeds, Except.toOption]
    | ok value => simp [Succeeds, Except.toOption])

end Succeeds

/-! ## Results of sequences and loops -/

section Results

variable {Input : Type}

theorem bind_eq_ok_iff {source : Except Fault Value} {continuation : Value → Except Fault Result}
    {result : Result} : (source >>= continuation) = .ok result ↔
      ∃ value, source = .ok value ∧ continuation value = .ok result := by
  cases source with
  | error fault => simp [bind, Except.bind]
  | ok value => simp [bind, Except.bind]

theorem forM_eq_ok_iff {inputs : List Input} {action : Input → Except Fault Unit} :
    inputs.forM action = .ok () ↔ ∀ input ∈ inputs, action input = .ok () := by
  induction inputs with
  | nil => simp [pure, Except.pure]
  | cons input inputs ih =>
      change (action input >>= fun _ => inputs.forM action) = _ ↔ _
      rw [bind_eq_ok_iff, List.forall_mem_cons, ← ih]
      constructor
      · rintro ⟨⟨⟩, first, rest⟩
        exact ⟨first, rest⟩
      · rintro ⟨first, rest⟩
        exact ⟨(), first, rest⟩

theorem mapM_eq_ok_iff {inputs : List Input} {action : Input → Except Fault Value}
    {values : List Value} : inputs.mapM action = .ok values ↔
      List.Forall₂ (fun input value => action input = .ok value) inputs values := by
  induction inputs generalizing values with
  | nil =>
      rw [List.mapM_nil, List.forall₂_nil_left_iff]
      constructor
      · intro same
        exact (Except.ok.inj same).symm
      · intro same
        rw [same]
        rfl
  | cons input inputs ih =>
      rw [List.mapM_cons, bind_eq_ok_iff, List.forall₂_cons_left_iff]
      constructor
      · rintro ⟨value, first, rest⟩
        obtain ⟨values', rest', same⟩ := bind_eq_ok_iff.mp rest
        exact ⟨value, values', first, ih.mp rest', (Except.ok.inj same).symm⟩
      · rintro ⟨value, values', first, rest, rfl⟩
        exact ⟨value, first, bind_eq_ok_iff.mpr ⟨values', ih.mpr rest, rfl⟩⟩

theorem Succeeds.mapM {inputs : List Input} {action : Input → Except Fault Value}
    {Related : Input → Value → Prop}
    (each : ∀ input ∈ inputs, Succeeds (action input) (Related input)) :
    Succeeds (inputs.mapM action) fun values => List.Forall₂ Related inputs values := by
  induction inputs with
  | nil => exact .of_eq List.mapM_nil .nil
  | cons input inputs ih =>
      rw [List.mapM_cons]
      apply (each input List.mem_cons_self).bind
      intro value related
      apply (ih fun other member => each other (List.mem_cons_of_mem _ member)).bind
      intro values rest
      exact .ok (.cons related rest)

/-- A loop over a state: what each round keeps, with the inputs so far, the loop keeps. -/
theorem foldlM_invariant {State : Type} {action : State → Input → Except Fault State}
    {Inv : List Input → State → Prop}
    (each : ∀ done input state next, Inv done state → action state input = .ok next →
      Inv (done ++ [input]) next)
    {inputs done : List Input} {state final : State} (starts : Inv done state)
    (returns : inputs.foldlM action state = .ok final) : Inv (done ++ inputs) final := by
  induction inputs generalizing done state with
  | nil =>
      cases returns
      rw [List.append_nil]
      exact starts
  | cons input inputs ih =>
      rw [List.foldlM_cons, bind_eq_ok_iff] at returns
      obtain ⟨next, first, rest⟩ := returns
      have kept := ih (each done input state next starts first) rest
      rwa [List.append_assoc] at kept

end Results

end Ghost.Lib
