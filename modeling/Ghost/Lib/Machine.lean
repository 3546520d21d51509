import Mathlib.Tactic

/-!
# Transition systems

Labelled machines, their runs, and the induction rules that turn what one step
preserves into what every run preserves.
-/

set_option autoImplicit false

namespace Ghost.Lib

/-- A labelled transition system. Labels carry the inputs and the outputs of a
step, so two machines with the same runs agree on everything observable. -/
structure Machine (State Label : Type) where
  initial : State → Prop
  step : State → Label → State → Prop

namespace Machine

variable {State Label : Type} (machine : Machine State Label)

inductive Run : State → List Label → State → Prop
  | nil (state : State) : Run state [] state
  | cons {first next last : State} {label : Label} {labels : List Label} :
      machine.step first label next → Run next labels last → Run first (label :: labels) last

def Reachable (state : State) : Prop :=
  ∃ first labels, machine.initial first ∧ machine.Run first labels state

variable {machine}

theorem Run.append {first middle last : State} {front back : List Label}
    (frontRun : machine.Run first front middle) (backRun : machine.Run middle back last) :
    machine.Run first (front ++ back) last := by
  induction frontRun with
  | nil => exact backRun
  | cons moved _ ih => exact .cons moved (ih backRun)

/-- A property that every step preserves holds at the end of every run. -/
theorem Run.invariant (Good : State → Prop)
    (preserved : ∀ state label next, Good state → machine.step state label next → Good next)
    {first last : State} {labels : List Label} (run : machine.Run first labels last)
    (good : Good first) : Good last := by
  induction run with
  | nil => exact good
  | cons moved _ ih => exact ih (preserved _ _ _ good moved)

theorem Reachable.invariant (Good : State → Prop)
    (established : ∀ state, machine.initial state → Good state)
    (preserved : ∀ state label next, Good state → machine.step state label next → Good next)
    {state : State} (reachable : machine.Reachable state) : Good state := by
  obtain ⟨first, labels, starts, run⟩ := reachable
  exact run.invariant Good preserved (established first starts)

theorem Reachable.step {state next : State} {label : Label} (reachable : machine.Reachable state)
    (moved : machine.step state label next) : machine.Reachable next := by
  obtain ⟨first, labels, starts, run⟩ := reachable
  exact ⟨first, labels ++ [label], starts, run.append (.cons moved (.nil next))⟩

/-- Where there is always a step that leaves less work, some run gets to the goal. -/
theorem Run.exists_of_work {Good Goal : State → Prop} (work : State → Nat)
    (progress : ∀ state, Good state → ¬Goal state → ∃ label next,
      machine.step state label next ∧ Good next ∧ work next < work state)
    {state : State} (good : Good state) :
    ∃ labels last, machine.Run state labels last ∧ Good last ∧ Goal last := by
  induction left : work state using Nat.strong_induction_on generalizing state with
  | _ left ih =>
      by_cases done : Goal state
      · exact ⟨[], state, .nil state, good, done⟩
      · obtain ⟨label, next, moved, good', less⟩ := progress state good done
        obtain ⟨labels, last, run, reached⟩ := ih (work next) (left ▸ less) good' rfl
        exact ⟨label :: labels, last, .cons moved run, reached⟩

/-- A machine whose labels leave no choice ends every labelled run in one state. -/
theorem Run.unique
    (deterministic : ∀ state label next next', machine.step state label next →
      machine.step state label next' → next = next')
    {first last last' : State} {labels : List Label} (run : machine.Run first labels last)
    (run' : machine.Run first labels last') : last = last' := by
  induction run with
  | nil => cases run'; rfl
  | cons moved _ ih =>
      cases run' with
      | cons moved' rest' =>
          obtain rfl := deterministic _ _ _ _ moved moved'
          exact ih rest'

/-- The runs in which every step is of a given kind. -/
def restrict (machine : Machine State Label) (Allowed : State → Label → Prop) :
    Machine State Label where
  initial := machine.initial
  step state label next := Allowed state label ∧ machine.step state label next

theorem Run.of_restrict {Allowed : State → Label → Prop} {first last : State}
    {labels : List Label} (run : (machine.restrict Allowed).Run first labels last) :
    machine.Run first labels last := by
  induction run with
  | nil => exact .nil _
  | cons moved _ ih => exact .cons moved.2 ih

theorem Reachable.of_restrict {Allowed : State → Label → Prop} {state : State}
    (reachable : (machine.restrict Allowed).Reachable state) : machine.Reachable state := by
  obtain ⟨first, labels, starts, run⟩ := reachable
  exact ⟨first, labels, starts, run.of_restrict⟩

/-- The machine that also keeps the labels of its run, newest first. -/
def recorded (machine : Machine State Label) : Machine (State × List Label) Label where
  initial state := machine.initial state.1 ∧ state.2 = []
  step state label next := machine.step state.1 label next.1 ∧ next.2 = label :: state.2

/-- Lockstep simulation: a related state can take every labelled step. -/
theorem Run.simulate {State' : Type} {other : Machine State' Label}
    {Related : State → State' → Prop}
    (matched : ∀ state label next state', Related state state' → machine.step state label next →
      ∃ next', other.step state' label next' ∧ Related next next')
    {first last : State} {labels : List Label} (run : machine.Run first labels last)
    {first' : State'} (related : Related first first') :
    ∃ last', other.Run first' labels last' ∧ Related last last' := by
  induction run generalizing first' with
  | nil => exact ⟨first', .nil first', related⟩
  | cons moved _ ih =>
      obtain ⟨next', moved', related'⟩ := matched _ _ _ _ related moved
      obtain ⟨last', run', related''⟩ := ih related'
      exact ⟨last', .cons moved' run', related''⟩

/-- Replaying labels with a step function yields a run. -/
theorem Run.of_foldlM {Error : Type} {perform : State → Label → Except Error State}
    (performed : ∀ state label next, perform state label = .ok next →
      machine.step state label next)
    {labels : List Label} {first last : State}
    (replayed : labels.foldlM perform first = .ok last) : machine.Run first labels last := by
  induction labels generalizing first with
  | nil =>
      cases replayed
      exact .nil _
  | cons label labels ih =>
      rw [List.foldlM_cons] at replayed
      cases outcome : perform first label with
      | error failure =>
          rw [outcome] at replayed
          cases replayed
      | ok next =>
          rw [outcome] at replayed
          exact .cons (performed first label next outcome) (ih replayed)

theorem Run.of_foldlM_some {perform : State → Label → Option State}
    (performed : ∀ state label next, perform state label = some next →
      machine.step state label next)
    {labels : List Label} {first last : State}
    (replayed : labels.foldlM perform first = some last) : machine.Run first labels last := by
  induction labels generalizing first with
  | nil =>
      cases replayed
      exact .nil _
  | cons label labels ih =>
      rw [List.foldlM_cons, Option.bind_eq_bind, Option.bind_eq_some_iff] at replayed
      obtain ⟨next, outcome, later⟩ := replayed
      exact .cons (performed first label next outcome) (ih later)

/-- A replay whose end passes a test. -/
theorem Run.exists_of_any {perform : State → Label → Option State} {test : State → Bool}
    (performed : ∀ state label next, perform state label = some next →
      machine.step state label next)
    {labels : List Label} {first : State}
    (passed : (labels.foldlM perform first).any test = true) :
    ∃ last, machine.Run first labels last ∧ test last = true := by
  obtain ⟨last, replayed, holds⟩ := (Option.any_eq_true _ _).mp passed
  exact ⟨last, .of_foldlM_some performed replayed, holds⟩

theorem Run.restrict_mono {Allowed Allowed' : State → Label → Prop}
    (weaker : ∀ state label, Allowed state label → Allowed' state label)
    {first last : State} {labels : List Label}
    (run : (machine.restrict Allowed).Run first labels last) :
    (machine.restrict Allowed').Run first labels last := by
  induction run with
  | nil => exact .nil _
  | cons moved _ ih => exact .cons ⟨weaker _ _ moved.1, moved.2⟩ ih

theorem Run.restrict {Allowed : State → Label → Prop} {first last : State} {labels : List Label}
    (run : machine.Run first labels last)
    (allowed : ∀ label ∈ labels, ∀ state, Allowed state label) :
    (machine.restrict Allowed).Run first labels last := by
  induction run with
  | nil => exact .nil _
  | cons moved _ ih =>
      exact .cons ⟨allowed _ List.mem_cons_self _, moved⟩
        (ih fun label member => allowed label (List.mem_cons_of_mem _ member))

end Machine

end Ghost.Lib
