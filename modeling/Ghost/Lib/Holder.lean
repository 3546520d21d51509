import Mathlib.Tactic

/-!
# One holder at a time

A resource that somebody else keeps track of, and the parties that take themselves to hold it.
-/

set_option autoImplicit false

namespace Ghost.Lib

variable {Party : Type} {holder : Option Party} {Claims Claims' : Party → Prop}
  {party other : Party}

/-- The holder, if there is one, is the only party that claims the resource. -/
def Held (holder : Option Party) (Claims : Party → Prop) : Prop :=
  ∀ party, holder = some party ↔ Claims party

namespace Held

theorem unique (held : Held holder Claims) (claims : Claims party) (claims' : Claims other) :
    party = other :=
  Option.some.inj (((held party).mpr claims).symm.trans ((held other).mpr claims'))

theorem none (nobody : ∀ party, ¬Claims party) : Held Option.none Claims :=
  fun party => iff_of_false (Option.some_ne_none party).symm (nobody party)

theorem frame (held : Held holder Claims) (same : ∀ party, Claims' party ↔ Claims party) :
    Held holder Claims' :=
  fun party => (held party).trans (same party).symm

/-- Nobody held it, and one party does now. -/
theorem acquire (held : Held holder Claims) (free : holder = Option.none) (claims : Claims' party)
    (others : ∀ other, other ≠ party → (Claims' other ↔ Claims other)) :
    Held (some party) Claims' := by
  intro other
  constructor
  · intro same
    exact Option.some.inj same ▸ claims
  · intro claims'
    by_contra different
    have before := (others other fun same => different (same ▸ rfl)).mp claims'
    rw [free] at held
    cases (held other).mpr before

/-- The holder gives it up. -/
theorem release (held : Held holder Claims) (claims : Claims party) (gone : ¬Claims' party)
    (others : ∀ other, other ≠ party → (Claims' other ↔ Claims other)) :
    Held Option.none Claims' := by
  apply none
  intro other claims'
  by_cases same : other = party
  · exact gone (same ▸ claims')
  · exact same (held.unique ((others other same).mp claims') claims)

end Held

end Ghost.Lib
