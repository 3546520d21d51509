import Ghost.Lib.Machine

/-!
# Interleavings

Any number of threads take turns on a shared state, one atomic access at a time.
An access sees the shared state and the local state of its own thread.
-/

set_option autoImplicit false

namespace Ghost.Lib

structure Threads (Thread Shared Local : Type) where
  shared : Shared
  locals : Thread → Local

/-- The machine of all interleavings of the accesses that `access` allows. -/
def interleaving {Thread Shared Local Action : Type}
    (initial : Threads Thread Shared Local → Prop)
    (access : Shared → Local → Action → Shared → Local → Prop) :
    Machine (Threads Thread Shared Local) (Thread × Action) where
  initial := initial
  step state label next :=
    access state.shared (state.locals label.1) label.2 next.shared (next.locals label.1) ∧
      ∀ other, other ≠ label.1 → next.locals other = state.locals other

variable {Thread Shared Local Action : Type} {initial : Threads Thread Shared Local → Prop}
  {access : Shared → Local → Action → Shared → Local → Prop}

/-- A thread that takes no step stays where it is. -/
theorem interleaving_locals {first last : Threads Thread Shared Local}
    {labels : List (Thread × Action)} {thread : Thread}
    (run : (interleaving initial access).Run first labels last)
    (apart : ∀ label ∈ labels, label.1 ≠ thread) : last.locals thread = first.locals thread := by
  induction run with
  | nil => rfl
  | cons moved _ ih =>
      have others := moved.2 thread (apart _ List.mem_cons_self).symm
      exact (ih fun label member => apart label (List.mem_cons_of_mem _ member)).trans others

end Ghost.Lib
