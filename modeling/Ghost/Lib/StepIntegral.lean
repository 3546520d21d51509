import Mathlib.Algebra.BigOperators.Group.Finset.Basic
import Mathlib.Algebra.Order.BigOperators.Group.Finset
import Mathlib.Tactic

/-!
# Integrals of step functions

A log of samples, newest first. Between two samples a rate has the value that it has at the
earlier one.
-/

set_option autoImplicit false

namespace Ghost.Lib

variable {Sample : Type} (time rate : Sample → Nat)

def integral : List Sample → Nat
  | later :: earlier :: log =>
      integral (earlier :: log) + rate earlier * (time later - time earlier)
  | _ => 0

@[simp]
theorem integral_nil : integral time rate [] = 0 := rfl

@[simp]
theorem integral_singleton (sample : Sample) : integral time rate [sample] = 0 := rfl

theorem integral_cons_cons (later earlier : Sample) (log : List Sample) :
    integral time rate (later :: earlier :: log) =
      integral time rate (earlier :: log) + rate earlier * (time later - time earlier) := rfl

variable {time rate} {log : List Sample}

theorem integral_le_cons (sample : Sample) :
    integral time rate log ≤ integral time rate (sample :: log) := by
  cases log with
  | nil => exact Nat.zero_le _
  | cons earlier log => exact Nat.le_add_right _ _

/-- While nothing is to be had, the integral stands. -/
theorem integral_cons_of_zero {sample : Sample} (idle : ∀ last ∈ log.head?, rate last = 0) :
    integral time rate (sample :: log) = integral time rate log := by
  cases log with
  | nil => rfl
  | cons earlier log =>
      rw [integral_cons_cons, idle earlier rfl, Nat.zero_mul, Nat.add_zero]

theorem integral_mono {rate' : Sample → Nat} (below : ∀ sample ∈ log, rate sample ≤ rate' sample) :
    integral time rate log ≤ integral time rate' log := by
  induction log with
  | nil => exact le_rfl
  | cons later log ih =>
      cases log with
      | nil => exact le_rfl
      | cons earlier log =>
          rw [integral_cons_cons, integral_cons_cons]
          apply Nat.add_le_add
          · exact ih fun sample member => below sample (List.mem_cons_of_mem _ member)
          · exact Nat.mul_le_mul_right _ (below earlier (by simp))

/-- What several parties have is the integral of what they get together. -/
theorem sum_integral {Party : Type} (parties : Finset Party) (share : Party → Sample → Nat) :
    ∑ party ∈ parties, integral time (share party) log =
      integral time (fun sample => ∑ party ∈ parties, share party sample) log := by
  induction log with
  | nil => exact Finset.sum_const_zero
  | cons later log ih =>
      cases log with
      | nil => exact Finset.sum_const_zero
      | cons earlier log =>
          simp only [integral_cons_cons, Finset.sum_add_distrib, ih, Finset.sum_mul]

/-! ## Clocks that do not run backwards -/

/-- Each sample is at most as early as the one before. -/
def Clocked (time : Sample → Nat) (log : List Sample) : Prop :=
  log.IsChain fun later earlier => time earlier ≤ time later

theorem Clocked.cons {sample : Sample} (clocked : Clocked time log)
    (after : ∀ last ∈ log.head?, time last ≤ time sample) : Clocked time (sample :: log) := by
  cases log with
  | nil => exact .singleton sample
  | cons earlier log => exact .cons_cons (after earlier rfl) clocked

/-- A rate that never exceeds a capacity gives at most the capacity times what has elapsed. -/
theorem integral_add_le {capacity : Nat} {first last : Sample}
    (bounded : ∀ sample ∈ log, rate sample ≤ capacity) (clocked : Clocked time log)
    (isFirst : log.getLast? = some first) (isLast : log.head? = some last) :
    integral time rate log + capacity * time first ≤ capacity * time last := by
  induction log generalizing last with
  | nil => cases isLast
  | cons later log ih =>
      cases isLast
      cases log with
      | nil =>
          cases isFirst
          exact (Nat.zero_add _).le
      | cons earlier log =>
          obtain ⟨ordered, clockedBefore⟩ := List.isChain_cons_cons.mp clocked
          have before := ih (fun sample member => bounded sample (List.mem_cons_of_mem _ member))
            clockedBefore (by simpa using isFirst) rfl
          have interval : rate earlier * (time later - time earlier) ≤
              capacity * (time later - time earlier) :=
            Nat.mul_le_mul_right _ (bounded earlier (by simp))
          calc integral time rate (later :: earlier :: log) + capacity * time first
              = integral time rate (earlier :: log) + capacity * time first +
                  rate earlier * (time later - time earlier) := Nat.add_right_comm _ _ _
            _ ≤ capacity * time earlier + capacity * (time later - time earlier) :=
              Nat.add_le_add before interval
            _ = capacity * time later := by
              rw [← Nat.mul_add, Nat.add_sub_cancel' ordered]

end Ghost.Lib
