import Mathlib.Data.Nat.Digits.Lemmas
import Mathlib.Tactic

/-!
# Numerals

Numbers written in a base of at most sixteen, the most significant digit first and
without leading zeros: how another digit extends a numeral, and that reading the
digits gives the number back.
-/

set_option autoImplicit false

namespace Ghost.Lib

def digitValue (digit : Char) : Nat :=
  if digit.isDigit then digit.toNat - '0'.toNat else digit.toNat - 'a'.toNat + 10

def readNumeral (base : Nat) (text : List Char) : Nat :=
  text.foldl (fun n digit => base * n + digitValue digit) 0

/-- Zero has no digits. -/
def numeral (base n : Nat) : List Char := (Nat.digits base n).reverse.map Nat.digitChar

variable {base n d : Nat}

@[simp] theorem numeral_zero : numeral base 0 = [] := by
  unfold numeral
  rw [Nat.digits_zero]
  rfl

theorem digitValue_digitChar (small : d < 16) : digitValue (Nat.digitChar d) = d := by
  revert d
  decide

theorem readNumeral_concat (text : List Char) (digit : Char) :
    readNumeral base (text ++ [digit]) = base * readNumeral base text + digitValue digit := by
  unfold readNumeral
  rw [List.foldl_append]
  rfl

/-- Unless it would lead with a zero, a numeral is extended by its last digit. -/
theorem numeral_extend (large : 1 < base) (small : d < base) (nonzero : d ≠ 0 ∨ n ≠ 0) :
    numeral base (base * n + d) = numeral base n ++ [Nat.digitChar d] := by
  unfold numeral
  rw [Nat.add_comm, Nat.digits_add base large d n small nonzero, List.reverse_cons,
    List.map_append]
  rfl

theorem readNumeral_numeral (large : 1 < base) (few : base ≤ 16) (n : Nat) :
    readNumeral base (numeral base n) = n := by
  induction n using Nat.strong_induction_on with
  | h n ih =>
      by_cases zero : n = 0
      · rw [zero, numeral_zero]
        rfl
      · have smaller := ih (n / base) (Nat.div_lt_self (Nat.pos_of_ne_zero zero) large)
        have small : n % base < base := Nat.mod_lt n (by omega)
        have divided := Nat.div_add_mod n base
        have nonzero : n % base ≠ 0 ∨ n / base ≠ 0 := by
          by_contra both
          obtain ⟨noRest, noQuotient⟩ := not_or.mp both
          rw [not_not.mp noRest, not_not.mp noQuotient] at divided
          exact zero divided.symm
        have extended := numeral_extend large small nonzero
        rw [divided] at extended
        rw [extended, readNumeral_concat, smaller, digitValue_digitChar (small.trans_le few), divided]

theorem numeral_ne_nil (nonzero : n ≠ 0) : numeral base n ≠ [] := by
  unfold numeral
  rw [ne_eq, List.map_eq_nil_iff, List.reverse_eq_nil_iff]
  exact Nat.digits_ne_nil_iff_ne_zero.mpr nonzero

theorem mem_numeral (large : 1 < base) {digit : Char} (member : digit ∈ numeral base n) :
    ∃ d, d < base ∧ digit = Nat.digitChar d := by
  obtain ⟨d, isDigit, rfl⟩ := List.mem_map.mp member
  exact ⟨d, Nat.digits_lt_base large (List.mem_reverse.mp isDigit), rfl⟩

theorem numeral_head? (large : 1 < base) (nonzero : n ≠ 0) :
    ∃ d, 0 < d ∧ d < base ∧ (numeral base n).head? = some (Nat.digitChar d) := by
  have some' : Nat.digits base n ≠ [] := Nat.digits_ne_nil_iff_ne_zero.mpr nonzero
  refine ⟨(Nat.digits base n).getLast some', ?_, ?_, ?_⟩
  · exact Nat.pos_of_ne_zero (Nat.getLast_digit_ne_zero base nonzero)
  · exact Nat.digits_lt_base large (List.getLast_mem some')
  · unfold numeral
    rw [List.head?_map, List.head?_reverse, List.getLast?_eq_some_getLast some']
    rfl

end Ghost.Lib
