import Mathlib.Data.Nat.Bitwise
import Mathlib.Logic.Function.Iterate
import Mathlib.Tactic

/-!
# Set bits of a word

The set bits of a word as an ascending list, and what counting them, finding the
lowest and clearing the lowest mean for that list. Last, words without their low bits.
-/

set_option autoImplicit false

namespace Ghost.Lib

/-- A search from `start` that first succeeds at `found`. -/
theorem filter_range'_first {p : Nat → Bool} {start stop found : Nat} (after : start ≤ found)
    (before : found < stop) (none : ∀ i, start ≤ i → i < found → p i = false)
    (holds : p found = true) :
    (List.range' start (stop - start)).filter p =
      found :: (List.range' (found + 1) (stop - (found + 1))).filter p := by
  have split : List.range' start (stop - start) =
      List.range' start (found - start) ++ found :: List.range' (found + 1) (stop - (found + 1)) := by
    obtain ⟨skip, rfl⟩ := Nat.exists_eq_add_of_le after
    obtain ⟨rest, rfl⟩ := Nat.exists_eq_add_of_lt before
    have joined := @List.range'_append_1 start skip (rest + 1)
    rw [List.range'_succ] at joined
    rw [show start + skip - start = skip by omega,
      show start + skip + rest + 1 - (start + skip + 1) = rest by omega,
      show start + skip + rest + 1 - start = skip + (rest + 1) by omega]
    exact joined.symm
  have skipped : (List.range' start (found - start)).filter p = [] := by
    rw [List.filter_eq_nil_iff]
    intro i member
    obtain ⟨j, inRange, rfl⟩ := List.mem_range'.mp member
    rw [none _ (by omega) (by omega)]
    exact Bool.false_ne_true
  rw [split, List.filter_append, skipped, List.nil_append, List.filter_cons_of_pos holds]

theorem filter_range'_none {p : Nat → Bool} {start stop : Nat}
    (none : ∀ i, start ≤ i → i < stop → p i = false) :
    (List.range' start (stop - start)).filter p = [] := by
  rw [List.filter_eq_nil_iff]
  intro i member
  obtain ⟨j, inRange, rfl⟩ := List.mem_range'.mp member
  rw [none _ (by omega) (by omega)]
  exact Bool.false_ne_true

variable {width : Nat} {word : BitVec width}

/-- The set bits in ascending order. -/
def setBits (word : BitVec width) : List Nat := (List.range width).filter word.getLsbD

@[simp] theorem mem_setBits {bit : Nat} : bit ∈ setBits word ↔ word.getLsbD bit = true := by
  unfold setBits
  rw [List.mem_filter, List.mem_range]
  constructor
  · intro member
    exact member.2
  · intro set
    exact ⟨BitVec.lt_of_getLsbD set, set⟩

theorem length_setBits (word : BitVec width) : (setBits word).length = word.cpop.toNat := by
  have counted : ∀ count, ((List.range count).filter word.getLsbD).length =
      word.cpopNatRec count 0 := by
    intro count
    induction count with
    | zero => rfl
    | succ count ih =>
        rw [List.range_succ, List.filter_append, List.length_append, ih, BitVec.cpopNatRec_succ,
          BitVec.cpopNatRec_eq (0 + _), Nat.zero_add]
        cases set : word.getLsbD count <;> simp [set]
  rw [BitVec.toNat_cpop]
  exact counted width

/-- `word & (word - 1)`. -/
def clearLowest (word : BitVec width) : BitVec width := word &&& (word - 1)

theorem ctz_lt (nonzero : word ≠ 0) : word.ctz.toNat < width :=
  BitVec.lt_of_getLsbD (BitVec.getLsbD_true_ctz_of_ne_zero nonzero)

/-- Subtracting one clears the lowest set bit and leaves the ones above it. -/
theorem getLsbD_clearLowest (nonzero : word ≠ 0) (bit : Nat) :
    (clearLowest word).getLsbD bit = (word.getLsbD bit && decide (word.ctz.toNat < bit)) := by
  have below : ∀ i, i < word.ctz.toNat → word.toNat.testBit i = false :=
    fun i => BitVec.getLsbD_false_of_lt_ctz
  have lowest : word.toNat.testBit word.ctz.toNat = true :=
    BitVec.getLsbD_true_ctz_of_ne_zero nonzero
  generalize word.ctz.toNat = low at below lowest
  have positive : 1 ≤ word.toNat := Nat.one_le_iff_ne_zero.mpr fun zero => nonzero (by
    apply BitVec.eq_of_toNat_eq
    exact zero)
  have remainder : word.toNat % 2 ^ (low + 1) = 2 ^ low := by
    apply Nat.eq_of_testBit_eq
    intro i
    rw [Nat.testBit_mod_two_pow, Nat.testBit_two_pow]
    rcases lt_trichotomy i low with less | equal | more
    · rw [below i less, Bool.and_false, decide_eq_false (by omega)]
    · subst equal
      simp [lowest]
    · rw [decide_eq_false (by omega), decide_eq_false (by omega), Bool.false_and]
  have decomposed := Nat.div_add_mod word.toNat (2 ^ (low + 1))
  rw [remainder] at decomposed
  have predecessor : word.toNat - 1 =
      2 ^ (low + 1) * (word.toNat / 2 ^ (low + 1)) + (2 ^ low - 1) := by
    have power := Nat.two_pow_pos low
    omega
  have small : 2 ^ low - 1 < 2 ^ (low + 1) := by
    rw [Nat.pow_succ]
    have power := Nat.two_pow_pos low
    omega
  have minus : (word - 1).toNat = word.toNat - 1 := by
    have wide : 0 < width :=
       Nat.zero_lt_of_lt (BitVec.lt_of_getLsbD lowest)
    have one : (1 : BitVec width).toNat = 1 := BitVec.toNat_one wide
    rw [BitVec.toNat_sub_of_le (BitVec.le_def.mpr (one.le.trans positive)), one]
  have above : (word.toNat / 2 ^ (low + 1)).testBit (bit - (low + 1)) =
      word.toNat.testBit (low + 1 + (bit - (low + 1))) := by
    rw [Nat.testBit_div_two_pow, Nat.add_comm]
  have same : (word - 1).getLsbD bit = (word.toNat - 1).testBit bit := congrArg (·.testBit bit) minus
  have this : word.getLsbD bit = word.toNat.testBit bit := rfl
  unfold clearLowest
  rw [BitVec.getLsbD_and, same, predecessor, Nat.testBit_two_pow_mul_add _ small, above, this]
  rcases lt_trichotomy bit low with less | equal | more
  · rw [below bit less, Bool.false_and, Bool.false_and]
  · subst equal
    rw [if_pos (Nat.lt_succ_self bit), Nat.testBit_two_pow_sub_one]
  · rw [if_neg (by omega), Nat.add_sub_cancel' more, decide_eq_true more, Bool.and_self,
      Bool.and_true]

/-- The lowest set bit comes first, and clearing it leaves the others. -/
theorem setBits_of_ne_zero (nonzero : word ≠ 0) :
    setBits word = word.ctz.toNat :: setBits (clearLowest word) := by
  have first : setBits word = word.ctz.toNat ::
      (List.range' (word.ctz.toNat + 1) (width - (word.ctz.toNat + 1))).filter word.getLsbD := by
    unfold setBits
    rw [List.range_eq_range']
    exact filter_range'_first (Nat.zero_le _) (ctz_lt nonzero)
      (fun i _ below => BitVec.getLsbD_false_of_lt_ctz below)
      (BitVec.getLsbD_true_ctz_of_ne_zero nonzero)
  have rest : setBits (clearLowest word) =
      (List.range' (word.ctz.toNat + 1) (width - (word.ctz.toNat + 1))).filter word.getLsbD := by
    have split := @List.range'_append_1 0 (word.ctz.toNat + 1) (width - (word.ctz.toNat + 1))
    rw [Nat.zero_add, Nat.add_sub_cancel' (ctz_lt nonzero)] at split
    unfold setBits
    rw [List.range_eq_range', ← split, List.filter_append]
    have cleared : ∀ i, 0 ≤ i → i < word.ctz.toNat + 1 →
        (clearLowest word).getLsbD i = false := by
      intro i _ low
      rw [getLsbD_clearLowest nonzero, decide_eq_false (by omega), Bool.and_false]
    have skipped := filter_range'_none cleared
    rw [Nat.sub_zero] at skipped
    rw [skipped, List.nil_append]
    apply List.filter_congr
    intro i member
    obtain ⟨j, inRange, rfl⟩ := List.mem_range'.mp member
    rw [getLsbD_clearLowest nonzero, decide_eq_true (by omega), Bool.and_true]
  rw [first, rest]

@[simp] theorem setBits_zero : setBits (0 : BitVec width) = [] := by
  rw [List.eq_nil_iff_forall_not_mem]
  intro bit member
  rw [mem_setBits] at member
  simp at member

theorem setBits_eq_nil_iff : setBits word = [] ↔ word = 0 := by
  constructor
  · intro empty
    by_contra nonzero
    rw [setBits_of_ne_zero nonzero] at empty
    cases empty
  · intro zero
    rw [zero, setBits_zero]

/-- Clearing the lowest bit again and again drops the front of the list. -/
theorem setBits_clearLowest_iterate (word : BitVec width) (count : Nat) :
    setBits (clearLowest^[count] word) = (setBits word).drop count := by
  induction count generalizing word with
  | zero => rfl
  | succ count ih =>
      rw [Function.iterate_succ_apply, ih]
      by_cases zero : word = 0
      · have unchanged : clearLowest word = 0 := by
          rw [zero]
          exact BitVec.zero_and
        rw [unchanged, zero, setBits_zero, List.drop_nil, List.drop_nil]
      · rw [setBits_of_ne_zero zero, List.drop_succ_cons]

/-! ## Rounding down -/

theorem getLsbD_twoPow_sub_one {bits : Nat} (inside : bits < width) (bit : Nat) :
    (BitVec.twoPow width bits - 1).getLsbD bit = decide (bit < bits) := by
  have less : 2 ^ bits < 2 ^ width := Nat.pow_lt_pow_right (by decide) inside
  have one : (1 : BitVec width).toNat = 1 := by
    rw [BitVec.ofNat_eq_ofNat, BitVec.toNat_ofNat]
    exact Nat.mod_eq_of_lt (Nat.one_lt_two_pow (by omega))
  have isOnes : (BitVec.twoPow width bits - 1).toNat = 2 ^ bits - 1 := by
    have power : (BitVec.twoPow width bits).toNat = 2 ^ bits := by
      rw [BitVec.toNat_twoPow]
      exact Nat.mod_eq_of_lt less
    rw [BitVec.toNat_sub_of_le (by rw [BitVec.le_def, one, power]; exact Nat.one_le_two_pow), power,
      one]
  rw [BitVec.getLsbD, isOnes, Nat.testBit_two_pow_sub_one]

/-- Masking out the low bits rounds down to a multiple of a power of two. -/
theorem toNat_and_not_twoPow_sub_one {bits : Nat} (inside : bits < width) (word : BitVec width) :
    (word &&& ~~~(BitVec.twoPow width bits - 1)).toNat = word.toNat / 2 ^ bits * 2 ^ bits := by
  have shifted : word &&& ~~~(BitVec.twoPow width bits - 1) = (word >>> bits) <<< bits := by
    apply BitVec.eq_of_getLsbD_eq
    intro bit inRange
    rw [BitVec.getLsbD_and, BitVec.getLsbD_not, getLsbD_twoPow_sub_one inside,
      BitVec.getLsbD_shiftLeft, BitVec.getLsbD_ushiftRight]
    by_cases low : bit < bits
    · simp [low]
    · simp [low, inRange, Nat.add_sub_cancel' (Nat.le_of_not_lt low)]
  rw [shifted, BitVec.toNat_shiftLeft, BitVec.toNat_ushiftRight, Nat.shiftLeft_eq,
    Nat.shiftRight_eq_div_pow]
  exact Nat.mod_eq_of_lt ((Nat.div_mul_le_self _ _).trans_lt word.isLt)

end Ghost.Lib
