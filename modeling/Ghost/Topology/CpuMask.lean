import Ghost.Topology.CpuSets
import Ghost.Lib.Numerals

/-!
# CPU mask texts

`CpuMaskStr` of `lib/topology.h`, which writes a CPU list the way Linux reads a
`cpumask`: hexadecimal digits from the highest CPU down, a comma before every group of
eight. The words of the bitmap lie in memory with their lowest byte first.
-/

set_option autoImplicit false

namespace Ghost.Topology

open Lib

namespace CpuMap

variable (map : CpuMap)

/-- The bytes of the words in use. -/
def numBytes : Nat := map.mapSize * 8

private theorem byte_word {i : Nat} (inRange : i < map.numBytes) : i / 8 < map.mapSize := by
  unfold numBytes at inRange
  omega

/-- `bitmap_bytes[i]`. -/
def byteAt (i : Nat) (inRange : i < map.numBytes) : BitVec 8 :=
  (map.getNthMap (i / 8) (map.byte_word inRange) >>> (8 * (i % 8))).setWidth 8

/-- The text so far, and whether it has a digit. -/
structure Emission where
  s : List Char := []
  emittedNibble : Bool := false

/-- A nibble is skipped while only zeros came before it. -/
def Emission.nibble (emission : Emission) (nibble : BitVec 8) : Emission :=
  if nibble ≠ 0 ∨ emission.emittedNibble = true then
    { s := emission.s ++ [Nat.digitChar nibble.toNat], emittedNibble := true }
  else emission

/-- The loop over the bytes below `left`, from the highest down. -/
def emitBytes : (left : Nat) → left ≤ map.numBytes → Emission → Emission
  | 0, _, emission => emission
  | i + 1, inRange, emission =>
      let byte := map.byteAt i inRange
      let emission := (emission.nibble (byte >>> 4)).nibble (byte &&& 0xf)
      emitBytes i (Nat.le_of_succ_le inRange) emission

/-- The loop that copies the digits, with a comma where the count has run out. -/
def insertCommas : List Char → Nat → List Char → List Char
  | [], _, ret => ret
  | c :: s, nibbleTilNextComma, ret =>
      if nibbleTilNextComma = 0 then insertCommas s 7 (ret ++ [',', c])
      else insertCommas s (nibbleTilNextComma - 1) (ret ++ [c])

def cpuMaskStr : List Char :=
  let s := (map.emitBytes map.numBytes le_rfl {}).s
  let nibbleTilNextComma := if s.length % 8 = 0 then 8 else s.length % 8
  let ret := insertCommas s nibbleTilNextComma []
  if ret.length ≠ 0 then ret else ['0']

/-! ## The number -/

/-- The number whose digits the bytes from `i` on are. -/
def valueFrom (i : Nat) : Nat :=
  if inRange : i < map.numBytes then 2 ^ 8 * valueFrom (i + 1) + (map.byteAt i inRange).toNat else 0
termination_by map.numBytes - i

variable {map}

private theorem testBit_byteAt {i j : Nat} (inRange : i < map.numBytes) (inByte : j < 8) :
    (map.byteAt i inRange).toNat.testBit j = map.isSet (8 * i + j) := by
  have split : 8 * i + j = i / 8 * kIntsBits + (8 * (i % 8) + j) := by
    unfold kIntsBits
    omega
  have inWord : 8 * (i % 8) + j < kIntsBits := by
    unfold kIntsBits
    omega
  rw [split, isSet_word (map.byte_word inRange) inWord]
  change (map.byteAt i inRange).getLsbD j = _
  unfold byteAt
  rw [BitVec.getLsbD_setWidth, BitVec.getLsbD_ushiftRight, decide_eq_true inByte, Bool.true_and]

/-- The bits of the number are the CPUs. -/
theorem testBit_valueFrom (i j : Nat) :
    (map.valueFrom i).testBit j = (decide (8 * i + j < 8 * map.numBytes) && map.isSet (8 * i + j)) := by
  induction i using valueFrom.induct map generalizing j with
  | case1 i inRange ih =>
      have small : (map.byteAt i inRange).toNat < 2 ^ 8 := (map.byteAt i inRange).isLt
      rw [valueFrom, dif_pos inRange, Nat.testBit_two_pow_mul_add _ small]
      by_cases inByte : j < 8
      · rw [if_pos inByte, testBit_byteAt inRange inByte, decide_eq_true (by omega), Bool.true_and]
      · rw [if_neg inByte, ih, show 8 * (i + 1) + (j - 8) = 8 * i + j by omega]
  | case2 i outOfRange =>
      rw [valueFrom, dif_neg outOfRange, Nat.zero_testBit, decide_eq_false (by omega), Bool.false_and]

private theorem testBit_value (within : map.Within) (id : Nat) :
    (map.valueFrom 0).testBit id = true ↔ id ∈ map.setCpus := by
  have words := map.numCpus_le_words
  have bounded := map.words_le
  rw [testBit_valueFrom, Nat.mul_zero, Nat.zero_add, Bool.and_eq_true, decide_eq_true_eq,
    mem_setCpus]
  unfold numBytes kIntsBits at *
  constructor
  · intro both
    exact ⟨within id (by omega) both.2, both.2⟩
  · intro both
    exact ⟨by omega, both.2⟩

/-! ## The digits -/

/-- The digits emitted so far are those of `n`. -/
structure Emission.Spells (emission : Emission) (n : Nat) : Prop where
  digits : emission.s = numeral 16 n
  emitted : emission.emittedNibble = true ↔ n ≠ 0

private theorem Emission.Spells.nibble {emission : Emission} {n : Nat} (spells : emission.Spells n)
    {nibble : BitVec 8} (small : nibble.toNat < 16) :
    (emission.nibble nibble).Spells (16 * n + nibble.toNat) := by
  have zero : nibble = 0 ↔ nibble.toNat = 0 := BitVec.toNat_eq
  unfold Emission.nibble
  split
  · next shown =>
      rw [spells.emitted, ne_eq, zero] at shown
      constructor
      · rw [numeral_extend (by decide) small shown, spells.digits]
      · simp only [true_iff]
        omega
  · next hidden =>
      rw [spells.emitted, ne_eq, zero] at hidden
      obtain ⟨isZero, noDigits⟩ := not_or.mp hidden
      have unchanged : 16 * n + nibble.toNat = n := by omega
      rw [unchanged]
      exact spells

private theorem emitBytes_spells {left : Nat} (inRange : left ≤ map.numBytes) {emission : Emission}
    (spells : emission.Spells (map.valueFrom left)) :
    (map.emitBytes left inRange emission).Spells (map.valueFrom 0) := by
  induction left generalizing emission with
  | zero => exact spells
  | succ i ih =>
      apply ih
      have bounded := (map.byteAt i inRange).isLt
      have high : (map.byteAt i inRange >>> 4).toNat = (map.byteAt i inRange).toNat / 16 := by
        rw [BitVec.toNat_ushiftRight, Nat.shiftRight_eq_div_pow]
      have low : (map.byteAt i inRange &&& 0xf).toNat = (map.byteAt i inRange).toNat % 16 := by
        rw [BitVec.toNat_and]
        exact Nat.and_two_pow_sub_one_eq_mod _ 4
      have both := (spells.nibble (show (map.byteAt i inRange >>> 4).toNat < 16 by omega)).nibble
        (show (map.byteAt i inRange &&& 0xf).toNat < 16 by omega)
      rw [high, low] at both
      have joined : 16 * (16 * map.valueFrom (i + 1) + (map.byteAt i inRange).toNat / 16) +
          (map.byteAt i inRange).toNat % 16 = map.valueFrom i := by
        rw [valueFrom.eq_def map i, dif_pos (show i < map.numBytes from inRange)]
        omega
      rw [joined] at both
      exact both

private theorem digits_spell :
    (map.emitBytes map.numBytes le_rfl {}).s = numeral 16 (map.valueFrom 0) := by
  have nothing : ({} : Emission).Spells (map.valueFrom map.numBytes) := by
    rw [valueFrom, dif_neg (Nat.lt_irrefl _)]
    constructor
    · rw [numeral_zero]
    · simp
  exact (emitBytes_spells le_rfl nothing).digits

/-! ## The commas -/

/-- Full groups, each after a comma. -/
def commaSeparated (groups : List (List Char)) : List Char := groups.flatMap fun group => ',' :: group

/-- The loop cuts the digits so that the groups after the first are full. -/
theorem insertCommas_groups {s : List Char} {nibbleTilNextComma more : Nat} (ret : List Char)
    (length : s.length = nibbleTilNextComma + 8 * more) :
    ∃ first rest, insertCommas s nibbleTilNextComma ret = ret ++ first ++ commaSeparated rest ∧
      first.length = nibbleTilNextComma ∧ (∀ group ∈ rest, group.length = 8) ∧
      first ++ rest.flatten = s := by
  induction s, nibbleTilNextComma, ret using insertCommas.induct generalizing more with
  | case1 till ret =>
      refine ⟨[], [], ?_, ?_, ?_, rfl⟩
      · simp [insertCommas, commaSeparated]
      · rw [List.length_nil] at length ⊢
        omega
      · simp
  | case2 c s ret ih =>
      rw [List.length_cons] at length
      obtain ⟨first, rest, isText, isFirst, full, isDigits⟩ := @ih (more - 1) (by omega)
      refine ⟨[], (c :: first) :: rest, ?_, rfl, ?_, ?_⟩
      · rw [insertCommas, if_pos rfl, isText]
        simp [commaSeparated]
      · intro group member
        rcases List.mem_cons.mp member with rfl | later
        · rw [List.length_cons, isFirst]
        · exact full group later
      · rw [← isDigits]
        rfl
  | case3 c s till ret running ih =>
      rw [List.length_cons] at length
      obtain ⟨first, rest, isText, isFirst, full, isDigits⟩ := @ih more (by omega)
      refine ⟨c :: first, rest, ?_, ?_, full, ?_⟩
      · rw [insertCommas, if_neg running, isText]
        simp
      · rw [List.length_cons, isFirst]
        omega
      · rw [← isDigits]
        rfl

private theorem intercalate_commas (first : List Char) (rest : List (List Char)) :
    [','].intercalate (first :: rest) = first ++ commaSeparated rest := by
  induction rest generalizing first with
  | nil => simp [commaSeparated]
  | cons next rest ih =>
      rw [List.intercalate_cons_cons, ih]
      simp [commaSeparated]

/-- The hexadecimal digits of the text. -/
def digitsOf (map : CpuMap) : List Char :=
  if map.valueFrom 0 = 0 then ['0'] else numeral 16 (map.valueFrom 0)

private theorem digitsOf_hex {c : Char} (member : c ∈ map.digitsOf) :
    ∃ d, d < 16 ∧ c = Nat.digitChar d := by
  unfold digitsOf at member
  split at member
  · rw [List.mem_singleton] at member
    exact ⟨0, by decide, member⟩
  · exact mem_numeral (by decide) member

private theorem comma_not_mem_digitsOf : ',' ∉ map.digitsOf := by
  intro member
  obtain ⟨d, small, isComma⟩ := digitsOf_hex member
  revert d
  decide

private theorem readNumeral_digitsOf : readNumeral 16 map.digitsOf = map.valueFrom 0 := by
  unfold digitsOf
  split
  · next zero =>
      rw [zero]
      rfl
  · exact readNumeral_numeral (by decide) le_rfl _

/-- The text is its digits with a comma before each full group from the right. -/
theorem cpuMaskStr_groups (map : CpuMap) : ∃ first rest,
    map.cpuMaskStr = first ++ commaSeparated rest ∧ 1 ≤ first.length ∧ first.length ≤ 8 ∧
      (∀ group ∈ rest, group.length = 8) ∧ first ++ rest.flatten = map.digitsOf := by
  unfold cpuMaskStr digitsOf
  rw [digits_spell]
  by_cases zero : map.valueFrom 0 = 0
  · rw [if_pos zero, zero, numeral_zero]
    exact ⟨['0'], [], rfl, le_rfl, by decide, by simp, rfl⟩
  · rw [if_neg zero]
    have nonempty : 0 < (numeral 16 (map.valueFrom 0)).length :=
      List.length_pos_of_ne_nil (numeral_ne_nil zero)
    revert nonempty
    generalize numeral 16 (map.valueFrom 0) = s
    intro nonempty
    dsimp only
    generalize isFirst : (if s.length % 8 = 0 then 8 else s.length % 8) = nibbles
    have bounds : 1 ≤ nibbles ∧ nibbles ≤ 8 ∧ s.length = nibbles + 8 * ((s.length - nibbles) / 8) := by
      split at isFirst <;> omega
    obtain ⟨first, rest, isText, sized, full, isDigits⟩ := insertCommas_groups [] bounds.2.2
    rw [List.nil_append] at isText
    have written : (insertCommas s nibbles []).length ≠ 0 := by
      rw [isText, List.length_append, sized]
      omega
    rw [if_pos written]
    exact ⟨first, rest, isText, by omega, by omega, full, isDigits⟩

private theorem splitOn_groups {first : List Char} {rest : List (List Char)}
    (isDigits : first ++ rest.flatten = map.digitsOf) :
    (first ++ commaSeparated rest).splitOn ',' = first :: rest := by
  have noComma : ∀ group ∈ first :: rest, ',' ∉ group := by
    intro group member isComma
    apply map.comma_not_mem_digitsOf
    rw [← isDigits, ← List.flatten_cons]
    exact List.mem_flatten.mpr ⟨group, member, isComma⟩
  rw [← intercalate_commas, List.splitOn_intercalate _ noComma (List.cons_ne_nil _ _)]

/-! ## Reading the text -/

/-- The number that Linux takes the text of a `cpumask` for. -/
def cpumask (text : List Char) : Nat := readNumeral 16 (text.filter (· ≠ ','))

private theorem filter_noComma {text : List Char} (noComma : ',' ∉ text) :
    text.filter (· ≠ ',') = text := by
  rw [List.filter_eq_self]
  intro c member
  have other : c ≠ ',' := fun isComma => noComma (isComma ▸ member)
  simpa using other

private theorem filter_commaSeparated {groups : List (List Char)} (noComma : ',' ∉ groups.flatten) :
    (commaSeparated groups).filter (· ≠ ',') = groups.flatten := by
  induction groups with
  | nil => rfl
  | cons group groups ih =>
      rw [List.flatten_cons, List.mem_append, not_or] at noComma
      have later := ih noComma.2
      unfold commaSeparated at later ⊢
      rw [List.flatMap_cons, List.cons_append, List.filter_cons_of_neg (by simp),
        List.filter_append, filter_noComma noComma.1, later, List.flatten_cons]

private theorem cpumask_cpuMaskStr : cpumask map.cpuMaskStr = map.valueFrom 0 := by
  obtain ⟨first, rest, isText, -, -, -, isDigits⟩ := map.cpuMaskStr_groups
  have noComma := map.comma_not_mem_digitsOf
  rw [← isDigits, List.mem_append, not_or] at noComma
  unfold cpumask
  rw [isText, List.filter_append, filter_noComma noComma.1, filter_commaSeparated noComma.2, isDigits,
    readNumeral_digitsOf]

private theorem cpuMaskStr_head? : map.cpuMaskStr.head? = map.digitsOf.head? := by
  obtain ⟨first, rest, isText, nonempty, -, -, isDigits⟩ := map.cpuMaskStr_groups
  have isCons := List.ne_nil_of_length_pos nonempty
  rw [isText, ← isDigits, List.head?_append_of_ne_nil _ isCons, List.head?_append_of_ne_nil _ isCons]

private theorem valueFrom_zero_iff (within : map.Within) :
    map.valueFrom 0 = 0 ↔ map.setCpus = [] := by
  constructor
  · intro zero
    rw [List.eq_nil_iff_forall_not_mem]
    intro id member
    rw [← testBit_value within, zero, Nat.zero_testBit] at member
    cases member
  · intro empty
    apply Nat.eq_of_testBit_eq
    intro id
    rw [Nat.zero_testBit, Bool.eq_false_iff, ne_eq, testBit_value within, empty]
    exact List.not_mem_nil

private theorem cpuMaskStr_injective {map' : CpuMap} (within : map.Within) (within' : map'.Within)
    (sameCpus : map.numCpus = map'.numCpus) (sameText : map.cpuMaskStr = map'.cpuMaskStr) :
    map = map' := by
  apply eq_of_isSet sameCpus
  intro id inRange
  have sameBits : id ∈ map.setCpus ↔ id ∈ map'.setCpus := by
    rw [← testBit_value within, ← testBit_value within', ← cpumask_cpuMaskStr, sameText,
      cpumask_cpuMaskStr]
  rw [mem_setCpus, mem_setCpus] at sameBits
  rw [Bool.eq_iff_iff]
  constructor
  · intro set
    exact (sameBits.mp ⟨within id inRange set, set⟩).2
  · intro set
    exact (sameBits.mpr ⟨within' id inRange set, set⟩).2

/-- The text of a CPU list is a `cpumask` of exactly its CPUs, in the form Linux prints. -/
theorem cpuMaskStr_roundTrip (within : map.Within) :
    (∀ id, (cpumask map.cpuMaskStr).testBit id = true ↔ id ∈ map.setCpus) ∧
    (map.setCpus = [] → map.cpuMaskStr = ['0']) ∧
    (map.setCpus ≠ [] → ∃ d, 0 < d ∧ d < 16 ∧ map.cpuMaskStr.head? = some (Nat.digitChar d)) ∧
    (∃ first rest, map.cpuMaskStr.splitOn ',' = first :: rest ∧
      1 ≤ first.length ∧ first.length ≤ 8 ∧ (∀ group ∈ rest, group.length = 8) ∧
      ∀ group ∈ first :: rest, ∀ c ∈ group, ∃ d, d < 16 ∧ c = Nat.digitChar d) ∧
    ∀ map' : CpuMap, map'.Within → map.numCpus = map'.numCpus →
      (map.same map' = true ↔ map.cpuMaskStr = map'.cpuMaskStr) := by
  refine ⟨?_, ?_, ?_, ?_, ?_⟩
  · intro id
    rw [cpumask_cpuMaskStr, testBit_value within]
  · intro empty
    unfold cpuMaskStr
    rw [digits_spell, (valueFrom_zero_iff within).mpr empty, numeral_zero]
    rfl
  · intro nonempty
    have nonzero : map.valueFrom 0 ≠ 0 := fun zero => nonempty ((valueFrom_zero_iff within).mp zero)
    have isHead := numeral_head? (show 1 < 16 by decide) nonzero
    rw [cpuMaskStr_head?, digitsOf, if_neg nonzero]
    exact isHead
  · obtain ⟨first, rest, isText, atLeast, atMost, full, isDigits⟩ := map.cpuMaskStr_groups
    refine ⟨first, rest, ?_, atLeast, atMost, full, ?_⟩
    · rw [isText, splitOn_groups isDigits]
    · intro group member c isChar
      apply map.digitsOf_hex
      rw [← isDigits, ← List.flatten_cons]
      exact List.mem_flatten.mpr ⟨group, member, isChar⟩
  · intro map' within' sameCpus
    constructor
    · intro same
      rw [eq_of_same sameCpus within within' same]
    · intro sameText
      rw [cpuMaskStr_injective within within' sameCpus sameText]
      exact decide_eq_true fun n _ => rfl

/-- The example of the comment at `CpuMaskStr`: CPUs 0 to 32. -/
theorem cpuMaskStr_roundTrip_33 :
    let map : CpuMap := ⟨33, by decide, fun n => if n.val = 0 then 0x1ffffffff else 0⟩
    map.Within ∧ map.cpuMaskStr = "1,ffffffff".toList ∧
      ∀ id, (cpumask map.cpuMaskStr).testBit id = true ↔ id ∈ map.setCpus := by
  intro map
  have within : map.Within := by
    unfold Within MAX_CPUS
    decide +kernel
  exact ⟨within, by decide +kernel, (cpuMaskStr_roundTrip within).1⟩

end CpuMap

end Ghost.Topology
