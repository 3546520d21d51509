import Ghost.Topology.CpuStr
import Mathlib.Data.List.DropRight

/-!
# The parser of CPU lists is exact but for NULs

Each field adds the CPUs it denotes or fails a `CHECK`, and a list is the union of its
fields. What the parser takes for a range differs from a range only in fields with a NUL.
-/

set_option autoImplicit false

namespace Ghost.Topology

open Lib

/-! ## Fields -/

section Fields

variable {simpleAtoi : List Char → Option Int} {numCpus : Nat}

/-- The CPUs of a field, where a range is looked for in a view of the field. -/
inductive Denotes (simpleAtoi : List Char → Option Int) (numCpus : Nat)
    (view : List Char → List Char) : List Char → Set Nat → Prop where
  | newline : Denotes simpleAtoi numCpus view ['\n'] ∅
  | number {field : List Char} {v : Nat} :
      simpleAtoi field = some (v : Int) → v < numCpus → Denotes simpleAtoi numCpus view field {v}
  | range {field : List Char} {first last : Nat} :
      RangeText (view field) first last → first ≤ last → last < numCpus →
      Denotes simpleAtoi numCpus view field (Set.Icc first last)

private theorem cStr_of_not_mem {field : List Char} (noNul : nul ∉ field) : cStr field = field := by
  unfold cStr
  rw [List.takeWhile_eq_self_iff]
  intro c member
  have other : c ≠ nul := fun isNul => noNul (isNul ▸ member)
  simpa using other

private theorem Documented.nul_not_mem (documented : Documented simpleAtoi) {field : List Char}
    {v : Int}
    (read : simpleAtoi field = some v) : nul ∉ field := by
  intro member
  have chars := ((documented field v).mp read).chars member
  revert chars
  decide

/-- A field without NUL is seen whole. -/
theorem denotes_id_iff (documented : Documented simpleAtoi) {field : List Char} {ids : Set Nat} :
    Denotes simpleAtoi numCpus id field ids ↔
      Denotes simpleAtoi numCpus cStr field ids ∧ nul ∉ field := by
  constructor
  · intro denotes
    cases denotes with
    | newline => exact ⟨.newline, by decide⟩
    | number read small => exact ⟨.number read small, documented.nul_not_mem read⟩
    | range isRange ordered small =>
        have noNul : nul ∉ field := by
          intro member
          have chars := isRange.chars member
          revert chars
          decide
        refine ⟨.range ?_ ordered small, noNul⟩
        rw [cStr_of_not_mem noNul]
        exact isRange
  · intro both
    obtain ⟨denotes, noNul⟩ := both
    cases denotes with
    | newline => exact .newline
    | number read small => exact .number read small
    | range isRange ordered small =>
        rw [cStr_of_not_mem noNul] at isRange
        exact .range isRange ordered small

private theorem parseField_range (documented : Documented simpleAtoi) {field : List Char}
    {first last : Nat} (notNumber : simpleAtoi field = none)
    (range : RangeText (cStr field) first last) (small : (first : Int) ≤ intMax)
    (small' : (last : Int) ≤ intMax) :
    parseField simpleAtoi field = .ok ((first : Int), (last : Int)) := by
  unfold parseField
  rw [notNumber]
  generalize cStr field = text at range
  obtain ⟨digits, digits', isTail⟩ := range
  rw [regexMatch_of_range digits digits' isTail]
  dsimp only
  rw [(documented _ _).mpr (digits.atoiReads small), (documented _ _).mpr (digits'.atoiReads small')]

private theorem parseField_cases (documented : Documented simpleAtoi) (field : List Char) :
    parseField simpleAtoi field = .error .check ∨
    (∃ v, simpleAtoi field = some v ∧ parseField simpleAtoi field = .ok (v, v)) ∨
    ∃ first last : Nat, RangeText (cStr field) first last ∧
      parseField simpleAtoi field = .ok ((first : Int), (last : Int)) := by
  unfold parseField
  cases read : simpleAtoi field with
  | some v => exact .inr (.inl ⟨v, rfl, rfl⟩)
  | none =>
      dsimp only
      cases isMatch : regexMatch (cStr field) with
      | none => exact .inl rfl
      | some groups =>
          obtain ⟨a, b⟩ := groups
          obtain ⟨digits, digits', range⟩ := regexMatch_some isMatch
          dsimp only
          split
          · next first last read read' =>
              have isFirst := ((documented _ _).mp read).digits_eq digits
              have isLast := ((documented _ _).mp read').digits_eq digits'
              rw [isFirst, isLast]
              exact .inr (.inr ⟨_, _, range, rfl⟩)
          · exact .inl rfl

/-- What a field adds to the list that the fields before it made. -/
def Adds (cpus : CpuMap) (ids : Set Nat) (cpus' : CpuMap) : Prop :=
  cpus'.numCpus = cpus.numCpus ∧
    ∀ id, id < MAX_CPUS → (cpus'.isSet id = true ↔ cpus.isSet id = true ∨ id ∈ ids)

private theorem mem_rangeIds {first last : Nat} {id : Nat} :
    (id : Int) ∈ (List.range ((last : Int) + 1 - first).toNat).map
        (fun offset : Nat => (first : Int) + offset) ↔
      id ∈ Set.Icc first last := by
  rw [List.mem_map, Set.mem_Icc]
  constructor
  · rintro ⟨offset, member, isId⟩
    rw [List.mem_range] at member
    omega
  · intro inRange
    exact ⟨id - first, by rw [List.mem_range]; omega, by omega⟩

private theorem setRange_succeeds {cpus : CpuMap} {first last : Nat} (fits : numCpus ≤ MAX_CPUS)
    (small : last < numCpus) :
    Succeeds (setRange cpus first last) (Adds cpus (Set.Icc first last)) := by
  have valid : Valid numCpus ((List.range ((last : Int) + 1 - first).toNat).map
      fun offset : Nat => (first : Int) + offset) := by
    intro id member
    obtain ⟨offset, inRange, rfl⟩ := List.mem_map.mp member
    rw [List.mem_range] at inRange
    omega
  apply (foldlM_set _ valid fits).mono
  intro cpus' holds
  refine ⟨holds.1, fun id inRange => ?_⟩
  rw [holds.2 id inRange, mem_rangeIds]

private theorem check_of {condition : Prop} [Decidable condition] (holds : condition) :
    check condition = .ok () := if_pos holds

private theorem check_of_not {condition : Prop} [Decidable condition] (fails : ¬ condition) :
    check condition = .error .check := if_neg fails

/-- The checks of a field and what it adds. -/
theorem parseInto_ok {cpus : CpuMap} {field : List Char} {first last : Nat} (fits : numCpus ≤ MAX_CPUS)
    (other : field ≠ ['\n']) (parsed : parseField simpleAtoi field = .ok ((first : Int), (last : Int)))
    (ordered : first ≤ last) (small : last < numCpus) :
    Succeeds (parseInto simpleAtoi numCpus cpus field) (Adds cpus (Set.Icc first last)) := by
  unfold parseInto
  rw [if_neg other, parsed]
  apply Succeeds.bind_of_eq rfl
  apply Succeeds.bind_of_eq (check_of (by omega))
  apply Succeeds.bind_of_eq (check_of (by omega))
  apply Succeeds.bind_of_eq (check_of (by omega))
  exact setRange_succeeds fits small

private theorem Documented.ne_newline (documented : Documented simpleAtoi) {field : List Char}
    {v : Int}
    (read : simpleAtoi field = some v) : field ≠ ['\n'] := by
  rintro rfl
  have reads := (documented _ _).mp read
  obtain ⟨c, member, digit⟩ := reads.has_digit
  cases List.mem_singleton.mp member
  exact absurd digit (by decide)

private theorem RangeText.ne_newline {field : List Char} {first last : Nat}
    (range : RangeText (cStr field) first last) : field ≠ ['\n'] := by
  rintro rfl
  rw [cStr_of_not_mem (by decide)] at range
  exact absurd (List.mem_singleton.mp range.has_hyphen) (by decide)

/-- The range of a field that is taken for one. -/
theorem Documented.not_number (documented : Documented simpleAtoi) {field : List Char}
    {first last : Nat} (range : RangeText (cStr field) first last) : simpleAtoi field = none := by
  cases read : simpleAtoi field with
  | none => rfl
  | some v =>
      rw [cStr_of_not_mem (documented.nul_not_mem read)] at range
      exact absurd ((documented _ _).mp read) (range.not_atoiReads v)

private theorem Denotes.parseInto (documented : Documented simpleAtoi) (fits : numCpus ≤ MAX_CPUS)
    {field : List Char} {ids : Set Nat} (denotes : Denotes simpleAtoi numCpus cStr field ids)
    (cpus : CpuMap) : Succeeds (parseInto simpleAtoi numCpus cpus field) (Adds cpus ids) := by
  cases denotes with
  | newline =>
      refine Succeeds.of_eq (if_pos rfl) ⟨rfl, fun id _ => ?_⟩
      simp
  | @number _ v read small =>
      have parsed : parseField simpleAtoi field = .ok ((v : Int), (v : Int)) := by
        unfold parseField
        rw [read]
      have added := @parseInto_ok _ _ cpus _ _ _ fits (documented.ne_newline read) parsed le_rfl small
      rw [Set.Icc_self] at added
      exact added
  | range isRange ordered small =>
      have bounded : ∀ n : Nat, n < numCpus → (n : Int) ≤ intMax := by
        intro n less
        unfold MAX_CPUS at fits
        unfold intMax
        omega
      have parsed := parseField_range documented (documented.not_number isRange) isRange
        (bounded _ (by omega)) (bounded _ small)
      exact parseInto_ok fits isRange.ne_newline parsed ordered small

private theorem parseInto_failed {cpus : CpuMap} {field : List Char} {first last : Int}
    (other : field ≠ ['\n']) (parsed : parseField simpleAtoi field = .ok (first, last))
    (senseless : ¬ (0 ≤ first ∧ first ≤ last ∧ last < numCpus)) :
    parseInto simpleAtoi numCpus cpus field = .error .check := by
  unfold parseInto
  rw [if_neg other, parsed]
  change (do
    check (0 ≤ first)
    check (first ≤ last)
    check (last < numCpus)
    setRange cpus first last) = _
  by_cases nonneg : 0 ≤ first
  · by_cases ordered : first ≤ last
    · have large : ¬ last < numCpus := fun small => senseless ⟨nonneg, ordered, small⟩
      rw [check_of nonneg, check_of ordered, check_of_not large]
      rfl
    · rw [check_of nonneg, check_of_not ordered]
      rfl
  · rw [check_of_not nonneg]
    rfl

private theorem parseInto_rejects (documented : Documented simpleAtoi) {field : List Char}
    (senseless : ∀ ids, ¬ Denotes simpleAtoi numCpus cStr field ids) (cpus : CpuMap) :
    parseInto simpleAtoi numCpus cpus field = .error .check := by
  have other : field ≠ ['\n'] := by
    rintro rfl
    exact senseless _ .newline
  rcases parseField_cases documented field with
    failed | ⟨v, read, parsed⟩ | ⟨first, last, range, parsed⟩
  · unfold parseInto
    rw [if_neg other, failed]
    rfl
  · apply parseInto_failed other parsed
    rintro ⟨nonneg, -, small⟩
    obtain ⟨n, rfl⟩ := Int.eq_ofNat_of_zero_le nonneg
    exact senseless _ (.number read (by omega))
  · apply parseInto_failed other parsed
    rintro ⟨-, ordered, small⟩
    exact senseless _ (.range range (by omega) (by omega))

/-! ## Lists of fields -/

/-- The CPUs of all fields. -/
def allIds (simpleAtoi : List Char → Option Int) (numCpus : Nat) (view : List Char → List Char)
    (fields : List (List Char)) : Set Nat :=
  {id | ∃ field ∈ fields, ∃ ids, Denotes simpleAtoi numCpus view field ids ∧ id ∈ ids}

private theorem foldlM_parseInto (documented : Documented simpleAtoi) (fits : numCpus ≤ MAX_CPUS)
    {fields : List (List Char)}
    (sensible : ∀ field ∈ fields, ∃ ids, Denotes simpleAtoi numCpus cStr field ids) (cpus : CpuMap) :
    Succeeds (fields.foldlM (parseInto simpleAtoi numCpus) cpus)
      (Adds cpus (allIds simpleAtoi numCpus cStr fields)) := by
  induction fields generalizing cpus with
  | nil =>
      refine Succeeds.ok ⟨rfl, fun id _ => ?_⟩
      simp [allIds]
  | cons field fields ih =>
      obtain ⟨ids, denotes⟩ := sensible field List.mem_cons_self
      rw [List.foldlM_cons]
      obtain ⟨cpus', parsed, added⟩ := denotes.parseInto documented fits cpus
      apply Succeeds.bind_of_eq parsed
      apply (ih (fun other member => sensible other (List.mem_cons_of_mem _ member)) cpus').mono
      intro cpus'' later
      refine ⟨later.1.trans added.1, fun id inRange => ?_⟩
      rw [later.2 id inRange]
      constructor
      · rintro (first | ⟨other, member, rest⟩)
        · rcases (added.2 id inRange).mp first with before | here
          · exact .inl before
          · exact .inr ⟨field, List.mem_cons_self, ids, denotes, here⟩
        · exact .inr ⟨other, List.mem_cons_of_mem _ member, rest⟩
      · rintro (before | ⟨other, member, ids', denotes', here⟩)
        · exact .inl ((added.2 id inRange).mpr (.inl before))
        · rcases List.mem_cons.mp member with rfl | tail
          · have same := (denotes'.parseInto documented fits cpus).elim parsed
            exact .inl ((same.2 id inRange).mpr (.inr here))
          · exact .inr ⟨other, tail, ids', denotes', here⟩

private theorem foldlM_rejects (documented : Documented simpleAtoi) (fits : numCpus ≤ MAX_CPUS)
    {fields : List (List Char)} {field : List Char} (member : field ∈ fields)
    (senseless : ∀ ids, ¬ Denotes simpleAtoi numCpus cStr field ids) (cpus : CpuMap) :
    fields.foldlM (parseInto simpleAtoi numCpus) cpus = .error .check := by
  induction fields generalizing cpus with
  | nil => cases member
  | cons first fields ih =>
      rw [List.foldlM_cons]
      by_cases sensible : ∃ ids, Denotes simpleAtoi numCpus cStr first ids
      · obtain ⟨ids, denotes⟩ := sensible
        obtain ⟨cpus', parsed, -⟩ := denotes.parseInto documented fits cpus
        rw [parsed]
        rcases List.mem_cons.mp member with rfl | tail
        · exact absurd denotes (senseless ids)
        · exact ih tail cpus'
      · rw [parseInto_rejects documented (not_exists.mp sensible) cpus]
        rfl

/-- The fields are those of a CPU list exactly if the parser returns, the result is their
union, and a `CHECK` fails otherwise. -/
structure ParsesExactly (simpleAtoi : List Char → Option Int) {numCpus : Nat}
    (fits : numCpus ≤ MAX_CPUS) (str : List Char) : Prop where
  returns : (∃ cpus, parseCpuStr simpleAtoi numCpus fits str = .ok cpus) ↔
    ∀ field ∈ getlines str, ∃ ids, Denotes simpleAtoi numCpus id field ids
  result : ∀ cpus, parseCpuStr simpleAtoi numCpus fits str = .ok cpus → cpus.numCpus = numCpus ∧
    ∀ cpu, cpu < MAX_CPUS →
      (cpus.isSet cpu = true ↔ cpu ∈ allIds simpleAtoi numCpus id (getlines str))
  fails : (∀ cpus, parseCpuStr simpleAtoi numCpus fits str ≠ .ok cpus) →
    parseCpuStr simpleAtoi numCpus fits str = .error .check

/-- A range with a NUL after it. -/
def CutRange (numCpus : Nat) (field : List Char) : Prop :=
  nul ∈ field ∧ ∃ first last, RangeText (cStr field) first last ∧ first ≤ last ∧ last < numCpus

private theorem cutRange_iff (documented : Documented simpleAtoi) {field : List Char} :
    CutRange numCpus field ↔ nul ∈ field ∧ ∃ ids, Denotes simpleAtoi numCpus cStr field ids := by
  constructor
  · rintro ⟨hasNul, first, last, range, ordered, small⟩
    exact ⟨hasNul, _, .range range ordered small⟩
  · rintro ⟨hasNul, ids, denotes⟩
    refine ⟨hasNul, ?_⟩
    cases denotes with
    | newline => exact absurd hasNul (by decide)
    | number read small => exact absurd hasNul (documented.nul_not_mem read)
    | range range ordered small => exact ⟨_, _, range, ordered, small⟩

/-- Without a range cut by a NUL the parser sees the fields as they are. -/
theorem denotes_cStr_iff (documented : Documented simpleAtoi) {field : List Char}
    (uncut : ¬ CutRange numCpus field) {ids : Set Nat} :
    Denotes simpleAtoi numCpus cStr field ids ↔ Denotes simpleAtoi numCpus id field ids := by
  rw [denotes_id_iff documented, cutRange_iff documented] at *
  constructor
  · intro denotes
    exact ⟨denotes, fun hasNul => uncut ⟨hasNul, ids, denotes⟩⟩
  · exact And.left

private theorem parseCpuStr_rejects (documented : Documented simpleAtoi) (fits : numCpus ≤ MAX_CPUS)
    {str field : List Char} (member : field ∈ getlines str)
    (uncut : ¬ CutRange numCpus field)
    (senseless : ∀ ids, ¬ Denotes simpleAtoi numCpus id field ids) :
    ParsesExactly simpleAtoi fits str := by
  have failed : parseCpuStr simpleAtoi numCpus fits str = .error .check :=
    foldlM_rejects documented fits member
      (fun ids denotes => senseless ids ((denotes_cStr_iff documented uncut).mp denotes)) _
  constructor
  · rw [failed]
    constructor
    · rintro ⟨cpus, returned⟩
      cases returned
    · intro sensible
      obtain ⟨ids, denotes⟩ := sensible field member
      exact absurd denotes (senseless ids)
  · intro cpus returned
    rw [failed] at returned
    cases returned
  · intro _
    exact failed

private theorem parseCpuStr_accepts (documented : Documented simpleAtoi) (fits : numCpus ≤ MAX_CPUS)
    {str : List Char}
    (sensible : ∀ field ∈ getlines str, ∃ ids, Denotes simpleAtoi numCpus id field ids) :
    Succeeds (parseCpuStr simpleAtoi numCpus fits str) fun cpus => cpus.numCpus = numCpus ∧
      ∀ cpu, cpu < MAX_CPUS →
        (cpus.isSet cpu = true ↔ cpu ∈ allIds simpleAtoi numCpus id (getlines str)) := by
  have seen : ∀ field ∈ getlines str, ∃ ids, Denotes simpleAtoi numCpus cStr field ids := by
    intro field member
    obtain ⟨ids, denotes⟩ := sensible field member
    exact ⟨ids, ((denotes_id_iff documented).mp denotes).1⟩
  have uncut : ∀ field ∈ getlines str, ¬ CutRange numCpus field := by
    intro field member cut
    obtain ⟨ids, denotes⟩ := sensible field member
    exact ((denotes_id_iff documented).mp denotes).2 cut.1
  have sameIds : allIds simpleAtoi numCpus cStr (getlines str) =
      allIds simpleAtoi numCpus id (getlines str) := by
    ext cpu
    constructor
    · rintro ⟨field, member, ids, denotes, here⟩
      exact ⟨field, member, ids, (denotes_cStr_iff documented (uncut field member)).mp denotes, here⟩
    · rintro ⟨field, member, ids, denotes, here⟩
      exact ⟨field, member, ids, (denotes_cStr_iff documented (uncut field member)).mpr denotes, here⟩
  apply (foldlM_parseInto documented fits seen _).mono
  intro cpus added
  refine ⟨added.1, fun cpu inRange => ?_⟩
  rw [added.2 cpu inRange, CpuMap.isSet_emptyCpuList, sameIds]
  simp

/-- The condition under which the parser is exact. -/
def NoCutRangeTaken (simpleAtoi : List Char → Option Int) (numCpus : Nat) (str : List Char) : Prop :=
  (∀ field ∈ getlines str, ¬ CutRange numCpus field) ∨
    ∃ field ∈ getlines str, ¬ CutRange numCpus field ∧ ∀ ids, ¬ Denotes simpleAtoi numCpus id field ids

private theorem parsesExactly_iff (documented : Documented simpleAtoi) (fits : numCpus ≤ MAX_CPUS)
    (str : List Char) :
    ParsesExactly simpleAtoi fits str ↔ NoCutRangeTaken simpleAtoi numCpus str := by
  constructor
  · intro parses
    by_contra taken
    unfold NoCutRangeTaken at taken
    push Not at taken
    obtain ⟨⟨field, member, cut⟩, others⟩ := taken
    have seen : ∀ field ∈ getlines str, ∃ ids, Denotes simpleAtoi numCpus cStr field ids := by
      intro other isField
      by_cases isCut : CutRange numCpus other
      · exact ((cutRange_iff documented).mp isCut).2
      · obtain ⟨ids, denotes⟩ := others other isField isCut
        exact ⟨ids, ((denotes_id_iff documented).mp denotes).1⟩
    obtain ⟨cpus, returned, -⟩ :=
      foldlM_parseInto documented fits seen (.emptyCpuList numCpus fits)
    obtain ⟨ids, denotes⟩ := parses.returns.mp ⟨cpus, returned⟩ field member
    exact ((denotes_id_iff documented).mp denotes).2 cut.1
  · rintro (uncut | ⟨field, member, uncut, senseless⟩)
    · by_cases sensible : ∀ field ∈ getlines str, ∃ ids, Denotes simpleAtoi numCpus id field ids
      · have accepts := parseCpuStr_accepts documented fits sensible
        constructor
        · obtain ⟨cpus, returned, -⟩ := accepts
          exact ⟨fun _ => sensible, fun _ => ⟨cpus, returned⟩⟩
        · intro cpus returned
          exact accepts.elim returned
        · intro never
          obtain ⟨cpus, returned, -⟩ := accepts
          exact absurd returned (never cpus)
      · push Not at sensible
        obtain ⟨field, member, senseless⟩ := sensible
        exact parseCpuStr_rejects documented fits member (uncut field member) senseless
    · exact parseCpuStr_rejects documented fits member uncut senseless

/-! ## Renderings -/

/-- A single number or a range. -/
inductive Item (numCpus : Nat) : List Char → Set Nat → Prop where
  | single {a : List Char} {n : Nat} : Digits a n → n < numCpus → Item numCpus a {n}
  | range {a b : List Char} {first last : Nat} :
      Digits a first → Digits b last → first ≤ last → last < numCpus →
      Item numCpus (a ++ '-' :: b) (Set.Icc first last)

/-- The items with commas between them, and a newline or none after them. -/
def render (items : List (List Char × Set Nat)) (tail : List Char) : List Char :=
  [','].intercalate (items.map Prod.fst) ++ tail

private theorem Item.denotes (documented : Documented simpleAtoi) (fits : numCpus ≤ MAX_CPUS)
    {text tail : List Char} {ids : Set Nat} (item : Item numCpus text ids)
    (isTail : tail = [] ∨ tail = ['\n']) :
    Denotes simpleAtoi numCpus id (text ++ tail) ids := by
  cases item with
  | @single a n digits small =>
      refine .number ((documented _ _).mpr ?_) small
      have fitsInt : (n : Int) ≤ intMax := by
        unfold MAX_CPUS at fits
        unfold intMax
        omega
      have spaces : ∀ c ∈ tail, isSpace c = true := by
        rcases isTail with rfl | rfl <;> simp [isSpace]
      have reads := @AtoiReads.unsigned [] [] _ tail _ (by simp) spaces (.inl rfl) digits fitsInt
      simpa using reads
  | range digits digits' ordered small =>
      refine .range ?_ ordered small
      have range := RangeText.intro digits digits' isTail
      simpa using range

private theorem Item.chars {text : List Char} {ids : Set Nat} (item : Item numCpus text ids) :
    text ≠ [] ∧ ',' ∉ text := by
  cases item with
  | single digits small =>
      refine ⟨digits.nonempty, fun member => ?_⟩
      exact absurd (digits.digits _ member) (by decide)
  | range digits digits' ordered small =>
      refine ⟨by simp, fun member => ?_⟩
      have range := RangeText.intro digits digits' (.inl rfl)
      rw [List.append_nil] at range
      exact absurd (range.chars member) (by decide)

private theorem intercalate_concat (init : List (List Char)) (last tail : List Char) :
    [','].intercalate (init ++ [last]) ++ tail = [','].intercalate (init ++ [last ++ tail]) := by
  induction init with
  | nil => simp
  | cons text init ih =>
      have nonempty : ∀ end' : List Char, init ++ [end'] ≠ [] := by simp
      rw [List.cons_append, List.cons_append, List.intercalate_cons_of_ne_nil (nonempty _),
        List.intercalate_cons_of_ne_nil (nonempty _), List.append_assoc, ih]

private theorem getlines_intercalate {init : List (List Char)} {last : List Char}
    (noComma : ∀ text ∈ init ++ [last], ',' ∉ text) (nonempty : last ≠ []) :
    getlines ([','].intercalate (init ++ [last])) = init ++ [last] := by
  unfold getlines
  rw [List.splitOn_intercalate _ noComma (by simp), List.getLast?_concat, if_neg]
  intro empty
  exact nonempty (Option.some.inj empty)

private theorem Denotes.lt {view : List Char → List Char} {field : List Char} {ids : Set Nat}
    (denotes : Denotes simpleAtoi numCpus view field ids) {cpu : Nat} (member : cpu ∈ ids) :
    cpu < numCpus := by
  cases denotes with
  | newline => cases member
  | number _ small =>
      rw [Set.mem_singleton_iff] at member
      exact member ▸ small
  | range _ _ small => exact member.2.trans_lt small

private theorem Denotes.unique (documented : Documented simpleAtoi) (fits : numCpus ≤ MAX_CPUS)
    {field : List Char} {ids ids' : Set Nat} (denotes : Denotes simpleAtoi numCpus cStr field ids)
    (denotes' : Denotes simpleAtoi numCpus cStr field ids') : ids = ids' := by
  obtain ⟨cpus, parsed, added⟩ := denotes.parseInto documented fits (.emptyCpuList numCpus fits)
  have added' := (denotes'.parseInto documented fits _).elim parsed
  ext cpu
  by_cases inRange : cpu < MAX_CPUS
  · have same := (added.2 cpu inRange).symm.trans (added'.2 cpu inRange)
    rw [CpuMap.isSet_emptyCpuList] at same
    simpa using same
  · exact ⟨fun member => absurd (denotes.lt member) (by omega),
      fun member => absurd (denotes'.lt member) (by omega)⟩

/-- Fields with the sets they denote. -/
theorem parseCpuStr_fields (documented : Documented simpleAtoi) (fits : numCpus ≤ MAX_CPUS)
    {str : List Char} {fields : List (List Char × Set Nat)}
    (isFields : getlines str = fields.map Prod.fst)
    (denote : ∀ field ∈ fields, Denotes simpleAtoi numCpus id field.1 field.2) :
    Succeeds (parseCpuStr simpleAtoi numCpus fits str) fun cpus => cpus.numCpus = numCpus ∧
      ∀ cpu, cpu < MAX_CPUS → (cpus.isSet cpu = true ↔ ∃ field ∈ fields, cpu ∈ field.2) := by
  have sensible : ∀ text ∈ getlines str, ∃ ids, Denotes simpleAtoi numCpus id text ids := by
    intro text member
    obtain ⟨field, isField, rfl⟩ := List.mem_map.mp (isFields ▸ member)
    exact ⟨field.2, denote field isField⟩
  apply (parseCpuStr_accepts documented fits sensible).mono
  intro cpus holds
  refine ⟨holds.1, fun cpu inRange => ?_⟩
  rw [holds.2 cpu inRange]
  constructor
  · rintro ⟨text, member, ids, denotes, here⟩
    obtain ⟨field, isField, rfl⟩ := List.mem_map.mp (isFields ▸ member)
    have same := Denotes.unique documented fits ((denotes_id_iff documented).mp denotes).1
      ((denotes_id_iff documented).mp (denote field isField)).1
    exact ⟨field, isField, same ▸ here⟩
  · rintro ⟨field, isField, here⟩
    exact ⟨field.1, isFields ▸ List.mem_map_of_mem isField, field.2, denote field isField, here⟩

private theorem parseCpuStr_render (documented : Documented simpleAtoi) (fits : numCpus ≤ MAX_CPUS)
    {items : List (List Char × Set Nat)} (isItem : ∀ item ∈ items, Item numCpus item.1 item.2)
    {tail : List Char} (isTail : tail = [] ∨ tail = ['\n']) :
    Succeeds (parseCpuStr simpleAtoi numCpus fits (render items tail)) fun cpus =>
      cpus.numCpus = numCpus ∧
        ∀ cpu, cpu < MAX_CPUS → (cpus.isSet cpu = true ↔ ∃ item ∈ items, cpu ∈ item.2) := by
  rcases List.eq_nil_or_concat' items with rfl | ⟨init, last, rfl⟩
  · rcases isTail with rfl | rfl
    · exact @parseCpuStr_fields _ _ documented fits [] [] rfl (by simp)
    · apply (@parseCpuStr_fields _ _ documented fits ['\n'] [(['\n'], ∅)] rfl ?_).mono
      · intro cpus holds
        simpa using holds
      · intro field member
        cases List.mem_singleton.mp member
        exact .newline
  · have isLast := isItem last (by simp)
    have isInit : ∀ item ∈ init, Item numCpus item.1 item.2 :=
      fun item member => isItem item (List.mem_append_left _ member)
    have isFields : getlines (render (init ++ [last]) tail) =
        (init ++ [(last.1 ++ tail, last.2)]).map Prod.fst := by
      unfold render
      rw [List.map_append, List.map_append, List.map_singleton, List.map_singleton, intercalate_concat]
      apply getlines_intercalate
      · intro text member
        rcases List.mem_append.mp member with early | late
        · obtain ⟨item, isMember, rfl⟩ := List.mem_map.mp early
          exact (isInit item isMember).chars.2
        · rw [List.mem_singleton.mp late]
          rcases isTail with rfl | rfl <;> simp [isLast.chars.2]
      · simp [isLast.chars.1]
    apply (parseCpuStr_fields documented fits isFields ?_).mono
    · intro cpus holds
      refine ⟨holds.1, fun cpu inRange => ?_⟩
      rw [holds.2 cpu inRange]
      simp
    · intro field member
      rcases List.mem_append.mp member with early | late
      · have whole := (isInit field early).denotes documented fits (.inl rfl)
        rwa [List.append_nil] at whole
      · cases List.mem_singleton.mp late
        exact isLast.denotes documented fits isTail

/-- The parser is exact unless all fields pass and one of them is a range cut by a NUL, and
it reads every rendering of a set back. -/
theorem parseCpuStr_exact (documented : Documented simpleAtoi) (fits : numCpus ≤ MAX_CPUS) :
    (∀ str, ParsesExactly simpleAtoi fits str ↔ NoCutRangeTaken simpleAtoi numCpus str) ∧
    ∀ items : List (List Char × Set Nat), (∀ item ∈ items, Item numCpus item.1 item.2) →
      ∀ tail, tail = [] ∨ tail = ['\n'] →
        Succeeds (parseCpuStr simpleAtoi numCpus fits (render items tail)) fun cpus =>
          cpus.numCpus = numCpus ∧
            ∀ cpu, cpu < MAX_CPUS → (cpus.isSet cpu = true ↔ ∃ item ∈ items, cpu ∈ item.2) :=
  ⟨parsesExactly_iff documented fits, fun _ isItem _ => parseCpuStr_render documented fits isItem⟩

end Fields

/-! ## An implementation of the documented `SimpleAtoi` -/

def stripped (text : List Char) : List Char := (text.dropWhile isSpace).rdropWhile isSpace

def magnitude (most : Int) (text : List Char) : Option Nat :=
  if text ≠ [] ∧ text.all Char.isDigit = true ∧ (readNumeral 10 text : Int) ≤ most then
    some (readNumeral 10 text)
  else none

def atoi (text : List Char) : Option Int :=
  if (stripped text).head? = some '-' then
    (magnitude (intMax + 1) (stripped text).tail).map fun n : Nat => -(n : Int)
  else if (stripped text).head? = some '+' then
    (magnitude intMax (stripped text).tail).map Int.ofNat
  else
    (magnitude intMax (stripped text)).map Int.ofNat

private theorem magnitude_iff {most : Int} {text : List Char} {n : Nat} :
    magnitude most text = some n ↔ Digits text n ∧ (n : Int) ≤ most := by
  unfold magnitude
  rw [Option.ite_none_right_eq_some, List.all_eq_true]
  constructor
  · rintro ⟨⟨nonempty, digits, small⟩, isValue⟩
    cases isValue
    exact ⟨⟨nonempty, digits, rfl⟩, small⟩
  · rintro ⟨digits, small⟩
    rw [digits.value]
    exact ⟨⟨digits.nonempty, digits.digits, small⟩, rfl⟩

theorem stripped_spec (text : List Char) : ∃ before after, text = before ++ stripped text ++ after ∧
    (∀ c ∈ before, isSpace c = true) ∧ ∀ c ∈ after, isSpace c = true := by
  refine ⟨text.takeWhile isSpace, (text.dropWhile isSpace).rtakeWhile isSpace, ?_, ?_, ?_⟩
  · unfold stripped
    rw [List.append_assoc, List.rdropWhile_append_rtakeWhile, List.takeWhile_append_dropWhile]
  · intro c member
    exact List.mem_takeWhile_imp member
  · intro c member
    exact List.mem_rtakeWhile_imp member

private theorem stripped_eq {before core after : List Char}
    (spaces : ∀ c ∈ before, isSpace c = true)
    (spaces' : ∀ c ∈ after, isSpace c = true) (nonempty : core ≠ [])
    (first : ∀ c ∈ core.head?, isSpace c = false) (last : ∀ c ∈ core.getLast?, isSpace c = false) :
    stripped (before ++ core ++ after) = core := by
  have front : (core ++ after).dropWhile isSpace = core ++ after := by
    obtain ⟨c, rest, rfl⟩ := List.exists_cons_of_ne_nil nonempty
    have isFirst := first c rfl
    simp [isFirst]
  have back : core.rdropWhile isSpace = core := by
    rw [List.rdropWhile_eq_self_iff]
    intro some'
    have isLast := last _ (List.getLast?_eq_some_getLast some')
    simp [isLast]
  unfold stripped
  rw [List.append_assoc, List.dropWhile_append_of_pos spaces, front]
  unfold List.rdropWhile at back ⊢
  rw [List.reverse_append, List.dropWhile_append_of_pos, back]
  simpa using spaces'

private theorem Digits.not_space {text : List Char} {n : Nat} (digits : Digits text n) {c : Char}
    (member : c ∈ text) : isSpace c = false := by
  by_contra space
  have notDigit := isSpace_not_digit (Bool.eq_true_of_not_eq_false space)
  rw [digits.digits c member] at notDigit
  cases notDigit

/-- A sign, or none, and digits between whitespace. -/
theorem stripped_number {before sign digits after : List Char} {n : Nat}
    (spaces : ∀ c ∈ before, isSpace c = true) (spaces' : ∀ c ∈ after, isSpace c = true)
    (isSign : ∀ c ∈ sign, isSpace c = false) (isDigits : Digits digits n) :
    stripped (before ++ (sign ++ digits) ++ after) = sign ++ digits := by
  have noSpace : ∀ c ∈ sign ++ digits, isSpace c = false := by
    intro c member
    rcases List.mem_append.mp member with front | back
    · exact isSign c front
    · exact isDigits.not_space back
  apply stripped_eq spaces spaces'
  · simp [isDigits.nonempty]
  · intro c isHead
    exact noSpace c (List.mem_of_mem_head? isHead)
  · intro c isLast
    exact noSpace c (List.mem_of_mem_getLast? isLast)

private theorem atoi_documented : Documented atoi := by
  intro text v
  constructor
  · intro read
    obtain ⟨before, after, isText, spaces, spaces'⟩ := stripped_spec text
    rw [isText]
    unfold atoi at read
    split at read
    · next minus =>
        obtain ⟨n, isNumber, rfl⟩ := Option.map_eq_some_iff.mp read
        obtain ⟨digits, small⟩ := magnitude_iff.mp isNumber
        rw [← List.cons_head?_tail minus]
        exact .negative spaces spaces' digits small
    · split at read
      · next plus =>
          obtain ⟨n, isNumber, rfl⟩ := Option.map_eq_some_iff.mp read
          obtain ⟨digits, small⟩ := magnitude_iff.mp isNumber
          rw [← List.cons_head?_tail plus]
          exact @AtoiReads.unsigned _ ['+'] _ _ _ spaces spaces' (.inr rfl) digits small
      · obtain ⟨n, isNumber, rfl⟩ := Option.map_eq_some_iff.mp read
        obtain ⟨digits, small⟩ := magnitude_iff.mp isNumber
        exact @AtoiReads.unsigned _ [] _ _ _ spaces spaces' (.inl rfl) digits small
  · intro reads
    unfold atoi
    cases reads with
    | @unsigned before sign digits after n spaces spaces' isSign isDigits small =>
        have core := stripped_number spaces spaces'
          (show ∀ c ∈ sign, isSpace c = false by rcases isSign with rfl | rfl <;> simp [isSpace]) isDigits
        have number := magnitude_iff.mpr ⟨isDigits, small⟩
        rw [core]
        rcases isSign with rfl | rfl
        · obtain ⟨c, rest, rfl⟩ := List.exists_cons_of_ne_nil isDigits.nonempty
          have digit := isDigits.digits c List.mem_cons_self
          rw [List.nil_append, List.head?_cons, if_neg, if_neg, number]
          · rfl
          · intro plus
            exact ne_of_isDigit digit (by decide) (Option.some.inj plus)
          · intro minus
            exact ne_of_isDigit digit (by decide) (Option.some.inj minus)
        · rw [List.singleton_append, List.head?_cons, if_neg (by decide), if_pos rfl, List.tail_cons, number]
          rfl
    | @negative before digits after n spaces spaces' isDigits small =>
        have core := stripped_number spaces spaces'
          (show ∀ c ∈ ['-'], isSpace c = false by simp [isSpace]) isDigits
        have number := magnitude_iff.mpr ⟨isDigits, small⟩
        rw [List.singleton_append] at core
        rw [core, List.head?_cons, if_pos rfl, List.tail_cons, number]
        rfl

/-- `0-1` and a NUL with something after it, on a machine with two CPUs. -/
def cutText : List Char := ['0', '-', '1', nul, 'x']

private theorem two_le_cpus : 2 ≤ MAX_CPUS := by decide

private theorem cutText_cutRange : CutRange 2 cutText := by
  have zero : Digits ['0'] 0 := ⟨by simp, by simp, rfl⟩
  have one : Digits ['1'] 1 := ⟨by simp, by simp, rfl⟩
  exact ⟨by decide, 0, 1, .intro zero one (.inl rfl), by decide, by decide⟩

theorem parseCpuStr_cut :
    (∃ cpus, parseCpuStr atoi 2 two_le_cpus cutText = .ok cpus) ∧ getlines cutText = [cutText] ∧
      (∀ ids, ¬ Denotes atoi 2 id cutText ids) ∧ ¬ ParsesExactly atoi two_le_cpus cutText := by
  have isFields : getlines cutText = [cutText] := by decide
  have senseless : ∀ ids, ¬ Denotes atoi 2 id cutText ids := by
    intro ids denotes
    exact ((denotes_id_iff atoi_documented).mp denotes).2 cutText_cutRange.1
  have returned : ∃ cpus, parseCpuStr atoi 2 two_le_cpus cutText = .ok cpus := by
    obtain ⟨ids, denotes⟩ := ((cutRange_iff atoi_documented).mp cutText_cutRange).2
    obtain ⟨cpus, parsed, -⟩ :=
      denotes.parseInto atoi_documented two_le_cpus (.emptyCpuList 2 two_le_cpus)
    refine ⟨cpus, ?_⟩
    unfold parseCpuStr
    rw [isFields, List.foldlM_cons, parsed]
    rfl
  refine ⟨returned, isFields, senseless, ?_⟩
  intro parses
  obtain ⟨ids, denotes⟩ := parses.returns.mp returned cutText (by rw [isFields]; simp)
  exact senseless ids denotes

/-- A file of the kernel. -/
theorem parseCpuStr_exact_two :
    Documented atoi ∧ ParsesExactly atoi two_le_cpus "0-1\n".toList := by
  have isFields : getlines "0-1\n".toList = ["0-1\n".toList] := by decide
  refine ⟨atoi_documented, ((parseCpuStr_exact atoi_documented two_le_cpus).1 _).mpr (.inl ?_)⟩
  intro field member cut
  rw [isFields, List.mem_singleton] at member
  rw [member] at cut
  exact absurd cut.1 (by decide)

end Ghost.Topology
