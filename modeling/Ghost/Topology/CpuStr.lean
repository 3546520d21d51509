import Ghost.Topology.CpuSets
import Ghost.Lib.Numerals
import Mathlib.Data.List.TakeWhile

/-!
# Parsing CPU lists

`Topology::ParseCpuStr` of `lib/topology.cc`, which reads the kernel's lists such as
`0-3,6,8`. `absl::SimpleAtoi` into an `int` is a parameter. A field that is no number is
handed to the regular expression as a C string, and so up to its first NUL only.
-/

set_option autoImplicit false

namespace Ghost.Topology

open Lib

/-- What `std::getline` reads until it fails: no field after the last comma if nothing
follows it. -/
def getlines (str : List Char) : List (List Char) :=
  if (str.splitOn ',').getLast? = some [] then (str.splitOn ',').dropLast else str.splitOn ','

def nul : Char := Char.ofNat 0

/-- The text that a reader of `c_str()` sees. -/
def cStr (field : List Char) : List Char := field.takeWhile (· ≠ nul)

/-- The groups of `(\d+)-(\d+)\n?` where it matches all of a text. -/
def regexMatch (text : List Char) : Option (List Char × List Char) :=
  match text.dropWhile Char.isDigit with
  | [] => none
  | hyphen :: rest =>
      if hyphen = '-' ∧ text.takeWhile Char.isDigit ≠ [] ∧ rest.takeWhile Char.isDigit ≠ [] ∧
          (rest.dropWhile Char.isDigit = [] ∨ rest.dropWhile Char.isDigit = ['\n']) then
        some (text.takeWhile Char.isDigit, rest.takeWhile Char.isDigit)
      else none

section Parser

variable (simpleAtoi : List Char → Option Int) (numCpus : Nat)

/-- `first` and `last` of a field. -/
def parseField (field : List Char) : Except Fault (Int × Int) :=
  match simpleAtoi field with
  | some first => .ok (first, first)
  | none =>
      match regexMatch (cStr field) with
      | none => .error .check
      | some (a, b) =>
          match simpleAtoi a, simpleAtoi b with
          | some first, some last => .ok (first, last)
          | _, _ => .error .check

/-- `while (first <= last) cpus.Set(first++)`. -/
def setRange (cpus : CpuMap) (first last : Int) : Except Fault CpuMap :=
  ((List.range (last + 1 - first).toNat).map fun (offset : Nat) => first + offset).foldlM
    CpuMap.set cpus

def parseInto (cpus : CpuMap) (field : List Char) : Except Fault CpuMap :=
  if field = ['\n'] then .ok cpus
  else do
    let range ← parseField simpleAtoi field
    check (0 ≤ range.1)
    check (range.1 ≤ range.2)
    check (range.2 < numCpus)
    setRange cpus range.1 range.2

def parseCpuStr (fits : numCpus ≤ MAX_CPUS) (str : List Char) : Except Fault CpuMap :=
  (getlines str).foldlM (parseInto simpleAtoi numCpus) (.emptyCpuList numCpus fits)

end Parser

/-! ## Numbers -/

/-- Decimal digits of a number. -/
structure Digits (text : List Char) (n : Nat) : Prop where
  nonempty : text ≠ []
  digits : ∀ c ∈ text, c.isDigit = true
  value : readNumeral 10 text = n

/-- `absl::ascii_isspace`. -/
def isSpace (c : Char) : Bool :=
  c = ' ' || c = '\t' || c = '\n' || c = Char.ofNat 11 || c = Char.ofNat 12 || c = '\r'

/-- A base-10 integer between optional whitespace, of a value that an `int` has. -/
inductive AtoiReads : List Char → Int → Prop where
  | unsigned {before sign digits after : List Char} {n : Nat} :
      (∀ c ∈ before, isSpace c = true) → (∀ c ∈ after, isSpace c = true) →
      sign = [] ∨ sign = ['+'] → Digits digits n → (n : Int) ≤ intMax →
      AtoiReads (before ++ (sign ++ digits) ++ after) n
  | negative {before digits after : List Char} {n : Nat} :
      (∀ c ∈ before, isSpace c = true) → (∀ c ∈ after, isSpace c = true) →
      Digits digits n → (n : Int) ≤ intMax + 1 →
      AtoiReads (before ++ ('-' :: digits) ++ after) (-n)

/-- What `absl::SimpleAtoi` documents. -/
def Documented (simpleAtoi : List Char → Option Int) : Prop :=
  ∀ text v, simpleAtoi text = some v ↔ AtoiReads text v

theorem isSpace_not_digit {c : Char} (space : isSpace c = true) : c.isDigit = false := by
  unfold isSpace at space
  simp only [Bool.or_eq_true, decide_eq_true_eq] at space
  rcases space with ((((rfl | rfl) | rfl) | rfl) | rfl) | rfl <;> decide

theorem ne_of_isDigit {c other : Char} (digit : c.isDigit = true) (otherwise : other.isDigit = false) :
    c ≠ other := by
  rintro rfl
  rw [digit] at otherwise
  cases otherwise

/-- The characters of a number. -/
theorem AtoiReads.chars {text : List Char} {v : Int} (reads : AtoiReads text v) {c : Char}
    (member : c ∈ text) : isSpace c = true ∨ c.isDigit = true ∨ c = '+' ∨ c = '-' := by
  cases reads with
  | unsigned spaces spaces' isSign digits small =>
      rcases List.mem_append.mp member with front | back
      · rcases List.mem_append.mp front with first | number
        · exact .inl (spaces c first)
        · rcases List.mem_append.mp number with sign | digit
          · rcases isSign with rfl | rfl
            · cases sign
            · exact .inr (.inr (.inl (List.mem_singleton.mp sign)))
          · exact .inr (.inl (digits.digits c digit))
      · exact .inl (spaces' c back)
  | negative spaces spaces' digits small =>
      rcases List.mem_append.mp member with front | back
      · rcases List.mem_append.mp front with first | number
        · exact .inl (spaces c first)
        · rcases List.mem_cons.mp number with sign | digit
          · exact .inr (.inr (.inr sign))
          · exact .inr (.inl (digits.digits c digit))
      · exact .inl (spaces' c back)

theorem AtoiReads.has_digit {text : List Char} {v : Int} (reads : AtoiReads text v) :
    ∃ c ∈ text, c.isDigit = true := by
  cases reads with
  | unsigned spaces spaces' isSign digits small =>
      obtain ⟨c, rest, rfl⟩ := List.exists_cons_of_ne_nil digits.nonempty
      exact ⟨c, by simp, digits.digits c List.mem_cons_self⟩
  | negative spaces spaces' digits small =>
      obtain ⟨c, rest, rfl⟩ := List.exists_cons_of_ne_nil digits.nonempty
      exact ⟨c, by simp, digits.digits c List.mem_cons_self⟩

/-- A number whose text starts with a digit has nothing before its digits. -/
theorem AtoiReads.of_digit {c : Char} {rest : List Char} {v : Int} (reads : AtoiReads (c :: rest) v)
    (digit : c.isDigit = true) : ∃ digits after n, c :: rest = digits ++ after ∧ Digits digits n ∧
      v = (n : Int) ∧ ∀ c ∈ after, isSpace c = true := by
  generalize isText : c :: rest = text at reads
  cases reads with
  | @unsigned before sign digits after n spaces spaces' isSign isDigits small =>
      cases before with
      | cons first before =>
          cases isText
          rw [isSpace_not_digit (spaces c List.mem_cons_self)] at digit
          cases digit
      | nil =>
          rcases isSign with rfl | rfl
          · exact ⟨digits, after, n, rfl, isDigits, rfl, spaces'⟩
          · cases isText
            exact absurd digit (by decide)
  | @negative before digits after n spaces spaces' isDigits small =>
      cases before with
      | cons first before =>
          cases isText
          rw [isSpace_not_digit (spaces c List.mem_cons_self)] at digit
          cases digit
      | nil =>
          cases isText
          exact absurd digit (by decide)

theorem AtoiReads.digits_eq {text : List Char} {n : Nat} {v : Int} (digits : Digits text n)
    (reads : AtoiReads text v) : v = n := by
  obtain ⟨c, rest, rfl⟩ := List.exists_cons_of_ne_nil digits.nonempty
  obtain ⟨front, after, n', isText, front', rfl, spaces⟩ :=
    reads.of_digit (digits.digits c List.mem_cons_self)
  cases after with
  | nil =>
      rw [List.append_nil] at isText
      rw [← front'.value, ← digits.value, isText]
  | cons space after =>
      have isDigit := digits.digits space (isText ▸ List.mem_append_right _ List.mem_cons_self)
      rw [isSpace_not_digit (spaces space List.mem_cons_self)] at isDigit
      cases isDigit

theorem Digits.atoiReads {text : List Char} {n : Nat} (digits : Digits text n)
    (small : (n : Int) ≤ intMax) : AtoiReads text n := by
  have reads := @AtoiReads.unsigned [] [] text [] n (by simp) (by simp) (.inl rfl) digits small
  simpa using reads

/-! ## Ranges -/

/-- A range in decimal digits, with or without a newline. -/
inductive RangeText : List Char → Nat → Nat → Prop where
  | intro {a b tail : List Char} {first last : Nat} :
      Digits a first → Digits b last → tail = [] ∨ tail = ['\n'] →
      RangeText (a ++ '-' :: (b ++ tail)) first last

private theorem takeWhile_digits {a : List Char} (digits : ∀ c ∈ a, c.isDigit = true)
    (rest : List Char)
    (stop : ∀ c ∈ rest.head?, c.isDigit = false) :
    (a ++ rest).takeWhile Char.isDigit = a ∧ (a ++ rest).dropWhile Char.isDigit = rest := by
  rw [List.takeWhile_append_of_pos digits, List.dropWhile_append_of_pos digits]
  cases rest with
  | nil => simp
  | cons c rest =>
      have isStop := stop c rfl
      simp [isStop]

theorem regexMatch_of_range {a b tail : List Char} {first last : Nat} (digits : Digits a first)
    (digits' : Digits b last) (isTail : tail = [] ∨ tail = ['\n']) :
    regexMatch (a ++ '-' :: (b ++ tail)) = some (a, b) := by
  have front := takeWhile_digits digits.digits ('-' :: (b ++ tail)) (by simp)
  have back := takeWhile_digits digits'.digits tail (by
    rcases isTail with rfl | rfl <;> simp)
  unfold regexMatch
  rw [front.1, front.2]
  dsimp only
  rw [back.1, back.2, if_pos ⟨rfl, digits.nonempty, digits'.nonempty, isTail⟩]

private theorem digits_takeWhile {text : List Char} (nonempty : text.takeWhile Char.isDigit ≠ []) :
    Digits (text.takeWhile Char.isDigit) (readNumeral 10 (text.takeWhile Char.isDigit)) where
  nonempty := nonempty
  digits _ member := List.mem_takeWhile_imp member
  value := rfl

theorem regexMatch_some {text a b : List Char} (isMatch : regexMatch text = some (a, b)) :
    Digits a (readNumeral 10 a) ∧ Digits b (readNumeral 10 b) ∧
      RangeText text (readNumeral 10 a) (readNumeral 10 b) := by
  unfold regexMatch at isMatch
  split at isMatch
  · cases isMatch
  · next hyphen rest isRest =>
      split at isMatch
      · next shape =>
          obtain ⟨rfl, nonempty, nonempty', isTail⟩ := shape
          cases isMatch
          have digits := digits_takeWhile nonempty
          have digits' := digits_takeWhile nonempty'
          have range := RangeText.intro digits digits' isTail
          rw [List.takeWhile_append_dropWhile, ← isRest, List.takeWhile_append_dropWhile] at range
          exact ⟨digits, digits', range⟩
      · cases isMatch

theorem RangeText.chars {text : List Char} {first last : Nat} (range : RangeText text first last)
    {c : Char} (member : c ∈ text) : c.isDigit = true ∨ c = '-' ∨ c = '\n' := by
  obtain ⟨digits, digits', isTail⟩ := range
  simp only [List.mem_append, List.mem_cons] at member
  rcases member with front | hyphen | back | tail
  · exact .inl (digits.digits c front)
  · exact .inr (.inl hyphen)
  · exact .inl (digits'.digits c back)
  · rcases isTail with rfl | rfl
    · cases tail
    · exact .inr (.inr (List.mem_singleton.mp tail))

theorem RangeText.has_hyphen {text : List Char} {first last : Nat}
    (range : RangeText text first last) : '-' ∈ text := by
  obtain ⟨-, -, -⟩ := range
  simp

/-- No text is both a range and a number. -/
theorem RangeText.not_atoiReads {text : List Char} {first last : Nat}
    (range : RangeText text first last) (v : Int) : ¬ AtoiReads text v := by
  intro reads
  obtain ⟨digits, digits', isTail⟩ := range
  obtain ⟨c, rest, rfl⟩ := List.exists_cons_of_ne_nil digits.nonempty
  rw [List.cons_append] at reads
  obtain ⟨front, after, n, isText, isFront, -, spaces⟩ :=
    reads.of_digit (digits.digits c List.mem_cons_self)
  have hyphen : '-' ∈ front ++ after := by
    rw [← isText]
    simp
  rcases List.mem_append.mp hyphen with digit | space
  · exact absurd (isFront.digits _ digit) (by decide)
  · exact absurd (spaces _ space) (by decide)

end Ghost.Topology
