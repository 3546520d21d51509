import Ghost.Lib.Machine
import Mathlib.Data.Int.Order.Basic
import Mathlib.Logic.Function.Basic

/-!
# The update stream of the priority table

`MarkUpdatedIndex` and `NextUpdatedIndex` of `shared/prio_table.cc`: a small hash
of updated indices with an overflow counter. Any number of writers and one reader
interleave their atomic accesses; a call of a writer ends with the access that
makes the mark, and a call of the reader starts with its load of the counter.
-/

set_option autoImplicit false

namespace Ghost.Shared

open Lib

inductive StreamCapacity where
  | kStreamCapacity11
  | kStreamCapacity19
  | kStreamCapacity31
  | kStreamCapacity43
  | kStreamCapacity53
  | kStreamCapacity67
  | kStreamCapacity83
  | kStreamCapacity97
  deriving DecidableEq

def StreamCapacity.value : StreamCapacity → Nat
  | .kStreamCapacity11 => 11
  | .kStreamCapacity19 => 19
  | .kStreamCapacity31 => 31
  | .kStreamCapacity43 => 43
  | .kStreamCapacity53 => 53
  | .kStreamCapacity67 => 67
  | .kStreamCapacity83 => 83
  | .kStreamCapacity97 => 97

theorem StreamCapacity.value_pos (capacity : StreamCapacity) : 0 < capacity.value := by
  cases capacity <;> decide

def kStreamNoEntries : Int := -1

def kStreamOverflow : Int := -2

/-- `std::numeric_limits<uint32_t>::max()` as an `int`. -/
def kStreamFreeEntry : Int := -1

structure Stream (capacity : StreamCapacity) where
  scrapeAll : BitVec 32
  entries : Fin capacity.value → Int

section Steps

variable {capacity : StreamCapacity}

namespace Stream

/-- `entries[(idx + i) % st_cap]`, with the sum converted to `uint32_t`. -/
def cellOf (idx : Int) (i : Nat) : Fin capacity.value :=
  ⟨((idx + i) % 2 ^ 32).toNat % capacity.value, Nat.mod_lt _ capacity.value_pos⟩

/-- `num_retries + 1` in an `int`. -/
def attempts (numRetries : Int) : Int := (numRetries + 1).bmod (2 ^ 32)

def store (stream : Stream capacity) (cell : Fin capacity.value) (value : Int) : Stream capacity :=
  { stream with entries := Function.update stream.entries cell value }

@[simp] theorem store_self (stream : Stream capacity) (cell : Fin capacity.value) (value : Int) :
    (stream.store cell value).entries cell = value := Function.update_self ..

theorem store_of_ne (stream : Stream capacity) {cell other : Fin capacity.value} (value : Int)
    (different : other ≠ cell) : (stream.store cell value).entries other = stream.entries other :=
  Function.update_of_ne different ..

/-- `scrape_all` is a signed counter. -/
def overflowing (stream : Stream capacity) : Prop := 0 < stream.scrapeAll.toInt

instance (stream : Stream capacity) : Decidable stream.overflowing :=
  inferInstanceAs (Decidable (_ < _))

end Stream

/-- Where a writer stands in `MarkUpdatedIndex`. -/
inductive WriterPc where
  | idle
  | started (idx numRetries : Int)
  /-- At the head of the loop. -/
  | trying (idx numRetries : Int) (i : Nat)
  /-- The cell was free. -/
  | placing (idx numRetries : Int) (i : Nat)
  | adding (idx : Int)

inductive WriterAccess (capacity : StreamCapacity) where
  | call (idx numRetries : Int)
  | loadScrapeAll
  | loadCell
  | exchangeFails
  | place (idx : Int) (cell : Fin capacity.value)
  | overflow (idx : Int)

/-- The weak exchange may fail although the cell is free. -/
inductive WriterStep :
    Stream capacity → WriterPc → WriterAccess capacity → Stream capacity → WriterPc → Prop
  | call (stream : Stream capacity) {idx numRetries : Int} :
      0 ≤ idx → 0 ≤ numRetries →
      WriterStep stream .idle (.call idx numRetries) stream (.started idx numRetries)
  | loadScrapeAll (stream : Stream capacity) {idx numRetries : Int} :
      WriterStep stream (.started idx numRetries) .loadScrapeAll stream
        (if stream.overflowing then .adding idx else .trying idx numRetries 0)
  | loadCell (stream : Stream capacity) {idx numRetries : Int} {i : Nat} :
      (i : Int) < Stream.attempts numRetries →
      WriterStep stream (.trying idx numRetries i) .loadCell stream
        (if stream.entries (Stream.cellOf idx i) = kStreamFreeEntry then .placing idx numRetries i
          else .trying idx numRetries (i + 1))
  | exchangeFails (stream : Stream capacity) {idx numRetries : Int} {i : Nat} :
      WriterStep stream (.placing idx numRetries i) .exchangeFails stream
        (.trying idx numRetries (i + 1))
  | place {stream : Stream capacity} {idx numRetries : Int} {i : Nat} :
      stream.entries (Stream.cellOf idx i) = kStreamFreeEntry →
      WriterStep stream (.placing idx numRetries i) (.place idx (Stream.cellOf idx i))
        (stream.store (Stream.cellOf idx i) idx) .idle
  | exhausted (stream : Stream capacity) {idx numRetries : Int} {i : Nat} :
      ¬ (i : Int) < Stream.attempts numRetries →
      WriterStep stream (.trying idx numRetries i) (.overflow idx)
        { stream with scrapeAll := stream.scrapeAll + 1 } .idle
  | overflow (stream : Stream capacity) {idx : Int} :
      WriterStep stream (.adding idx) (.overflow idx)
        { stream with scrapeAll := stream.scrapeAll + 1 } .idle

/-- Where the reader stands in `NextUpdatedIndex`. -/
inductive ReaderPc (capacity : StreamCapacity) where
  | idle
  /-- The counter was positive. -/
  | resetting
  | scanning (fullScan : Bool) (i : Nat)
  /-- The entry was not free. -/
  | clearing (fullScan : Bool) (cell : Fin capacity.value) (idx : Int)
  | returning (idx : Int)

inductive ReaderAccess (capacity : StreamCapacity) where
  | loadScrapeAll
  | reset
  | loadEntry
  | clear (cell : Fin capacity.value)
  | returned (value : Int)

inductive ReaderStep : Stream capacity → ReaderPc capacity → ReaderAccess capacity →
    Stream capacity → ReaderPc capacity → Prop
  | loadScrapeAll (stream : Stream capacity) :
      ReaderStep stream .idle .loadScrapeAll stream
        (if stream.overflowing then .resetting else .scanning false 0)
  | reset (stream : Stream capacity) :
      ReaderStep stream .resetting .reset { stream with scrapeAll := 0 } (.scanning true 0)
  | loadEntry (stream : Stream capacity) {fullScan : Bool} {i : Nat} (inRange : i < capacity.value) :
      ReaderStep stream (.scanning fullScan i) .loadEntry stream
        (if stream.entries ⟨i, inRange⟩ = kStreamFreeEntry then .scanning fullScan (i + 1)
          else .clearing fullScan ⟨i, inRange⟩ (stream.entries ⟨i, inRange⟩))
  | clear (stream : Stream capacity) {fullScan : Bool} {cell : Fin capacity.value} {idx : Int} :
      ReaderStep stream (.clearing fullScan cell idx) (.clear cell)
        (stream.store cell kStreamFreeEntry)
        (if fullScan then .scanning fullScan (cell.val + 1) else .returning idx)
  | returned (stream : Stream capacity) {idx : Int} :
      ReaderStep stream (.returning idx) (.returned idx) stream .idle
  | finished (stream : Stream capacity) {fullScan : Bool} {i : Nat} :
      ¬ i < capacity.value →
      ReaderStep stream (.scanning fullScan i)
        (.returned (if fullScan then kStreamOverflow else kStreamNoEntries)) stream .idle

end Steps

/-! ## Interleavings -/

structure StreamState (capacity : StreamCapacity) (Writer : Type) where
  stream : Stream capacity
  writers : Writer → WriterPc
  reader : ReaderPc capacity

inductive StreamLabel (capacity : StreamCapacity) (Writer : Type) where
  | writer (writer : Writer) (access : WriterAccess capacity)
  | reader (access : ReaderAccess capacity)

namespace StreamLabel

variable {capacity : StreamCapacity} {Writer : Type}

def isOverflow : StreamLabel capacity Writer → Bool
  | .writer _ (.overflow _) => true
  | _ => false

/-- The reader starts a call. -/
def isNext : StreamLabel capacity Writer → Bool
  | .reader .loadScrapeAll => true
  | _ => false

end StreamLabel

/-- The overflowing marks since the reader last started a call, in a history with
the newest access first. -/
def overflowsSinceNext {capacity : StreamCapacity} {Writer : Type}
    (history : List (StreamLabel capacity Writer)) : Nat :=
  (history.takeWhile fun label => !label.isNext).countP StreamLabel.isOverflow

def streamAccesses (capacity : StreamCapacity) (Writer : Type) :
    Machine (StreamState capacity Writer) (StreamLabel capacity Writer) where
  initial state := state.stream = { scrapeAll := 0, entries := fun _ => kStreamFreeEntry } ∧
    (∀ writer, state.writers writer = .idle) ∧ state.reader = .idle
  step state label next :=
    match label with
    | .writer writer access =>
        WriterStep state.stream (state.writers writer) access next.stream (next.writers writer) ∧
          (∀ other, other ≠ writer → next.writers other = state.writers other) ∧
          next.reader = state.reader
    | .reader access =>
        ReaderStep state.stream state.reader access next.stream next.reader ∧
          next.writers = state.writers

/-- The runs with fewer than `2 ^ 31` overflowing marks between two calls of the
reader, with their histories. -/
def streams (capacity : StreamCapacity) (Writer : Type) :
    Machine (StreamState capacity Writer × List (StreamLabel capacity Writer))
      (StreamLabel capacity Writer) :=
  (streamAccesses capacity Writer).recorded.restrict fun state label =>
    overflowsSinceNext (label :: state.2) < 2 ^ 31

end Ghost.Shared
