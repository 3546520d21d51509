import Ghost.Shared.PrioTableProperties

/-!
# The overflow counter

Marks that find no free cell add to a signed counter, which the next call of the reader
compares with zero. Here the number of marks between two calls is not bounded.
-/

set_option autoImplicit false

namespace Ghost.Shared

open Lib

section Calls

variable {capacity : StreamCapacity} {Writer : Type}

def StreamLabel.isWriter : StreamLabel capacity Writer → Bool
  | .writer .. => true
  | .reader _ => false

def StreamLabel.isReturned : StreamLabel capacity Writer → Bool
  | .reader (.returned _) => true
  | _ => false

/-- Accesses of the writers between two calls of the reader. -/
structure Burst (state : StreamState capacity Writer)
    (labels : List (StreamLabel capacity Writer)) (called : StreamState capacity Writer) : Prop where
  idle : state.reader = .idle
  writers : ∀ label ∈ labels, label.isWriter = true
  run : (streamAccesses capacity Writer).Run state labels called

/-- `NextUpdatedIndex` from its first access to its return. Writers may go on meanwhile. -/
def NextCall (state : StreamState capacity Writer)
    (labels : List (StreamLabel capacity Writer)) (value : Int)
    (last : StreamState capacity Writer) : Prop :=
  (∀ label ∈ labels, label.isReturned = false) ∧ ∃ started returning,
    (streamAccesses capacity Writer).step state (.reader .loadScrapeAll) started ∧
      (streamAccesses capacity Writer).Run started labels returning ∧
      (streamAccesses capacity Writer).step returning (.reader (.returned value)) last

/-- The next call returns, and with `kStreamOverflow`. -/
structure ReportsOverflow (state : StreamState capacity Writer) : Prop where
  returns : ∃ labels last, NextCall state labels kStreamOverflow last
  always : ∀ labels value last, NextCall state labels value last → value = kStreamOverflow

/-- At least one of the marks took the overflow path. -/
def Overflowed (labels : List (StreamLabel capacity Writer)) : Prop :=
  ∃ label ∈ labels, label.isOverflow = true

end Calls

section Steps

variable {capacity : StreamCapacity} {Writer : Type} {state next : StreamState capacity Writer}
  {label : StreamLabel capacity Writer} {labels : List (StreamLabel capacity Writer)}

/-- No cell and no running mark holds `kStreamOverflow`. -/
structure StreamState.Valid (state : StreamState capacity Writer) : Prop where
  entries : ∀ cell, state.stream.entries cell ≠ kStreamOverflow
  marks : ∀ writer idx, (state.writers writer).marks = some idx → 0 ≤ idx

private theorem Stream.store_ne {stream : Stream capacity} {value : Int} (cell : Fin capacity.value)
    (entries : ∀ cell, stream.entries cell ≠ value) {stored : Int} (different : stored ≠ value)
    (other : Fin capacity.value) : (stream.store cell stored).entries other ≠ value := by
  by_cases same : other = cell
  · rw [same, Stream.store_self]
    exact different
  · rw [Stream.store_of_ne _ _ same]
    exact entries other

theorem StreamState.Valid.step (valid : state.Valid)
    (moved : (streamAccesses capacity Writer).step state label next) : next.Valid := by
  cases label with
  | writer writer access =>
      obtain ⟨moved, others, -⟩ := moved
      constructor
      · intro cell
        rcases moved.effect with ⟨same, -⟩ | ⟨idx, placed, -, marks, -, same⟩ | ⟨idx, -, -, same⟩
        · exact same ▸ valid.entries cell
        · have nonneg := valid.marks writer idx marks
          rw [same]
          exact Stream.store_ne placed valid.entries (by rw [kStreamOverflow]; omega) cell
        · exact same ▸ valid.entries cell
      · intro other idx marks
        by_cases isWriter : other = writer
        · rw [isWriter] at marks
          exact (moved.marks marks).elim (valid.marks writer idx) id
        · rw [others other isWriter] at marks
          exact valid.marks other idx marks
  | reader access =>
      obtain ⟨stream, writers, reader⟩ := state
      obtain ⟨stream', writers', reader'⟩ := next
      obtain ⟨moved, rfl⟩ := moved
      refine ⟨?_, valid.marks⟩
      dsimp only at moved ⊢
      cases moved with
      | clear => exact Stream.store_ne _ valid.entries (by decide)
      | _ => exact valid.entries

private theorem streamAccesses_valid
    (reachable : (streamAccesses capacity Writer).Reachable state) :
    state.Valid := by
  refine reachable.invariant StreamState.Valid ?_ fun _ _ _ valid moved => valid.step moved
  rintro first ⟨free, idle, -⟩
  constructor
  · intro cell
    have different : kStreamFreeEntry ≠ kStreamOverflow := by decide
    rw [free]
    exact different
  · intro writer idx marks
    rw [idle writer] at marks
    cases marks

/-- A call of the reader is under way, with this outcome of its test of the counter. -/
def ReaderPc.Scans (fullScan : Bool) : ReaderPc capacity → Prop
  | .idle => False
  | .resetting => fullScan = true
  | .scanning full _ => full = fullScan
  | .clearing full _ idx => full = fullScan ∧ idx ≠ kStreamOverflow
  | .returning idx => fullScan = false ∧ idx ≠ kStreamOverflow

theorem ReaderPc.Scans.step {fullScan : Bool} (scans : state.reader.Scans fullScan)
    (valid : state.Valid) (moved : (streamAccesses capacity Writer).step state label next)
    (running : label.isReturned = false) : next.reader.Scans fullScan := by
  cases label with
  | writer writer access =>
      obtain ⟨-, -, sameReader⟩ := moved
      rw [sameReader]
      exact scans
  | reader access =>
      obtain ⟨stream, writers, reader⟩ := state
      obtain ⟨stream', writers', reader'⟩ := next
      obtain ⟨moved, -⟩ := moved
      dsimp only at moved scans ⊢
      cases moved with
      | loadScrapeAll => exact scans.elim
      | reset => exact scans.symm
      | @loadEntry full i inRange =>
          split
          · exact scans
          · exact ⟨scans, valid.entries ⟨i, inRange⟩⟩
      | @clear full cell idx =>
          obtain ⟨rfl, different⟩ := scans
          cases full with
          | true => exact rfl
          | false => exact ⟨rfl, different⟩
      | returned => cases running
      | finished => cases running

private theorem ReaderPc.Scans.returns {fullScan : Bool} {value : Int}
    (scans : state.reader.Scans fullScan)
    (moved : (streamAccesses capacity Writer).step state (.reader (.returned value)) next) :
    value = kStreamOverflow ↔ fullScan = true := by
  obtain ⟨stream, writers, reader⟩ := state
  obtain ⟨stream', writers', reader'⟩ := next
  obtain ⟨moved, -⟩ := moved
  dsimp only at moved scans
  cases moved with
  | returned =>
      obtain ⟨rfl, different⟩ := scans
      simp [different]
  | @finished full =>
      obtain rfl : full = fullScan := scans
      cases full <;> decide

theorem ReaderPc.Scans.run {fullScan : Bool}
    (run : (streamAccesses capacity Writer).Run state labels next) (scans : state.reader.Scans fullScan)
    (valid : state.Valid) (running : ∀ label ∈ labels, label.isReturned = false) :
    next.reader.Scans fullScan := by
  induction run with
  | nil => exact scans
  | cons moved _ ih =>
      exact ih (scans.step valid moved (running _ List.mem_cons_self)) (valid.step moved)
        fun label member => running label (List.mem_cons_of_mem _ member)

/-- Whether a call reports an overflow is decided by its first access. -/
theorem NextCall.overflow_iff {value : Int} {last : StreamState capacity Writer}
    (call : NextCall state labels value last) (valid : state.Valid) :
    value = kStreamOverflow ↔ state.stream.overflowing := by
  obtain ⟨running, started, returning, loaded, run, returned⟩ := call
  have scans : started.reader.Scans (decide state.stream.overflowing) := by
    obtain ⟨stream, writers, reader⟩ := state
    obtain ⟨stream', writers', reader'⟩ := started
    obtain ⟨moved, -⟩ := loaded
    dsimp only at moved ⊢
    cases moved with
    | loadScrapeAll =>
        split
        · next positive => exact decide_eq_true positive
        · next notPositive => exact (decide_eq_false notPositive).symm
  rw [(scans.run run (valid.step loaded) running).returns returned, decide_eq_true_iff]

private theorem ReaderStep.access {stream stream' : Stream capacity}
    {reader reader' : ReaderPc capacity}
    {access : ReaderAccess capacity} (moved : ReaderStep stream reader access stream' reader')
    (writers : Writer → WriterPc) :
    (streamAccesses capacity Writer).step ⟨stream, writers, reader⟩ (.reader access)
      ⟨stream', writers, reader'⟩ := ⟨moved, rfl⟩

/-- The reader alone gets through its scan. -/
theorem exists_fullScan (stream : Stream capacity) (writers : Writer → WriterPc) (left i : Nat)
    (reaches : i + left = capacity.value) :
    ∃ labels stream', (∀ label ∈ labels, StreamLabel.isReturned label = false) ∧
      (streamAccesses capacity Writer).Run ⟨stream, writers, .scanning true i⟩ labels
        ⟨stream', writers, .scanning true capacity.value⟩ := by
  induction left generalizing stream i with
  | zero =>
      obtain rfl : i = capacity.value := reaches
      exact ⟨[], stream, by simp, .nil _⟩
  | succ left ih =>
      have inRange : i < capacity.value := by omega
      by_cases free : stream.entries ⟨i, inRange⟩ = kStreamFreeEntry
      · obtain ⟨labels, stream', running, run⟩ := ih stream (i + 1) (by omega)
        have loaded : ReaderStep stream (.scanning true i) .loadEntry stream
            (.scanning true (i + 1)) := by
          have loaded := @ReaderStep.loadEntry _ stream true i inRange
          rwa [if_pos free] at loaded
        refine ⟨.reader .loadEntry :: labels, stream', ?_, .cons (loaded.access writers) run⟩
        exact List.forall_mem_cons.mpr ⟨rfl, running⟩
      · obtain ⟨labels, stream', running, run⟩ :=
          ih (stream.store ⟨i, inRange⟩ kStreamFreeEntry) (i + 1) (by omega)
        have loaded : ReaderStep stream (.scanning true i) .loadEntry stream
            (.clearing true ⟨i, inRange⟩ (stream.entries ⟨i, inRange⟩)) := by
          have loaded := @ReaderStep.loadEntry _ stream true i inRange
          rwa [if_neg free] at loaded
        refine ⟨.reader .loadEntry :: .reader (.clear ⟨i, inRange⟩) :: labels, stream', ?_,
          .cons (loaded.access writers) (.cons ((ReaderStep.clear stream).access writers) run)⟩
        exact List.forall_mem_cons.mpr ⟨rfl, List.forall_mem_cons.mpr ⟨rfl, running⟩⟩

private theorem exists_nextCall_overflow (idle : state.reader = .idle)
    (overflowing : state.stream.overflowing) :
    ∃ labels last, NextCall state labels kStreamOverflow last := by
  obtain ⟨stream, writers, reader⟩ := state
  obtain rfl : reader = .idle := idle
  obtain ⟨labels, stream', running, run⟩ :=
    exists_fullScan { stream with scrapeAll := 0 } writers capacity.value 0 (Nat.zero_add _)
  have loaded : ReaderStep stream .idle .loadScrapeAll stream .resetting := by
    have loaded := ReaderStep.loadScrapeAll stream
    rwa [if_pos overflowing] at loaded
  refine ⟨.reader .reset :: labels, ⟨stream', writers, .idle⟩,
    List.forall_mem_cons.mpr ⟨rfl, running⟩, ⟨stream, writers, .resetting⟩, _, loaded.access writers,
    .cons ((ReaderStep.reset stream).access writers) run, ?_⟩
  exact (ReaderStep.finished stream' (lt_irrefl _)).access writers

private theorem reportsOverflow_iff (valid : state.Valid) (idle : state.reader = .idle) :
    ReportsOverflow state ↔ state.stream.overflowing := by
  constructor
  · intro reports
    obtain ⟨labels, last, call⟩ := reports.returns
    exact (call.overflow_iff valid).mp rfl
  · intro overflowing
    exact ⟨exists_nextCall_overflow idle overflowing,
      fun _ _ _ call => (call.overflow_iff valid).mpr overflowing⟩

/-! ## Bursts -/

/-- Each overflowing mark adds one, in 32 bits. -/
theorem Burst.counts {called : StreamState capacity Writer} (burst : Burst state labels called) :
    called.reader = .idle ∧ called.stream.scrapeAll =
      state.stream.scrapeAll + BitVec.ofNat 32 (labels.countP StreamLabel.isOverflow) := by
  obtain ⟨idle, writers, run⟩ := burst
  induction run with
  | nil => exact ⟨idle, by simp⟩
  | @cons state next called label labels moved _ ih =>
      obtain ⟨isWriter, laterWriters⟩ := List.forall_mem_cons.mp writers
      cases label with
      | reader access => cases isWriter
      | writer writer access =>
          obtain ⟨moved, -, sameReader⟩ := moved
          obtain ⟨calledIdle, counted⟩ := ih (sameReader.trans idle) laterWriters
          refine ⟨calledIdle, ?_⟩
          rw [counted]
          rcases moved.effect with ⟨same, notOverflow, -⟩ | ⟨idx, cell, rfl, -, -, same⟩ |
            ⟨idx, rfl, -, same⟩
          · have quiet : (StreamLabel.writer writer access).isOverflow = false := by
              cases access with
              | overflow idx => exact absurd rfl (notOverflow idx)
              | _ => rfl
            rw [same, List.countP_cons_of_neg (by simp [quiet])]
          · rw [same, List.countP_cons_of_neg (by simp [StreamLabel.isOverflow])]
            rfl
          · rw [same, List.countP_cons_of_pos rfl, Nat.add_comm, BitVec.ofNat_add,
              ← BitVec.add_assoc]
            rfl

private theorem Burst.overflowing_iff {called : StreamState capacity Writer}
    (burst : Burst state labels called) : called.stream.overflowing ↔
      0 < (state.stream.scrapeAll.toInt + labels.countP StreamLabel.isOverflow).bmod (2 ^ 32) := by
  rw [Stream.overflowing, burst.counts.2, BitVec.toInt_add, BitVec.toInt_ofNat', Int.add_bmod_bmod]

/-- The indication of an overflow survives a burst exactly if the counter, in 32 bits and
with its sign, is still positive. -/
theorem overflow_survives_iff {called : StreamState capacity Writer}
    (reachable : (streamAccesses capacity Writer).Reachable state)
    (burst : Burst state labels called) :
    (Overflowed labels → ReportsOverflow called) ↔ (Overflowed labels →
      0 < (state.stream.scrapeAll.toInt + labels.countP StreamLabel.isOverflow).bmod (2 ^ 32)) := by
  have valid : called.Valid := burst.run.invariant _ (fun _ _ _ valid moved => valid.step moved)
    (streamAccesses_valid reachable)
  rw [reportsOverflow_iff valid burst.counts.1, burst.overflowing_iff]

end Steps

/-! ## One writer -/

section OneWriter

/-- A stream of capacity 11, with index 0 in its cell. -/
def holdingZero (scrapeAll : BitVec 32) : Stream .kStreamCapacity11 :=
  ⟨scrapeAll, Function.update (fun _ => kStreamFreeEntry) (Stream.cellOf 0 0) 0⟩

def betweenCalls (stream : Stream .kStreamCapacity11) : StreamState .kStreamCapacity11 Unit :=
  ⟨stream, fun _ => .idle, .idle⟩

private theorem WriterStep.access {capacity : StreamCapacity} {stream stream' : Stream capacity}
    {pc pc' : WriterPc} {access : WriterAccess capacity}
    (moved : WriterStep stream pc access stream' pc') (reader : ReaderPc capacity) :
    (streamAccesses capacity Unit).step ⟨stream, fun _ => pc, reader⟩ (.writer () access)
      ⟨stream', fun _ => pc', reader⟩ :=
  ⟨moved, fun _ different => absurd rfl different, rfl⟩

/-- A mark while the counter is positive. -/
def overflowMark : List (StreamLabel .kStreamCapacity11 Unit) :=
  [.writer () (.call 0 0), .writer () .loadScrapeAll, .writer () (.overflow 0)]

private theorem overflowMark_writers : ∀ label ∈ overflowMark, label.isWriter = true := by decide

theorem overflowMark_run {stream : Stream .kStreamCapacity11} (overflowing : stream.overflowing) :
    (streamAccesses .kStreamCapacity11 Unit).Run (betweenCalls stream) overflowMark
      (betweenCalls { stream with scrapeAll := stream.scrapeAll + 1 }) := by
  have loaded : WriterStep stream (.started 0 0) .loadScrapeAll stream (.adding 0) := by
    have loaded := @WriterStep.loadScrapeAll _ stream 0 0
    rwa [if_pos overflowing] at loaded
  exact .cons ((WriterStep.call stream le_rfl le_rfl).access .idle) (.cons (loaded.access .idle)
    (.cons ((WriterStep.overflow stream).access .idle) (.nil _)))

/-- Index 0 is marked twice, without retries: the second mark finds its cell taken. -/
def markTwice : List (StreamLabel .kStreamCapacity11 Unit) :=
  [.writer () (.call 0 0), .writer () .loadScrapeAll, .writer () .loadCell,
    .writer () (.place 0 (Stream.cellOf 0 0)), .writer () (.call 0 0), .writer () .loadScrapeAll,
    .writer () .loadCell, .writer () (.overflow 0)]

def freshStream : Stream .kStreamCapacity11 := ⟨0, fun _ => kStreamFreeEntry⟩

theorem markTwice_run : (streamAccesses .kStreamCapacity11 Unit).Run (betweenCalls freshStream)
    markTwice (betweenCalls (holdingZero 1)) := by
  have placed : WriterStep freshStream (.placing 0 0 0) (.place 0 (Stream.cellOf 0 0))
      (holdingZero 0) .idle := .place rfl
  exact .cons ((WriterStep.call freshStream le_rfl le_rfl).access .idle)
    (.cons ((WriterStep.loadScrapeAll freshStream).access .idle)
    (.cons ((WriterStep.loadCell freshStream (by decide)).access .idle)
    (.cons (placed.access .idle)
    (.cons ((WriterStep.call (holdingZero 0) le_rfl le_rfl).access .idle)
    (.cons ((WriterStep.loadScrapeAll (holdingZero 0)).access .idle)
    (.cons ((WriterStep.loadCell (holdingZero 0) (by decide)).access .idle)
    (.cons ((WriterStep.exhausted (holdingZero 0) (by decide)).access .idle) (.nil _))))))))

/-- Any number of marks up to the limit of the counter. -/
theorem overflowMarks_run (marks : Nat) (few : marks < 2 ^ 31) :
    ∃ labels, (∀ label ∈ labels, label.isWriter = true) ∧
      labels.countP StreamLabel.isOverflow = marks + 1 ∧
      (streamAccesses .kStreamCapacity11 Unit).Run (betweenCalls freshStream) labels
        (betweenCalls (holdingZero (BitVec.ofNat 32 (marks + 1)))) := by
  induction marks with
  | zero => exact ⟨markTwice, by decide, by decide, markTwice_run⟩
  | succ marks ih =>
      obtain ⟨labels, writers, counted, run⟩ := ih (by omega)
      have overflowing : (holdingZero (BitVec.ofNat 32 (marks + 1))).overflowing := by
        rw [Stream.overflowing, holdingZero, BitVec.toInt_ofNat']
        rw [Int.bmod_eq_of_le (by omega) (by omega)]
        omega
      have oneMore := overflowMark_run overflowing
      refine ⟨labels ++ overflowMark, ?_, ?_, ?_⟩
      · intro label member
        rcases List.mem_append.mp member with earlier | later
        · exact writers label earlier
        · exact overflowMark_writers label later
      · rw [List.countP_append, counted]
        rfl
      · rw [BitVec.ofNat_add (marks + 1) 1]
        exact run.append oneMore

theorem freshStream_reachable :
    (streamAccesses .kStreamCapacity11 Unit).Reachable (betweenCalls freshStream) :=
  ⟨_, [], ⟨rfl, fun _ => rfl, rfl⟩, .nil _⟩

/-- One overflow is reported. -/
theorem overflow_survives_once : ReportsOverflow (betweenCalls (holdingZero 1)) := by
  have burst : Burst (betweenCalls freshStream) markTwice (betweenCalls (holdingZero 1)) :=
    ⟨rfl, by decide, markTwice_run⟩
  exact (overflow_survives_iff freshStream_reachable burst).mpr (fun _ => by decide)
    ⟨.writer () (.overflow 0), by simp [markTwice], rfl⟩

/-- `2 ^ 31` overflows are not: the next call reports index 0 only. -/
theorem overflow_lost : ∃ labels called,
    Burst (betweenCalls freshStream) labels called ∧
      labels.countP StreamLabel.isOverflow = 2 ^ 31 ∧
      (∃ reads last, NextCall called reads 0 last) ∧
      ¬ (Overflowed labels → ReportsOverflow called) := by
  obtain ⟨labels, writers, counted, run⟩ := overflowMarks_run (2 ^ 31 - 1) (by decide)
  have negative : ¬ (holdingZero (BitVec.ofNat 32 (2 ^ 31))).overflowing := by decide
  have loaded : ReaderStep (holdingZero (BitVec.ofNat 32 (2 ^ 31))) .idle .loadScrapeAll
      (holdingZero (BitVec.ofNat 32 (2 ^ 31))) (.scanning false 0) := by
    have loaded := ReaderStep.loadScrapeAll (holdingZero (BitVec.ofNat 32 (2 ^ 31)))
    rwa [if_neg negative] at loaded
  have taken : NextCall (betweenCalls (holdingZero (BitVec.ofNat 32 (2 ^ 31))))
      [.reader .loadEntry, .reader (.clear (Stream.cellOf 0 0))] 0
      (betweenCalls ((holdingZero (BitVec.ofNat 32 (2 ^ 31))).store (Stream.cellOf 0 0)
        kStreamFreeEntry)) := by
    refine ⟨by decide, _, _, loaded.access _, .cons
      ((ReaderStep.loadEntry _ (StreamCapacity.value_pos _)).access _)
      (.cons ((ReaderStep.clear _).access _) (.nil _)), (ReaderStep.returned _).access _⟩
  refine ⟨labels, _, ⟨rfl, writers, run⟩, counted, ⟨_, _, taken⟩, ?_⟩
  intro survives
  have overflowed : Overflowed labels := by
    have positive : 0 < labels.countP StreamLabel.isOverflow := by omega
    exact List.countP_pos_iff.mp positive
  exact absurd ((survives overflowed).always _ _ _ taken) (by decide)

end OneWriter

end Ghost.Shared
