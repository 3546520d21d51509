import Ghost.Shared.PrioTable

/-!
# No lost updates

A mark is covered from the access that makes it until the reader reports it or an
overflow: it stands in a cell, or the counter is positive, or the call of the
reader that took it is still running.
-/

set_option autoImplicit false

namespace Ghost.Shared

open Lib

/-- The index that a call of `MarkUpdatedIndex` is about. -/
def WriterPc.marks : WriterPc → Option Int
  | .idle => none
  | .started idx _ => some idx
  | .trying idx _ _ => some idx
  | .placing idx _ _ => some idx
  | .adding idx => some idx

section Accesses

variable {capacity : StreamCapacity} {stream stream' : Stream capacity} {pc pc' : WriterPc}
  {access : WriterAccess capacity}

/-- What an access of a writer does to the stream. -/
theorem WriterStep.effect (moved : WriterStep stream pc access stream' pc') :
    (stream' = stream ∧ (∀ idx, access ≠ .overflow idx) ∧ ∀ idx cell, access ≠ .place idx cell) ∨
      (∃ idx cell, access = .place idx cell ∧ pc.marks = some idx ∧
        stream.entries cell = kStreamFreeEntry ∧ stream' = stream.store cell idx) ∨
      ∃ idx, access = .overflow idx ∧ pc.marks = some idx ∧
        stream' = { stream with scrapeAll := stream.scrapeAll + 1 } := by
  cases moved with
  | place free => exact .inr (.inl ⟨_, _, rfl, rfl, free, rfl⟩)
  | exhausted => exact .inr (.inr ⟨_, rfl, rfl, rfl⟩)
  | overflow => exact .inr (.inr ⟨_, rfl, rfl, rfl⟩)
  | _ => exact .inl ⟨rfl, nofun, nofun⟩

/-- The index of a running call is the one it was called with. -/
theorem WriterStep.marks {idx : Int} (moved : WriterStep stream pc access stream' pc')
    (marks : pc'.marks = some idx) : pc.marks = some idx ∨ 0 ≤ idx := by
  cases moved with
  | call nonneg _ =>
      cases marks
      exact .inr nonneg
  | loadScrapeAll =>
      split at marks
      · exact .inl marks
      · exact .inl marks
  | loadCell =>
      split at marks
      · exact .inl marks
      · exact .inl marks
  | exchangeFails => exact .inl marks
  | _ => cases marks

end Accesses

section Histories

variable {capacity : StreamCapacity} {Writer : Type} {label : StreamLabel capacity Writer}
  {history : List (StreamLabel capacity Writer)} {cell : Fin capacity.value} {idx : Int}

/-- The cell was marked with the index after it was last cleared. -/
def MarkedSince (cell : Fin capacity.value) (idx : Int)
    (history : List (StreamLabel capacity Writer)) : Prop :=
  ∃ since writer rest, history = since ++ .writer writer (.place idx cell) :: rest ∧
    .reader (.clear cell) ∉ since

/-- The last access of the reader cleared a cell that was marked with the index. -/
def Taken (idx : Int) (history : List (StreamLabel capacity Writer)) : Prop :=
  ∃ recent cell older, history = recent ++ .reader (.clear cell) :: older ∧
    (∀ access, .reader access ∉ recent) ∧ MarkedSince cell idx older

private theorem MarkedSince.cons (marked : MarkedSince cell idx history)
    (notCleared : label ≠ .reader (.clear cell)) : MarkedSince cell idx (label :: history) := by
  obtain ⟨since, writer, rest, rfl, notSince⟩ := marked
  refine ⟨label :: since, writer, rest, rfl, ?_⟩
  intro member
  cases member with
  | head => exact notCleared rfl
  | tail _ later => exact notSince later

private theorem Taken.cons (taken : Taken idx history) (writer : Writer)
    (access : WriterAccess capacity) :
    Taken idx (.writer writer access :: history) := by
  obtain ⟨recent, cell, older, rfl, quiet, marked⟩ := taken
  refine ⟨.writer writer access :: recent, cell, older, rfl, ?_, marked⟩
  intro access' member
  cases member with
  | tail _ later => exact quiet access' later

private theorem overflowsSinceNext_overflow (writer : Writer) :
    overflowsSinceNext (.writer writer (.overflow idx) :: history) =
      overflowsSinceNext history + 1 := by
  rw [overflowsSinceNext, List.takeWhile_cons_of_pos rfl, List.countP_cons_of_pos rfl]
  rfl

private theorem overflowsSinceNext_of_quiet (notNext : label.isNext = false)
    (notOverflow : label.isOverflow = false) :
    overflowsSinceNext (label :: history) = overflowsSinceNext history := by
  simp [overflowsSinceNext, notNext, notOverflow]

end Histories

/-! ## The invariant -/

structure Tidy {capacity : StreamCapacity} {Writer : Type}
    (state : StreamState capacity Writer × List (StreamLabel capacity Writer)) : Prop where
  few : overflowsSinceNext state.2 < 2 ^ 31
  counted : state.1.reader ≠ .resetting →
    state.1.stream.scrapeAll.toNat ≤ overflowsSinceNext state.2
  valid : ∀ writer idx, (state.1.writers writer).marks = some idx → 0 ≤ idx
  marked : ∀ cell, state.1.stream.entries cell ≠ kStreamFreeEntry →
    MarkedSince cell (state.1.stream.entries cell) state.2
  clearing : ∀ fullScan cell idx, state.1.reader = .clearing fullScan cell idx →
    state.1.stream.entries cell = idx ∧ idx ≠ kStreamFreeEntry
  returning : ∀ idx, state.1.reader = .returning idx → idx ≠ kStreamFreeEntry ∧ Taken idx state.2

section Invariant

variable {capacity : StreamCapacity} {Writer : Type}
  {state next : StreamState capacity Writer × List (StreamLabel capacity Writer)}

private theorem Tidy.writerStep (tidy : Tidy state) {writer : Writer}
    {access : WriterAccess capacity}
    (moved : (streams capacity Writer).step state (.writer writer access) next) : Tidy next := by
  obtain ⟨few, ⟨moved, others, sameReader⟩, history⟩ := moved
  have valid : ∀ other idx, (next.1.writers other).marks = some idx → 0 ≤ idx := by
    intro other idx marks
    by_cases same : other = writer
    · subst same
      cases moved.marks marks with
      | inl before => exact tidy.valid other idx before
      | inr nonneg => exact nonneg
    · rw [others other same] at marks
      exact tidy.valid other idx marks
  rw [← history] at few
  have returning : ∀ idx, next.1.reader = .returning idx →
      idx ≠ kStreamFreeEntry ∧ Taken idx next.2 := by
    intro idx returns
    obtain ⟨notFree, taken⟩ := tidy.returning idx (sameReader ▸ returns)
    exact ⟨notFree, history ▸ taken.cons writer access⟩
  rcases moved.effect with ⟨same, quiet, -⟩ | ⟨idx, cell, isPlace, marks, free, placed⟩ |
    ⟨idx, isOverflow, -, added⟩
  · have notOverflow : (StreamLabel.writer writer access).isOverflow = false := by
      cases access with
      | overflow idx => exact absurd rfl (quiet idx)
      | _ => rfl
    have count : overflowsSinceNext next.2 = overflowsSinceNext state.2 := by
      rw [history]
      exact overflowsSinceNext_of_quiet rfl notOverflow
    refine ⟨few, ?_, valid, ?_, ?_, returning⟩
    · rw [sameReader, same, count]
      exact tidy.counted
    · intro cell occupied
      rw [same] at occupied ⊢
      rw [history]
      exact (tidy.marked cell occupied).cons nofun
    · rw [sameReader, same]
      exact tidy.clearing
  · have count : overflowsSinceNext next.2 = overflowsSinceNext state.2 := by
      rw [history, isPlace]
      exact overflowsSinceNext_of_quiet rfl rfl
    refine ⟨few, ?_, valid, ?_, ?_, returning⟩
    · rw [sameReader, placed, count]
      exact tidy.counted
    · intro other occupied
      rw [placed] at occupied ⊢
      rw [history, isPlace]
      by_cases same : other = cell
      · subst same
        rw [Stream.store_self]
        exact ⟨[], writer, state.2, rfl, List.not_mem_nil⟩
      · rw [Stream.store_of_ne _ _ same] at occupied ⊢
        exact (tidy.marked other occupied).cons nofun
    · intro fullScan other value place
      rw [sameReader] at place
      obtain ⟨holds, occupied⟩ := tidy.clearing fullScan other value place
      have different : other ≠ cell := by
        intro same
        rw [← holds, same] at occupied
        exact occupied free
      rw [placed, Stream.store_of_ne _ _ different]
      exact ⟨holds, occupied⟩
  · have count : overflowsSinceNext next.2 = overflowsSinceNext state.2 + 1 := by
      rw [history, isOverflow]
      exact overflowsSinceNext_overflow writer
    refine ⟨few, ?_, valid, ?_, ?_, returning⟩
    · intro notResetting
      rw [sameReader] at notResetting
      have before := tidy.counted notResetting
      rw [added, count]
      rw [BitVec.toNat_add]
      have carry : (1 : BitVec 32).toNat = 1 := rfl
      omega
    · intro other occupied
      rw [added] at occupied ⊢
      rw [history]
      exact (tidy.marked other occupied).cons nofun
    · rw [sameReader, added]
      exact tidy.clearing

private theorem Tidy.readerStep (tidy : Tidy state) {access : ReaderAccess capacity}
    (moved : (streams capacity Writer).step state (.reader access) next) : Tidy next := by
  obtain ⟨⟨stream, writers, reader⟩, past⟩ := state
  obtain ⟨⟨stream', writers', reader'⟩, past'⟩ := next
  obtain ⟨few, ⟨moved, sameWriters⟩, history⟩ := moved
  dsimp only at few moved sameWriters history
  subst sameWriters history
  have counted : reader ≠ .resetting → access ≠ .loadScrapeAll →
      stream.scrapeAll.toNat ≤ overflowsSinceNext (.reader access :: past) := by
    intro notResetting notNext
    have quiet : (StreamLabel.reader access : StreamLabel capacity Writer).isNext = false := by
      cases access with
      | loadScrapeAll => exact absurd rfl notNext
      | _ => rfl
    rw [overflowsSinceNext_of_quiet quiet rfl]
    exact tidy.counted notResetting
  have marked : ∀ cell, stream.entries cell ≠ kStreamFreeEntry →
      access ≠ .clear cell → MarkedSince cell (stream.entries cell) (.reader access :: past) := by
    intro cell occupied notCleared
    exact (tidy.marked cell occupied).cons fun equal => notCleared (StreamLabel.reader.inj equal)
  cases moved with
  | loadScrapeAll =>
      refine ⟨few, ?_, tidy.valid, fun cell occupied => marked cell occupied nofun, ?_, ?_⟩
      · intro notResetting
        dsimp only at notResetting
        split at notResetting
        · exact absurd rfl notResetting
        · next calm =>
            have before : stream.scrapeAll.toNat ≤ overflowsSinceNext past := tidy.counted nofun
            have below : overflowsSinceNext past < 2 ^ 31 := tidy.few
            have zero : stream.scrapeAll.toNat = 0 := by
              rw [Stream.overflowing, BitVec.toInt_eq_toNat_of_lt (by omega)] at calm
              omega
            exact zero.le
      · intro fullScan cell idx place
        dsimp only at place
        split at place <;> cases place
      · intro idx place
        dsimp only at place
        split at place <;> cases place
  | reset =>
      refine ⟨few, fun _ => Nat.zero_le _, tidy.valid,
        fun cell occupied => marked cell occupied nofun, nofun, nofun⟩
  | @loadEntry fullScan i inRange =>
      refine ⟨few, ?_, tidy.valid, fun cell occupied => marked cell occupied nofun, ?_, ?_⟩
      · intro _
        exact counted nofun nofun
      · intro fullScan' cell idx place
        dsimp only at place
        split at place
        · cases place
        · next occupied =>
            cases place
            exact ⟨rfl, occupied⟩
      · intro idx place
        dsimp only at place
        split at place <;> cases place
  | @clear fullScan cell idx =>
      obtain ⟨holds, occupied⟩ := tidy.clearing fullScan cell idx rfl
      dsimp only at holds
      refine ⟨few, ?_, tidy.valid, ?_, ?_, ?_⟩
      · intro _
        exact counted nofun nofun
      · intro other stillOccupied
        by_cases same : other = cell
        · subst same
          exact absurd (Stream.store_self ..) stillOccupied
        · have kept := Stream.store_of_ne stream kStreamFreeEntry same
          dsimp only at stillOccupied ⊢
          rw [kept] at stillOccupied ⊢
          exact marked other stillOccupied fun equal => same (by cases equal; rfl)
      · intro fullScan' other value place
        dsimp only at place
        split at place <;> cases place
      · intro value place
        dsimp only at place
        split at place
        · cases place
        · cases place
          exact ⟨occupied, [], cell, past, rfl, nofun, holds ▸ tidy.marked cell (holds ▸ occupied)⟩
  | returned =>
      exact ⟨few, fun _ => counted nofun nofun, tidy.valid,
        fun cell occupied => marked cell occupied nofun, nofun, nofun⟩
  | finished =>
      exact ⟨few, fun _ => counted nofun nofun, tidy.valid,
        fun cell occupied => marked cell occupied nofun, nofun, nofun⟩

theorem Tidy.step (tidy : Tidy state) {label : StreamLabel capacity Writer}
    (moved : (streams capacity Writer).step state label next) : Tidy next := by
  cases label with
  | writer writer access => exact tidy.writerStep moved
  | reader access => exact tidy.readerStep moved

private theorem streams_tidy (reachable : (streams capacity Writer).Reachable state) :
    Tidy state := by
  refine reachable.invariant _ ?_ fun _ _ _ tidy moved => tidy.step moved
  intro state starts
  obtain ⟨⟨isStream, writersIdle, readerIdle⟩, noHistory⟩ := starts
  constructor
  · rw [noHistory]
    exact Nat.two_pow_pos 31
  · intro _
    rw [isStream]
    exact Nat.zero_le _
  · intro writer idx marks
    rw [writersIdle writer] at marks
    cases marks
  · intro cell occupied
    rw [isStream] at occupied
    exact absurd rfl occupied
  · intro fullScan cell idx place
    rw [readerIdle] at place
    cases place
  · intro idx place
    rw [readerIdle] at place
    cases place

/-! ## Marks that are not yet reported -/

/-- The running call of the reader will return `kStreamOverflow`. -/
def ReaderPc.Overflows : ReaderPc capacity → Prop
  | .resetting => True
  | .scanning fullScan _ => fullScan = true
  | .clearing fullScan _ _ => fullScan = true
  | _ => False

/-- Where a mark of the index stands until it is reported. -/
def Covered (idx : Int) (state : StreamState capacity Writer) : Prop :=
  (∃ cell, state.stream.entries cell = idx) ∨ state.stream.overflowing ∨
    state.reader.Overflows ∨ state.reader = .returning idx

/-- An overflowing mark leaves the counter positive, unless the reader is about
to reset it. -/
theorem Tidy.overflowing (tidy : Tidy state) {writer : Writer} {idx : Int}
    (moved : (streams capacity Writer).step state (.writer writer (.overflow idx)) next) :
    next.1.stream.overflowing ∨ next.1.reader = .resetting := by
  by_cases resetting : next.1.reader = .resetting
  · exact .inr resetting
  · have after := (tidy.writerStep moved).counted resetting
    have few := (tidy.writerStep moved).few
    obtain ⟨-, ⟨moved, -, sameReader⟩, history⟩ := moved
    have before := tidy.counted (sameReader ▸ resetting)
    have fewBefore := tidy.few
    rcases moved.effect with ⟨-, quiet, -⟩ | ⟨_, _, isPlace, -⟩ | ⟨_, -, -, added⟩
    · exact absurd rfl (quiet idx)
    · cases isPlace
    · have carry : (1 : BitVec 32).toNat = 1 := rfl
      have sum : next.1.stream.scrapeAll.toNat = state.1.stream.scrapeAll.toNat + 1 := by
        rw [added, BitVec.toNat_add]
        omega
      refine .inl ?_
      rw [Stream.overflowing, BitVec.toInt_eq_toNat_of_lt (by omega)]
      omega

private theorem Covered.writerStep {idx : Int} (covered : Covered idx state.1) (tidy : Tidy state)
    (occupies : idx ≠ kStreamFreeEntry) {writer : Writer} {access : WriterAccess capacity}
    (moved : (streams capacity Writer).step state (.writer writer access) next) :
    Covered idx next.1 := by
  have overflowing : ∀ other, access = .overflow other →
      next.1.stream.overflowing ∨ next.1.reader = .resetting := by
    intro other isOverflow
    subst isOverflow
    exact tidy.overflowing moved
  obtain ⟨-, ⟨moved, -, sameReader⟩, -⟩ := moved
  rcases moved.effect with ⟨same, -⟩ | ⟨other, cell, -, -, free, placed⟩ | ⟨other, isOverflow, -, -⟩
  · rw [Covered, same, sameReader]
    exact covered
  · rw [Covered, placed, sameReader]
    refine covered.imp_left ?_
    intro found
    obtain ⟨holder, holds⟩ := found
    refine ⟨holder, ?_⟩
    have different : holder ≠ cell := by
      intro equal
      rw [equal, free] at holds
      exact occupies holds.symm
    rw [Stream.store_of_ne _ _ different]
    exact holds
  · cases overflowing other isOverflow with
    | inl positive => exact .inr (.inl positive)
    | inr resetting => exact .inr (.inr (.inl (by rw [resetting]; trivial)))

private theorem Covered.readerStep {idx : Int} (covered : Covered idx state.1) (tidy : Tidy state)
    {access : ReaderAccess capacity}
    (moved : (streams capacity Writer).step state (.reader access) next) :
    Covered idx next.1 ∨ access = .returned idx ∨ access = .returned kStreamOverflow := by
  obtain ⟨⟨stream, writers, reader⟩, past⟩ := state
  obtain ⟨⟨stream', writers', reader'⟩, past'⟩ := next
  obtain ⟨-, ⟨moved, -⟩, -⟩ := moved
  dsimp only at moved covered
  rcases covered with ⟨holder, holds⟩ | positive | overflows | returning
  · cases moved with
    | @clear fullScan cell value =>
        by_cases same : holder = cell
        · have isValue := (tidy.clearing fullScan cell value rfl).1
          rw [← same] at isValue
          have reported : value = idx := isValue.symm.trans holds
          cases fullScan with
          | true => exact .inl (.inr (.inr (.inl rfl)))
          | false => exact .inl (.inr (.inr (.inr (congrArg ReaderPc.returning reported))))
        · exact .inl (.inl ⟨holder, (Stream.store_of_ne _ _ same).trans holds⟩)
    | _ => exact .inl (.inl ⟨holder, holds⟩)
  · cases moved with
    | reset => exact .inl (.inr (.inr (.inl rfl)))
    | _ => exact .inl (.inr (.inl positive))
  · cases moved with
    | loadScrapeAll => cases overflows
    | reset => exact .inl (.inr (.inr (.inl rfl)))
    | loadEntry =>
        cases overflows
        refine .inl (.inr (.inr (.inl ?_)))
        dsimp only
        split <;> rfl
    | clear =>
        cases overflows
        exact .inl (.inr (.inr (.inl rfl)))
    | returned => cases overflows
    | finished =>
        cases overflows
        exact .inr (.inr rfl)
  · cases returning
    cases moved with
    | returned => exact .inr (.inl rfl)

/-- A mark is covered until a call reports it. -/
theorem Covered.run {idx : Int} {labels : List (StreamLabel capacity Writer)}
    (run : (streams capacity Writer).Run state labels next) (covered : Covered idx state.1)
    (tidy : Tidy state) (occupies : idx ≠ kStreamFreeEntry) :
    Covered idx next.1 ∨ ∃ value, .reader (.returned value) ∈ labels ∧
      (value = idx ∨ value = kStreamOverflow) := by
  induction run with
  | nil => exact .inl covered
  | @cons first middle last label labels moved _ ih =>
      have later : Covered idx middle.1 → Covered idx last.1 ∨
          ∃ value, .reader (.returned value) ∈ label :: labels ∧
            (value = idx ∨ value = kStreamOverflow) := by
        intro middleCovered
        refine (ih middleCovered (tidy.step moved)).imp_right ?_
        intro found
        obtain ⟨value, member, reports⟩ := found
        exact ⟨value, List.mem_cons_of_mem _ member, reports⟩
      cases label with
      | writer writer access => exact later (covered.writerStep tidy occupies moved)
      | reader access =>
          rcases covered.readerStep tidy moved with still | reported | overflowed
          · exact later still
          · exact .inr ⟨idx, reported ▸ List.mem_cons_self, .inl rfl⟩
          · exact .inr ⟨kStreamOverflow, overflowed ▸ List.mem_cons_self, .inr rfl⟩

/-! ## Calls that find something -/

/-- The running call of the reader, if any, does not return `kStreamNoEntries`. -/
def Finds (state : StreamState capacity Writer) : Prop :=
  match state.reader with
  | .scanning fullScan i => fullScan = true ∨
      ∃ cell, i ≤ cell.val ∧ state.stream.entries cell ≠ kStreamFreeEntry
  | .returning idx => idx ≠ kStreamNoEntries
  | _ => True

private theorem Finds.writerStep (finds : Finds state.1) {writer : Writer}
    {access : WriterAccess capacity}
    (moved : (streams capacity Writer).step state (.writer writer access) next) :
    Finds next.1 := by
  obtain ⟨⟨stream, writers, reader⟩, past⟩ := state
  obtain ⟨⟨stream', writers', reader'⟩, past'⟩ := next
  obtain ⟨-, ⟨moved, -, sameReader⟩, -⟩ := moved
  dsimp only at moved sameReader finds
  subst sameReader
  cases reader' with
  | scanning fullScan i =>
      refine finds.imp_right ?_
      intro found
      obtain ⟨cell, ahead, occupied⟩ := found
      refine ⟨cell, ahead, ?_⟩
      rcases moved.effect with ⟨same, -⟩ | ⟨other, placed, -, -, free, same⟩ | ⟨other, -, -, same⟩
      · exact same ▸ occupied
      · have different : cell ≠ placed := fun equal => occupied (equal ▸ free)
        rw [same, Stream.store_of_ne _ _ different]
        exact occupied
      · exact same ▸ occupied
  | _ => exact finds

private theorem Finds.readerStep (finds : Finds state.1) (tidy : Tidy state)
    {access : ReaderAccess capacity}
    (moved : (streams capacity Writer).step state (.reader access) next)
    (running : access ≠ .loadScrapeAll) : Finds next.1 := by
  obtain ⟨⟨stream, writers, reader⟩, past⟩ := state
  obtain ⟨⟨stream', writers', reader'⟩, past'⟩ := next
  obtain ⟨-, ⟨moved, -⟩, -⟩ := moved
  dsimp only at moved finds
  cases moved with
  | loadScrapeAll => exact absurd rfl running
  | reset => exact .inl rfl
  | @loadEntry fullScan i inRange =>
      unfold Finds
      dsimp only
      split
      · next place =>
          split at place
          · next free =>
              cases place
              refine finds.imp_right ?_
              intro found
              obtain ⟨cell, ahead, occupied⟩ := found
              refine ⟨cell, ?_, occupied⟩
              have different : cell.val ≠ i := by
                intro equal
                refine occupied ?_
                rw [show cell = ⟨i, inRange⟩ from Fin.ext equal]
                exact free
              omega
          · cases place
      · next place =>
          split at place <;> cases place
      · trivial
  | @clear fullScan cell idx =>
      have occupied := (tidy.clearing fullScan cell idx rfl).2
      cases fullScan with
      | true => exact .inl rfl
      | false => exact occupied
  | returned => trivial
  | finished => trivial

theorem Finds.run {labels : List (StreamLabel capacity Writer)}
    (run : (streams capacity Writer).Run state labels next) (finds : Finds state.1)
    (tidy : Tidy state) (sameCall : .reader .loadScrapeAll ∉ labels) : Finds next.1 := by
  induction run with
  | nil => exact finds
  | @cons first middle last label labels moved _ ih =>
      refine ih ?_ (tidy.step moved) fun member => sameCall (List.mem_cons_of_mem _ member)
      cases label with
      | writer writer access => exact finds.writerStep moved
      | reader access =>
          refine finds.readerStep tidy moved ?_
          intro isNext
          exact sameCall (isNext ▸ List.mem_cons_self)

private theorem Finds.not_empty (finds : Finds state.1) {value : Int}
    (moved : (streams capacity Writer).step state (.reader (.returned value)) next) :
    value ≠ kStreamNoEntries := by
  obtain ⟨⟨stream, writers, reader⟩, past⟩ := state
  obtain ⟨⟨stream', writers', reader'⟩, past'⟩ := next
  obtain ⟨-, ⟨moved, -⟩, -⟩ := moved
  dsimp only at moved finds
  cases moved with
  | returned => exact finds
  | @finished fullScan i outOfRange =>
      cases finds with
      | inl full =>
          rw [full]
          decide
      | inr ahead =>
          obtain ⟨cell, ahead, -⟩ := ahead
          exact absurd (Nat.lt_of_le_of_lt ahead cell.isLt) outOfRange

/-- A call that starts while a mark is covered finds something. -/
theorem Covered.finds {idx : Int} (covered : Covered idx state.1)
    (occupies : idx ≠ kStreamFreeEntry)
    (moved : (streams capacity Writer).step state (.reader .loadScrapeAll) next) :
    Finds next.1 := by
  obtain ⟨⟨stream, writers, reader⟩, past⟩ := state
  obtain ⟨⟨stream', writers', reader'⟩, past'⟩ := next
  obtain ⟨-, ⟨moved, -⟩, -⟩ := moved
  dsimp only at moved covered
  cases moved with
  | loadScrapeAll =>
      by_cases positive : stream.overflowing
      · simp [Finds, positive]
      · rcases covered with ⟨cell, holds⟩ | overflowing | overflows | returning
        · simp only [Finds, positive, if_false]
          exact .inr ⟨cell, Nat.zero_le _, holds.trans_ne occupies⟩
        · exact absurd overflowing positive
        · cases overflows
        · cases returning

/-! ## The result -/

/-- The access with which a call of `MarkUpdatedIndex` takes effect and returns. -/
def WriterAccess.Completes (idx : Int) (access : WriterAccess capacity) : Prop :=
  (∃ cell, access = .place idx cell) ∨ access = .overflow idx

private theorem Tidy.covers (tidy : Tidy state) {writer : Writer} {access : WriterAccess capacity}
    {idx : Int} (completes : access.Completes idx)
    (moved : (streams capacity Writer).step state (.writer writer access) next) :
    Covered idx next.1 ∧ idx ≠ kStreamFreeEntry := by
  have overflowing : access = .overflow idx →
      next.1.stream.overflowing ∨ next.1.reader = .resetting := by
    intro isOverflow
    subst isOverflow
    exact tidy.overflowing moved
  obtain ⟨-, ⟨moved, -, -⟩, -⟩ := moved
  have occupies : (state.1.writers writer).marks = some idx → idx ≠ kStreamFreeEntry := by
    intro marks
    have nonneg := tidy.valid writer idx marks
    unfold kStreamFreeEntry
    omega
  rcases moved.effect with ⟨-, noOverflow, noPlace⟩ | ⟨other, cell, isPlace, marks, -, placed⟩ |
    ⟨other, isOverflow, marks, -⟩
  · rcases completes with ⟨cell, isPlace⟩ | isOverflow
    · exact absurd isPlace (noPlace idx cell)
    · exact absurd isOverflow (noOverflow idx)
  · rcases completes with ⟨_, same⟩ | same
    · cases isPlace.symm.trans same
      refine ⟨.inl ⟨cell, ?_⟩, occupies marks⟩
      rw [placed, Stream.store_self]
    · cases isPlace.symm.trans same
  · rcases completes with ⟨_, same⟩ | same
    · cases isOverflow.symm.trans same
    · cases isOverflow.symm.trans same
      refine ⟨?_, occupies marks⟩
      cases overflowing isOverflow with
      | inl positive => exact .inr (.inl positive)
      | inr resetting => exact .inr (.inr (.inl (by rw [resetting]; trivial)))

/-- No update is lost: a completed mark is reported, or an overflow is, before a
call that starts later finds nothing. And only what was marked is reported. -/
theorem streams_lose_nothing (reachable : (streams capacity Writer).Reachable state) :
    (∀ writer access idx marked labels waiting called body ended last,
      WriterAccess.Completes idx access →
      (streams capacity Writer).step state (.writer writer access) marked →
      (streams capacity Writer).Run marked labels waiting →
      (streams capacity Writer).step waiting (.reader .loadScrapeAll) called →
      (streams capacity Writer).Run called body ended → .reader .loadScrapeAll ∉ body →
      (streams capacity Writer).step ended (.reader (.returned kStreamNoEntries)) last →
      ∃ value, .reader (.returned value) ∈ labels ∧ (value = idx ∨ value = kStreamOverflow)) ∧
    ∀ idx next, 0 ≤ idx → (streams capacity Writer).step state (.reader (.returned idx)) next →
      Taken idx state.2 := by
  have tidy := streams_tidy reachable
  constructor
  · intro writer access idx marked labels waiting called body ended last completes marks run calls
      callRun sameCall returns
    obtain ⟨covered, occupies⟩ := tidy.covers completes marks
    have markedTidy := tidy.step marks
    cases covered.run run markedTidy occupies with
    | inr reported => exact reported
    | inl stillCovered =>
        have waitingTidy : Tidy waiting :=
          run.invariant _ (fun _ _ _ tidy moved => tidy.step moved) markedTidy
        have finds := Finds.run callRun (stillCovered.finds occupies calls) (waitingTidy.step calls)
          sameCall
        exact absurd rfl (finds.not_empty returns)
  · intro idx next nonneg moved
    obtain ⟨⟨stream, writers, reader⟩, past⟩ := state
    obtain ⟨⟨stream', writers', reader'⟩, past'⟩ := next
    obtain ⟨-, ⟨moved, -⟩, -⟩ := moved
    dsimp only at moved
    generalize isAccess : ReaderAccess.returned idx = access at moved
    cases moved with
    | returned =>
        cases isAccess
        exact (tidy.returning idx rfl).2
    | @finished fullScan i outOfRange =>
        cases isAccess
        cases fullScan <;> exact absurd nonneg (by decide)
    | _ => cases isAccess

private theorem overflowsSinceNext_reader (access : ReaderAccess capacity)
    (past : List (StreamLabel capacity Writer)) :
    overflowsSinceNext (.reader access :: past) ≤ overflowsSinceNext past := by
  unfold overflowsSinceNext
  cases access <;> simp [StreamLabel.isNext, StreamLabel.isOverflow]

/-- The loads of an empty stream take a call to its end. -/
theorem scan_of_free {stream : Stream capacity} {writers : Writer → WriterPc}
    (free : ∀ cell, stream.entries cell = kStreamFreeEntry) (remaining : Nat) :
    ∀ i past, i + remaining = capacity.value → overflowsSinceNext past < 2 ^ 31 →
      ∃ past', (streams capacity Writer).Run (⟨stream, writers, .scanning false i⟩, past)
        (List.replicate remaining (.reader .loadEntry))
        (⟨stream, writers, .scanning false capacity.value⟩, past') ∧
        overflowsSinceNext past' < 2 ^ 31 := by
  induction remaining with
  | zero =>
      intro i past total within
      rw [Nat.add_zero] at total
      exact ⟨past, total ▸ .nil _, within⟩
  | succ remaining ih =>
      intro i past total within
      have inRange : i < capacity.value := by omega
      have within' := (overflowsSinceNext_reader .loadEntry past).trans_lt within
      have moved := @ReaderStep.loadEntry capacity stream false i inRange
      rw [if_pos (free ⟨i, inRange⟩)] at moved
      have loaded : (streams capacity Writer).step (⟨stream, writers, .scanning false i⟩, past)
          (.reader .loadEntry) (⟨stream, writers, .scanning false (i + 1)⟩, .reader .loadEntry :: past) :=
        ⟨within', ⟨moved, rfl⟩, rfl⟩
      obtain ⟨past', run, within''⟩ := ih (i + 1) (.reader .loadEntry :: past) (by omega) within'
      exact ⟨past', .cons loaded run, within''⟩

/-! ## A mark that the first call takes and the second does not find -/

namespace OneMark

private abbrev states := streams .kStreamCapacity11 Unit

private def empty : Stream .kStreamCapacity11 :=
  { scrapeAll := 0, entries := fun _ => kStreamFreeEntry }

private def cell : Fin StreamCapacity.kStreamCapacity11.value := Stream.cellOf 0 0

private def held : Stream .kStreamCapacity11 := empty.store cell 0

private def emptied : Stream .kStreamCapacity11 := held.store cell kStreamFreeEntry

private def quiet (stream : Stream .kStreamCapacity11) (reader : ReaderPc .kStreamCapacity11) :
    StreamState .kStreamCapacity11 Unit :=
  ⟨stream, fun _ => .idle, reader⟩

private def attempt : List (StreamLabel .kStreamCapacity11 Unit) :=
  [.writer () .loadCell, .writer () .loadScrapeAll, .writer () (.call 0 0)]

private def marking : List (StreamLabel .kStreamCapacity11 Unit) := .writer () (.place 0 cell) :: attempt

private def taking : List (StreamLabel .kStreamCapacity11 Unit) :=
  [.reader (.clear cell), .reader .loadEntry, .reader .loadScrapeAll] ++ marking

private theorem placing_reachable :
    states.Reachable (⟨empty, fun _ => .placing 0 0 0, .idle⟩, attempt) := by
  have called : states.step (quiet empty .idle, []) (.writer () (.call 0 0))
      (⟨empty, fun _ => .started 0 0, .idle⟩, attempt.drop 2) :=
    ⟨by decide, ⟨.call _ le_rfl le_rfl, nofun, rfl⟩, rfl⟩
  have calm : states.step (⟨empty, fun _ => .started 0 0, .idle⟩, attempt.drop 2)
      (.writer () .loadScrapeAll) (⟨empty, fun _ => .trying 0 0 0, .idle⟩, attempt.drop 1) :=
    ⟨by decide, ⟨.loadScrapeAll _, nofun, rfl⟩, rfl⟩
  have found : states.step (⟨empty, fun _ => .trying 0 0 0, .idle⟩, attempt.drop 1)
      (.writer () .loadCell) (⟨empty, fun _ => .placing 0 0 0, .idle⟩, attempt) :=
    ⟨by decide, ⟨.loadCell _ (by decide), nofun, rfl⟩, rfl⟩
  exact ⟨_, _, ⟨⟨rfl, fun _ => rfl, rfl⟩, rfl⟩, .cons called (.cons calm (.cons found (.nil _)))⟩

private theorem placed : states.step (⟨empty, fun _ => .placing 0 0 0, .idle⟩, attempt)
    (.writer () (.place 0 cell)) (quiet held .idle, marking) :=
  ⟨by decide, ⟨.place rfl, nofun, rfl⟩, rfl⟩

private theorem taking_run : states.Run (quiet held .idle, marking)
    [.reader .loadScrapeAll, .reader .loadEntry, .reader (.clear cell)]
    (quiet emptied (.returning 0), taking) := by
  have started : states.step (quiet held .idle, marking) (.reader .loadScrapeAll)
      (quiet held (.scanning false 0), taking.drop 2) :=
    ⟨by decide, ⟨.loadScrapeAll _, rfl⟩, rfl⟩
  have loaded : states.step (quiet held (.scanning false 0), taking.drop 2)
      (.reader .loadEntry) (quiet held (.clearing false cell 0), taking.drop 1) :=
    ⟨by decide, ⟨.loadEntry _ (StreamCapacity.value_pos _), rfl⟩, rfl⟩
  have cleared : states.step (quiet held (.clearing false cell 0), taking.drop 1)
      (.reader (.clear cell)) (quiet emptied (.returning 0), taking) :=
    ⟨by decide, ⟨.clear _, rfl⟩, rfl⟩
  exact .cons started (.cons loaded (.cons cleared (.nil _)))

private theorem returned : states.step (quiet emptied (.returning 0), taking)
    (.reader (.returned 0)) (quiet emptied .idle, .reader (.returned 0) :: taking) :=
  ⟨by decide, ⟨.returned _, rfl⟩, rfl⟩

private theorem emptied_free (other : Fin StreamCapacity.kStreamCapacity11.value) :
    emptied.entries other = kStreamFreeEntry := by
  by_cases same : other = cell
  · exact same ▸ Stream.store_self held cell kStreamFreeEntry
  · exact (Stream.store_of_ne held _ same).trans (Stream.store_of_ne empty _ same)

end OneMark

open OneMark in
/-- Two calls after a mark: the first reports it, the second finds nothing. -/
theorem streams_lose_nothing_taken :
    (∃ state marked labels waiting called body ended last,
      (streams .kStreamCapacity11 Unit).Reachable state ∧
      (streams .kStreamCapacity11 Unit).step state (.writer () (.place 0 (Stream.cellOf 0 0))) marked ∧
      (streams .kStreamCapacity11 Unit).Run marked labels waiting ∧
      (streams .kStreamCapacity11 Unit).step waiting (.reader .loadScrapeAll) called ∧
      (streams .kStreamCapacity11 Unit).Run called body ended ∧
      .reader .loadScrapeAll ∉ body ∧
      (streams .kStreamCapacity11 Unit).step ended (.reader (.returned kStreamNoEntries)) last ∧
      ∃ value, .reader (.returned value) ∈ labels ∧ (value = 0 ∨ value = kStreamOverflow)) ∧
    ∃ state next, (streams .kStreamCapacity11 Unit).Reachable state ∧
      (streams .kStreamCapacity11 Unit).step state (.reader (.returned 0)) next ∧
      Taken 0 state.2 := by
  have called : states.step (quiet emptied .idle, .reader (.returned 0) :: taking)
      (.reader .loadScrapeAll)
      (quiet emptied (.scanning false 0), .reader .loadScrapeAll :: .reader (.returned 0) :: taking) :=
    ⟨by decide, ⟨.loadScrapeAll _, rfl⟩, rfl⟩
  obtain ⟨past, scanned, within⟩ := @scan_of_free _ Unit emptied (fun _ => .idle) emptied_free
    StreamCapacity.kStreamCapacity11.value 0
    (.reader .loadScrapeAll :: .reader (.returned 0) :: taking) (Nat.zero_add _) (by decide)
  have sameCall : StreamLabel.reader ReaderAccess.loadScrapeAll ∉
      List.replicate StreamCapacity.kStreamCapacity11.value
        (StreamLabel.reader ReaderAccess.loadEntry : StreamLabel .kStreamCapacity11 Unit) := by
    intro member
    cases List.eq_of_mem_replicate member
  have within' := (overflowsSinceNext_reader (.returned kStreamNoEntries) past).trans_lt within
  have ended : states.step
      (quiet emptied (.scanning false StreamCapacity.kStreamCapacity11.value), past)
      (.reader (.returned kStreamNoEntries))
      (quiet emptied .idle, .reader (.returned kStreamNoEntries) :: past) :=
    ⟨within', ⟨.finished _ (lt_irrefl _), rfl⟩, rfl⟩
  have reported := taking_run.append (.cons returned (.nil _))
  have completes : WriterAccess.Completes 0 (.place 0 cell) := .inl ⟨cell, rfl⟩
  have reachable : states.Reachable (quiet emptied (.returning 0), taking) := by
    obtain ⟨first, labels, starts, run⟩ := placing_reachable.step placed
    exact ⟨first, _, starts, run.append taking_run⟩
  constructor
  · exact ⟨_, _, _, _, _, _, _, _, placing_reachable, placed, reported, called, scanned, sameCall, ended,
      (streams_lose_nothing placing_reachable).1 () _ 0 _ _ _ _ _ _ _ completes placed reported called
        scanned sameCall ended⟩
  · exact ⟨_, _, reachable, returned, (streams_lose_nothing reachable).2 0 _ le_rfl returned⟩

end Invariant

end Ghost.Shared
