import Ghost.Lib.Threads

/-!
# Sequence counters

`seqcount` of `shared/prio_table.h`: writers exclude each other by the low bit of
one 32-bit word, and readers validate by comparing the word before and after.
Every atomic access is a step of its own, in any interleaving; the accesses are
sequentially consistent.
-/

set_option autoImplicit false

namespace Ghost.Shared

open Lib

def kLocked : BitVec 32 := 1

def locked (seq : BitVec 32) : Bool := seq &&& kLocked != 0

/-- Where a thread stands in one of its calls. -/
inductive SeqPc where
  | idle
  /-- In the loop of `write_begin`. -/
  | writeBegin (seq0 : BitVec 32)
  /-- `try_write_begin` has loaded the word. -/
  | tryWriteBegin (seq0 : BitVec 32)
  /-- Between begin and end, with the value that begin returned. -/
  | inside (begin : BitVec 32)
  /-- `write_end` has passed its `DCHECK`. -/
  | writeEnd (begin : BitVec 32)
  | dcheckFailed
  /-- Between `read_begin` and `read_end`. -/
  | reading (begin : BitVec 32)
  deriving DecidableEq

inductive SeqAccess where
  | load
  | spin
  | exchange
  | exchangeFails
  | tryLoad
  | tryExchange
  | tryFails
  | endCheck
  | endStore
  | readBegin
  | readEnd (valid : Bool)
  deriving DecidableEq

/-- One access, with the word and the place of the thread before and after. The weak
exchange may fail although the word is the expected one. -/
inductive SeqStep : BitVec 32 → SeqPc → SeqAccess → BitVec 32 → SeqPc → Prop
  | load (seq : BitVec 32) : SeqStep seq .idle .load seq (.writeBegin seq)
  | spin (seq : BitVec 32) {seq0 : BitVec 32} :
      locked seq0 = true → SeqStep seq (.writeBegin seq0) .spin seq (.writeBegin seq)
  | exchange {seq0 : BitVec 32} :
      locked seq0 = false →
      SeqStep seq0 (.writeBegin seq0) .exchange (seq0 + kLocked) (.inside (seq0 + kLocked))
  | exchangeFails (seq : BitVec 32) {seq0 : BitVec 32} :
      locked seq0 = false → SeqStep seq (.writeBegin seq0) .exchangeFails seq (.writeBegin seq)
  | tryLoad (seq : BitVec 32) : SeqStep seq .idle .tryLoad seq (.tryWriteBegin seq)
  | tryExchange {seq0 : BitVec 32} :
      locked seq0 = false →
      SeqStep seq0 (.tryWriteBegin seq0) .tryExchange (seq0 + kLocked) (.inside (seq0 + kLocked))
  | tryFails {seq seq0 : BitVec 32} :
      locked seq0 = true ∨ seq ≠ seq0 → SeqStep seq (.tryWriteBegin seq0) .tryFails seq .idle
  | endCheck {seq begin : BitVec 32} :
      SeqStep seq (.inside begin) .endCheck seq
        (if begin = seq then .writeEnd begin else .dcheckFailed)
  | endStore {seq begin : BitVec 32} :
      SeqStep seq (.writeEnd begin) .endStore (begin + kLocked) .idle
  | readBegin (seq : BitVec 32) : SeqStep seq .idle .readBegin seq (.reading seq)
  | readEnd {seq begin : BitVec 32} :
      SeqStep seq (.reading begin)
        (.readEnd (!(locked begin || begin != seq))) seq .idle

/-- A write section is entered by the exchange and left by the store. -/
def SeqPc.Inside : SeqPc → Prop
  | .inside _ => True
  | .writeEnd _ => True
  | _ => False

/-- Any number of writers and readers. The word starts with any unlocked value. -/
def seqcounts (Thread : Type) : Machine (Threads Thread (BitVec 32) SeqPc) (Thread × SeqAccess) :=
  interleaving (fun state => locked state.shared = false ∧ ∀ thread, state.locals thread = .idle)
    SeqStep

private theorem locked_eq_decide (seq : BitVec 32) : locked seq = decide (seq.toNat % 2 = 1) := by
  have low : (seq &&& kLocked).toNat = seq.toNat % 2 := by
    rw [BitVec.toNat_and]
    exact Nat.and_one_is_mod _
  have zero : seq &&& kLocked = 0 ↔ seq.toNat % 2 = 0 := by
    rw [← BitVec.toNat_inj, low]
    rfl
  unfold locked
  rw [Bool.eq_iff_iff, bne_iff_ne, decide_eq_true_eq, Ne, zero]
  omega

@[simp] theorem locked_succ (seq : BitVec 32) : locked (seq + kLocked) = !locked seq := by
  have parity : (seq + kLocked).toNat % 2 = (seq.toNat + 1) % 2 := by
    rw [BitVec.toNat_add, show kLocked.toNat = 1 from rfl]
    omega
  rw [locked_eq_decide, locked_eq_decide, parity, Bool.eq_iff_iff, Bool.not_eq_true',
    decide_eq_true_eq, decide_eq_false_iff_not]
  omega

/-! ## Exclusion -/

/-- A thread inside a section holds the word, which is locked. -/
def SeqPc.Holds (word : BitVec 32) : SeqPc → Prop
  | .inside begin => begin = word ∧ locked begin = true
  | .writeEnd begin => begin = word ∧ locked begin = true
  | .dcheckFailed => False
  | _ => True

private theorem SeqPc.Holds.of_outside {word word' : BitVec 32} {pc : SeqPc} (holds : pc.Holds word)
    (outside : ¬ pc.Inside) : pc.Holds word' := by
  cases pc with
  | inside begin => exact absurd trivial outside
  | writeEnd begin => exact absurd trivial outside
  | dcheckFailed => exact holds
  | _ => trivial

private theorem SeqPc.Holds.locked {word : BitVec 32} {pc : SeqPc} (holds : pc.Holds word)
    (inside : pc.Inside) : locked word = true := by
  cases pc with
  | inside begin => exact holds.1 ▸ holds.2
  | writeEnd begin => exact holds.1 ▸ holds.2
  | _ => cases inside

structure Exclusion {Thread : Type} (state : Threads Thread (BitVec 32) SeqPc) : Prop where
  token : ∀ thread, (state.locals thread).Holds state.shared
  unique : ∀ thread other, (state.locals thread).Inside → (state.locals other).Inside →
    thread = other
  held : locked state.shared = true → ∃ thread, (state.locals thread).Inside

section Steps

variable {Thread : Type} {state next : Threads Thread (BitVec 32) SeqPc} {thread : Thread}
  {access : SeqAccess}

private theorem Exclusion.locked_iff (exclusion : Exclusion state) :
    locked state.shared = true ↔ ∃ thread, (state.locals thread).Inside := by
  constructor
  · exact exclusion.held
  · intro found
    obtain ⟨thread, inside⟩ := found
    exact (exclusion.token thread).locked inside

private theorem Exclusion.nobody (exclusion : Exclusion state)
    (unlocked : locked state.shared = false)
    (thread : Thread) : ¬ (state.locals thread).Inside := by
  intro inside
  rw [(exclusion.token thread).locked inside] at unlocked
  cases unlocked

/-- A step that leaves the word and the set of threads inside alone. -/
theorem Exclusion.of_same (exclusion : Exclusion state) (sameWord : next.shared = state.shared)
    (others : ∀ other, other ≠ thread → next.locals other = state.locals other)
    (sameSection : (next.locals thread).Inside ↔ (state.locals thread).Inside)
    (token : (next.locals thread).Holds next.shared) : Exclusion next := by
  have sections : ∀ other, (next.locals other).Inside ↔ (state.locals other).Inside := by
    intro other
    by_cases same : other = thread
    · rw [same]
      exact sameSection
    · rw [others other same]
  constructor
  · intro other
    by_cases same : other = thread
    · rw [same]
      exact token
    · rw [others other same, sameWord]
      exact exclusion.token other
  · intro first second firstIn secondIn
    exact exclusion.unique first second ((sections first).mp firstIn) ((sections second).mp secondIn)
  · intro isLocked
    obtain ⟨holder, inside⟩ := exclusion.held (sameWord ▸ isLocked)
    exact ⟨holder, (sections holder).mpr inside⟩

/-- A thread enters an unlocked section. -/
theorem Exclusion.enter (exclusion : Exclusion state) (unlocked : locked state.shared = false)
    (newWord : next.shared = state.shared + kLocked)
    (others : ∀ other, other ≠ thread → next.locals other = state.locals other)
    (entered : next.locals thread = .inside next.shared) : Exclusion next := by
  have isThread : ∀ other, (next.locals other).Inside → other = thread := by
    intro other inside
    by_contra different
    rw [others other different] at inside
    exact exclusion.nobody unlocked other inside
  constructor
  · intro other
    by_cases same : other = thread
    · rw [same, entered]
      exact ⟨rfl, by simp [newWord, unlocked]⟩
    · rw [others other same]
      exact (exclusion.token other).of_outside (exclusion.nobody unlocked other)
  · intro first second firstIn secondIn
    rw [isThread first firstIn, isThread second secondIn]
  · intro _
    exact ⟨thread, by rw [entered]; trivial⟩

/-- The thread inside leaves. -/
theorem Exclusion.leave (exclusion : Exclusion state) {begin : BitVec 32}
    (place : state.locals thread = .writeEnd begin) (newWord : next.shared = begin + kLocked)
    (others : ∀ other, other ≠ thread → next.locals other = state.locals other)
    (left : next.locals thread = .idle) : Exclusion next := by
  have token := exclusion.token thread
  rw [place] at token
  have inside : (state.locals thread).Inside := by
    rw [place]
    trivial
  have nobody : ∀ other, other ≠ thread → ¬ (state.locals other).Inside := by
    intro other different otherIn
    exact different (exclusion.unique other thread otherIn inside)
  constructor
  · intro other
    by_cases same : other = thread
    · rw [same, left]
      trivial
    · rw [others other same]
      exact (exclusion.token other).of_outside (nobody other same)
  · intro first _ firstIn _
    by_cases same : first = thread
    · rw [same, left] at firstIn
      cases firstIn
    · rw [others first same] at firstIn
      exact absurd firstIn (nobody first same)
  · intro isLocked
    rw [newWord, locked_succ, token.2] at isLocked
    cases isLocked

theorem Exclusion.step (exclusion : Exclusion state)
    (moved : (seqcounts Thread).step state (thread, access) next) : Exclusion next := by
  obtain ⟨moved, others⟩ := moved
  dsimp only at moved others
  have token := exclusion.token thread
  generalize before : state.locals thread = pc at moved token
  generalize after : next.locals thread = pc' at moved
  generalize word : state.shared = seq at moved token
  generalize word' : next.shared = seq' at moved
  cases moved with
  | exchange unlocked =>
      exact exclusion.enter (word ▸ unlocked) (by rw [word', word]) others (by rw [after, word'])
  | tryExchange unlocked =>
      exact exclusion.enter (word ▸ unlocked) (by rw [word', word]) others (by rw [after, word'])
  | endStore => exact exclusion.leave before word' others after
  | @endCheck begin =>
      rw [if_pos token.1] at after
      refine exclusion.of_same (word'.trans word.symm) others ?_ ?_
      · simp [after, before, SeqPc.Inside]
      · rw [after, word']
        exact token
  | _ =>
      refine exclusion.of_same (word'.trans word.symm) others ?_ ?_
      · simp [after, before, SeqPc.Inside]
      · rw [after]
        trivial

private theorem seqcounts_exclusion (reachable : (seqcounts Thread).Reachable state) :
    Exclusion state := by
  refine reachable.invariant _ ?_ fun _ _ _ exclusion moved => exclusion.step moved
  intro state found
  obtain ⟨unlocked, idle⟩ := found
  have outside : ∀ thread, ¬ (state.locals thread).Inside := by
    intro thread
    rw [idle thread]
    exact id
  constructor
  · intro thread
    rw [idle thread]
    trivial
  · intro thread _ inside _
    exact absurd inside (outside thread)
  · intro isLocked
    rw [unlocked] at isLocked
    cases isLocked

/-! ## Validation -/

/-- The accesses that take the word from unlocked to locked. -/
def SeqAccess.enters : SeqAccess → Bool
  | .exchange => true
  | .tryExchange => true
  | _ => false

/-- The write sections that a run enters. -/
def entered (labels : List (Thread × SeqAccess)) : Nat := labels.countP fun label => label.2.enters

/-- The write sections that a run completes. -/
def completed (labels : List (Thread × SeqAccess)) : Nat :=
  labels.countP fun label => decide (label.2 = .endStore)

/-- Each entrance and each exit adds one to the word. -/
theorem seqcounts_step_word (exclusion : Exclusion state)
    (moved : (seqcounts Thread).step state (thread, access) next) :
    next.shared =
        state.shared + BitVec.ofNat 32 (entered [(thread, access)] + completed [(thread, access)]) ∧
      entered [(thread, access)] + (locked state.shared).toNat =
        completed [(thread, access)] + (locked next.shared).toNat := by
  obtain ⟨moved, -⟩ := moved
  dsimp only at moved
  have token := exclusion.token thread
  generalize state.locals thread = pc at moved token
  generalize next.locals thread = pc' at moved
  generalize state.shared = seq at moved token ⊢
  generalize next.shared = seq' at moved ⊢
  cases moved with
  | exchange unlocked =>
      rw [locked_succ, unlocked]
      exact ⟨rfl, rfl⟩
  | tryExchange unlocked =>
      rw [locked_succ, unlocked]
      exact ⟨rfl, rfl⟩
  | endStore =>
      obtain ⟨rfl, isLocked⟩ := token
      rw [locked_succ, isLocked]
      exact ⟨rfl, rfl⟩
  | _ => simp [entered, completed, SeqAccess.enters]

private theorem seqcounts_run_word {labels : List (Thread × SeqAccess)}
    (run : (seqcounts Thread).Run state labels next) (exclusion : Exclusion state) :
    next.shared = state.shared + BitVec.ofNat 32 (entered labels + completed labels) ∧
      entered labels + (locked state.shared).toNat =
        completed labels + (locked next.shared).toNat := by
  induction run with
  | nil => simp [entered, completed]
  | @cons first middle last label labels moved _ ih =>
      obtain ⟨thread, access⟩ := label
      obtain ⟨firstWord, firstCount⟩ := seqcounts_step_word exclusion moved
      obtain ⟨restWord, restCount⟩ := ih (exclusion.step moved)
      have enters : entered ([(thread, access)] ++ labels) =
          entered [(thread, access)] + entered labels := List.countP_append
      have completes : completed ([(thread, access)] ++ labels) =
          completed [(thread, access)] + completed labels := List.countP_append
      rw [List.singleton_append] at enters completes
      constructor
      · rw [restWord, firstWord, BitVec.add_assoc, ← BitVec.ofNat_add, enters, completes]
        congr 2
        omega
      · omega

/-- With fewer than `2 ^ 31` sections in between, the word comes back to an
unlocked value only if no section was entered at all. -/
theorem seqcounts_unchanged {labels : List (Thread × SeqAccess)}
    (run : (seqcounts Thread).Run state labels next) (exclusion : Exclusion state)
    (unlocked : locked state.shared = false) (sameWord : next.shared = state.shared)
    (few : completed labels < 2 ^ 31) : entered labels = 0 ∧ completed labels = 0 := by
  obtain ⟨word, count⟩ := seqcounts_run_word run exclusion
  rw [sameWord, unlocked] at count
  have wraps : (entered labels + completed labels) % 2 ^ 32 = 0 := by
    have bound := state.shared.isLt
    have sum := congrArg BitVec.toNat word
    rw [sameWord, BitVec.toNat_add, BitVec.toNat_ofNat] at sum
    omega
  rw [Bool.toNat_false] at count
  omega

/-- No thread is inside a section at any moment of the run. -/
def Undisturbed (first last : Threads Thread (BitVec 32) SeqPc)
    (labels : List (Thread × SeqAccess)) : Prop :=
  ∀ front back middle, labels = front ++ back → (seqcounts Thread).Run first front middle →
    (seqcounts Thread).Run middle back last → ∀ thread, ¬ (middle.locals thread).Inside

private theorem seqcounts_undisturbed {labels : List (Thread × SeqAccess)}
    (run : (seqcounts Thread).Run state labels next) (exclusion : Exclusion state)
    (unlocked : locked state.shared = false) (sameWord : next.shared = state.shared)
    (few : completed labels < 2 ^ 31) : Undisturbed state next labels := by
  obtain ⟨noneEntered, noneCompleted⟩ := seqcounts_unchanged run exclusion unlocked sameWord few
  intro front back middle split frontRun _
  rw [split] at noneEntered noneCompleted
  simp only [entered, completed, List.countP_append, Nat.add_eq_zero_iff] at noneEntered noneCompleted
  have word := (seqcounts_run_word frontRun exclusion).1
  rw [entered, completed, noneEntered.1, noneCompleted.1] at word
  have middleExclusion : Exclusion middle :=
    frontRun.invariant _ (fun _ _ _ exclusion moved => exclusion.step moved) exclusion
  refine middleExclusion.nobody ?_
  rw [word]
  simpa using unlocked

private theorem SeqStep.try_word {seq seq' : BitVec 32} {pc pc' : SeqPc}
    (moved : SeqStep seq pc access seq' pc') (failing : access = .tryLoad ∨ access = .tryFails) :
    seq' = seq := by
  cases moved with
  | exchange => simp at failing
  | tryExchange => simp at failing
  | endStore => simp at failing
  | _ => rfl

private theorem SeqStep.readBegin_inv {seq seq' : BitVec 32} {pc pc' : SeqPc}
    (moved : SeqStep seq pc .readBegin seq' pc') : seq' = seq ∧ pc' = .reading seq := by
  cases moved with
  | readBegin => exact ⟨rfl, rfl⟩

private theorem SeqStep.readEnd_inv {seq seq' begin : BitVec 32} {pc' : SeqPc}
    (moved : SeqStep seq (.reading begin) (.readEnd true) seq' pc') :
    locked begin = false ∧ begin = seq := by
  generalize valid : SeqAccess.readEnd true = access at moved
  cases moved with
  | readEnd =>
      rw [SeqAccess.readEnd.injEq] at valid
      have both := valid.symm
      rw [Bool.not_eq_true', Bool.or_eq_false_iff] at both
      exact ⟨both.1, by simpa using both.2⟩

/-- The protocol of `seqcount`, in every reachable state: exclusion, parity, the
`DCHECK`, failed attempts, and validated reads. -/
theorem seqcounts_protocol (reachable : (seqcounts Thread).Reachable state) :
    (∀ thread other, (state.locals thread).Inside → (state.locals other).Inside →
      thread = other) ∧
    (locked state.shared = true ↔ ∃ thread, (state.locals thread).Inside) ∧
    (∀ thread, state.locals thread ≠ .dcheckFailed) ∧
    (∀ thread access next, access = .tryLoad ∨ access = .tryFails →
      (seqcounts Thread).step state (thread, access) next → next.shared = state.shared) ∧
    ∀ reader begun labels ended last, (seqcounts Thread).step state (reader, .readBegin) begun →
      (seqcounts Thread).Run begun labels ended → (∀ label ∈ labels, label.1 ≠ reader) →
      (seqcounts Thread).step ended (reader, .readEnd true) last → completed labels < 2 ^ 31 →
      Undisturbed begun ended labels := by
  have exclusion := seqcounts_exclusion reachable
  refine ⟨exclusion.unique, exclusion.locked_iff, ?_, ?_, ?_⟩
  · intro thread failed
    have token := exclusion.token thread
    rw [failed] at token
    exact token
  · intro thread access next failing moved
    exact moved.1.try_word failing
  · intro reader begun labels ended last begins run apart ends few
    obtain ⟨sameWord, isReading⟩ := begins.1.readBegin_inv
    have stillReading := interleaving_locals run apart
    have finish := ends.1
    dsimp only at finish isReading sameWord
    rw [stillReading, isReading] at finish
    obtain ⟨unlocked, validated⟩ := finish.readEnd_inv
    refine seqcounts_undisturbed run (exclusion.step begins) ?_ ?_ few
    · rw [sameWord, unlocked]
    · rw [sameWord, validated]

end Steps

/-! ## A validated read after a write -/

private def writerAndReader (word : BitVec 32) (writer reader : SeqPc) :
    Threads Bool (BitVec 32) SeqPc :=
  ⟨word, fun isWriter => if isWriter then writer else reader⟩

private theorem written_reachable :
    (seqcounts Bool).Reachable (writerAndReader 2 .idle .idle) := by
  have load : (seqcounts Bool).step (writerAndReader 0 .idle .idle) (true, .load)
      (writerAndReader 0 (.writeBegin 0) .idle) := ⟨.load 0, by decide⟩
  have exchange : (seqcounts Bool).step (writerAndReader 0 (.writeBegin 0) .idle) (true, .exchange)
      (writerAndReader 1 (.inside 1) .idle) := ⟨.exchange rfl, by decide⟩
  have check : (seqcounts Bool).step (writerAndReader 1 (.inside 1) .idle) (true, .endCheck)
      (writerAndReader 1 (.writeEnd 1) .idle) := ⟨.endCheck, by decide⟩
  have store : (seqcounts Bool).step (writerAndReader 1 (.writeEnd 1) .idle) (true, .endStore)
      (writerAndReader 2 .idle .idle) := ⟨.endStore, by decide⟩
  exact ⟨_, _, ⟨rfl, by decide⟩, .cons load (.cons exchange (.cons check (.cons store (.nil _))))⟩

/-- After a write section, a reader begins and its read is validated. -/
theorem seqcounts_protocol_written :
    ∃ state begun last, (seqcounts Bool).Reachable state ∧ state.shared = 2 ∧
      (seqcounts Bool).step state (false, .readBegin) begun ∧
      (seqcounts Bool).step begun (false, .readEnd true) last ∧ Undisturbed begun begun [] := by
  have begins : (seqcounts Bool).step (writerAndReader 2 .idle .idle) (false, .readBegin)
      (writerAndReader 2 .idle (.reading 2)) := ⟨.readBegin 2, by decide⟩
  have ends : (seqcounts Bool).step (writerAndReader 2 .idle (.reading 2)) (false, .readEnd true)
      (writerAndReader 2 .idle .idle) := ⟨.readEnd, by decide⟩
  have protocol := seqcounts_protocol written_reachable
  exact ⟨_, _, _, written_reachable, rfl, begins, ends,
    protocol.2.2.2.2 false _ [] _ _ begins (.nil _) (by simp) ends (by decide)⟩

end Ghost.Shared
