import Ghost.Schedfair.Posting

/-!
# One updater at a time

What is posted to `delta_load` reaches `current_load`, and `accum_fair_share` is the integral
of the rate that the runnable tasks have at the updates.
-/

set_option autoImplicit false

namespace Ghost.Schedfair

open Lib

section Samples

variable {Pid : Type} [Fintype Pid]

def Sample.load (sample : Sample Pid) : Nat := tally fun pid => sample.runnable pid = true

/-- A time of zero says that there was no update before. -/
def Sample.rate (nrMilliCpus : BitVec 32) (sample : Sample Pid) : Nat :=
  if sample.time = 0 then 0 else min 1000 (nrMilliCpus.toNat / sample.load)

/-- F, in millicpu-usec. -/
def fairIntegral (nrMilliCpus : BitVec 32) (samples : List (Sample Pid)) : Nat :=
  integral Sample.time (Sample.rate nrMilliCpus) samples

def lastTime (samples : List (Sample Pid)) : Nat := samples.head?.elim 0 Sample.time

def lastLoad (samples : List (Sample Pid)) : Nat := samples.head?.elim 0 Sample.load

omit [Fintype Pid] in
@[simp]
theorem lastTime_cons (sample : Sample Pid) (samples : List (Sample Pid)) :
    lastTime (sample :: samples) = sample.time := rfl

@[simp]
theorem lastLoad_cons (sample : Sample Pid) (samples : List (Sample Pid)) :
    lastLoad (sample :: samples) = sample.load := rfl

variable {nrMilliCpus : BitVec 32} {sample : Sample Pid} {samples : List (Sample Pid)}

private theorem Sample.rate_le : sample.rate nrMilliCpus ≤ 1000 := by
  unfold Sample.rate
  split
  · exact Nat.zero_le _
  · exact Nat.min_le_left _ _

/-- Nobody has more than a CPU. -/
theorem fairIntegral_le (clocked : Clocked Sample.time samples) :
    fairIntegral nrMilliCpus samples ≤ 1000 * lastTime samples := by
  cases isFirst : samples.getLast? with
  | none =>
      rw [List.getLast?_eq_none_iff] at isFirst
      subst isFirst
      exact Nat.zero_le _
  | some first =>
      cases samples with
      | nil => cases isFirst
      | cons last samples =>
          have bound := integral_add_le (fun sample _ => @Sample.rate_le _ _ nrMilliCpus sample)
            clocked isFirst rfl
          exact (Nat.le_add_right _ _).trans bound

private theorem fairIntegral_le_cons :
    fairIntegral nrMilliCpus samples ≤ fairIntegral nrMilliCpus (sample :: samples) :=
  integral_le_cons sample

/-- Nothing accrues before the first update, or while no task is runnable. -/
theorem fairIntegral_cons_of_idle (idle : lastTime samples = 0 ∨ lastLoad samples = 0) :
    fairIntegral nrMilliCpus (sample :: samples) = fairIntegral nrMilliCpus samples := by
  apply integral_cons_of_zero
  intro last isLast
  cases samples with
  | nil => cases isLast
  | cons earlier samples =>
      cases isLast
      unfold Sample.rate
      obtain never | nobody := idle
      · exact if_pos never
      · rw [lastLoad_cons] at nobody
        rw [nobody, Nat.div_zero, Nat.min_zero, ite_self]

private theorem fairIntegral_cons_of_busy (busy : lastTime samples ≠ 0) :
    fairIntegral nrMilliCpus (sample :: samples) = fairIntegral nrMilliCpus samples +
      min 1000 (nrMilliCpus.toNat / lastLoad samples) * (sample.time - lastTime samples) := by
  cases samples with
  | nil => exact absurd rfl busy
  | cons earlier samples =>
      rw [lastTime_cons] at busy
      rw [fairIntegral, integral_cons_cons, Sample.rate, if_neg busy]
      rfl

private theorem toNat_fairRate (load : BitVec 64) :
    (fairRate nrMilliCpus load).toNat = min 1000 (nrMilliCpus.toNat / load.toNat) := by
  have share : (nrMilliCpus.setWidth 64 / load).toNat = nrMilliCpus.toNat / load.toNat := by
    rw [BitVec.toNat_udiv, BitVec.toNat_setWidth, Nat.mod_eq_of_lt (by omega)]
  simp only [fairRate, BitVec.lt_def, apply_ite BitVec.toNat, share]
  rw [show (1000 : BitVec 64).toNat = 1000 from rfl]
  split <;> omega

end Samples

/-! ## The books of an update -/

section Books

variable {Pid : Type} [Fintype Pid] {nrMilliCpus : BitVec 32} {memory memory' : Memory Pid}
  {now snarfed : BitVec 64} {sample : Sample Pid} {samples : List (Sample Pid)}

/-- Which samples the three variables of the updater have taken account of. -/
structure Books (nrMilliCpus : BitVec 32) (globals : Globals)
    (accrued timed loaded : List (Sample Pid)) : Prop where
  accum : globals.accumFairShare.toNat = fairIntegral nrMilliCpus accrued
  last : globals.lastUpdateTime.toNat = lastTime timed
  load : globals.currentLoad.toNat = lastLoad loaded

/-- An update at `now` is under way, and has taken what was posted since the sample before. -/
def Memory.Takes (memory : Memory Pid) (now snarfed : BitVec 64)
    (Stage : List (Sample Pid) → Prop) : Prop :=
  ∃ sample earlier, memory.samples = sample :: earlier ∧ sample.time = now.toNat ∧
    (lastLoad earlier : Int) + snarfed.toInt = sample.load ∧ Stage earlier

/-- What holds of an updater, by its next access. None is at the clamp, as the load is
never negative. -/
def PokePc.Holds (nrMilliCpus : BitVec 32) (memory : Memory Pid) : PokePc → Prop
  | .readProgress | .exchangeProgress => True
  | .clock _ | .test _ | .readDelta _ | .release =>
      Books nrMilliCpus memory.globals memory.samples memory.samples memory.samples
  | .snarf _ now =>
      Books nrMilliCpus memory.globals memory.samples memory.samples memory.samples ∧
        lastTime memory.samples ≤ now.toNat ∧ now.toNat ≤ memory.ktimeUs
  | .readLast _ now snarfed =>
      memory.Takes now snarfed fun earlier =>
        Books nrMilliCpus memory.globals earlier earlier earlier
  | .readLoad _ now snarfed last =>
      memory.Takes now snarfed fun earlier =>
        Books nrMilliCpus memory.globals earlier earlier earlier ∧
          last = memory.globals.lastUpdateTime ∧ last ≠ 0
  | .readAccum _ now snarfed growth =>
      memory.Takes now snarfed fun earlier =>
        Books nrMilliCpus memory.globals earlier earlier earlier ∧
          fairIntegral nrMilliCpus earlier + growth.toNat =
            fairIntegral nrMilliCpus memory.samples
  | .writeAccum _ now snarfed accum =>
      memory.Takes now snarfed fun earlier =>
        Books nrMilliCpus memory.globals earlier earlier earlier ∧
          accum.toNat = fairIntegral nrMilliCpus memory.samples
  | .writeLast _ now snarfed =>
      memory.Takes now snarfed fun earlier =>
        Books nrMilliCpus memory.globals memory.samples earlier earlier
  | .addLoad _ snarfed =>
      ∃ earlier, (lastLoad earlier : Int) + snarfed.toInt = lastLoad memory.samples ∧
        Books nrMilliCpus memory.globals memory.samples memory.samples earlier
  | .writeLoad _ load =>
      ∃ earlier, load.toNat = lastLoad memory.samples ∧
        Books nrMilliCpus memory.globals memory.samples memory.samples earlier
  | .clamp _ => False

/-- What is posted and not taken yet, and the order of the samples. -/
structure Counts (memory : Memory Pid) : Prop where
  delta : memory.globals.deltaLoad.toInt =
    (tally fun pid => memory.posted pid = true : Int) - lastLoad memory.samples
  posted : (tally fun pid => memory.posted pid = true) ≤ maxPids
  loads : ∀ sample ∈ memory.samples, sample.load ≤ maxPids
  clocked : Clocked Sample.time memory.samples
  last : lastTime memory.samples ≤ memory.ktimeUs
  ktime : memory.ktimeNs < 2 ^ 64

private theorem Counts.toNat_ktime (counts : Counts memory) :
    memory.bpfKtimeGetUs.toNat = memory.ktimeUs := by
  have small := counts.ktime
  rw [Memory.bpfKtimeGetUs, BitVec.toNat_ofNat, Nat.mod_eq_of_lt]
  unfold Memory.ktimeUs
  omega

/-- F never overflows, since the clock in nanoseconds does not. -/
theorem Counts.fairIntegral_lt (counts : Counts memory) :
    fairIntegral nrMilliCpus memory.samples < 2 ^ 64 := by
  have bound := @fairIntegral_le _ _ nrMilliCpus _ counts.clocked
  have small := counts.ktime
  have last := counts.last
  unfold Memory.ktimeUs at last
  omega

private theorem Counts.lastLoad_le (counts : Counts memory) :
    lastLoad memory.samples ≤ maxPids := by
  cases shape : memory.samples with
  | nil => exact Nat.zero_le _
  | cons sample samples => exact counts.loads sample (shape ▸ List.mem_cons_self)

/-- An updater takes everything that is posted. -/
theorem Counts.snarf (counts : Counts memory) {i : Nat}
    (after : lastTime memory.samples ≤ now.toNat) (before : now.toNat ≤ memory.ktimeUs) :
    Counts (memory.poke nrMilliCpus (.snarf i now)) := by
  refine ⟨?_, counts.posted, ?_, ?_, before, counts.ktime⟩
  · show (0 : BitVec 64).toInt = (tally fun pid => memory.posted pid = true : Int) -
      tally fun pid => memory.posted pid = true
    rw [sub_self]
    rfl
  · intro sample member
    obtain rfl | earlier := List.mem_cons.mp member
    · exact counts.posted
    · exact counts.loads sample earlier
  · apply counts.clocked.cons
    intro last isLast
    rw [lastTime, isLast] at after
    exact after

/-- The other accesses of an updater leave what is posted alone. -/
theorem Counts.poke (counts : Counts memory) {pc : PokePc} (holds : pc.Holds nrMilliCpus memory) :
    Counts (memory.poke nrMilliCpus pc) := by
  cases pc with
  | snarf i now => exact counts.snarf holds.2.1 holds.2.2
  | _ => exact ⟨counts.delta, counts.posted, counts.loads, counts.clocked, counts.last, counts.ktime⟩

def PokePc.updating : PokePc → Bool
  | .readProgress | .exchangeProgress => false
  | _ => true

private theorem toNat_add_snarfed {load : BitVec 64} {sum : Nat}
    (isSum : (load.toNat : Int) + snarfed.toInt = sum) (small : sum ≤ maxPids) :
    (load + snarfed).toNat = sum := by
  have bound : maxPids = 102400 := rfl
  have isLt := load.isLt
  rw [BitVec.toInt_eq_toNat_cond] at isSum
  rw [BitVec.toNat_add]
  split at isSum <;> omega

/-- What accrues in an update that finds a load. -/
theorem Books.growth {globals : Globals} {earlier : List (Sample Pid)}
    (books : Books nrMilliCpus globals earlier earlier earlier) (last : globals.lastUpdateTime ≠ 0)
    (after : lastTime earlier ≤ sample.time) (isNow : sample.time = now.toNat)
    (fits : fairIntegral nrMilliCpus (sample :: earlier) < 2 ^ 64) :
    fairIntegral nrMilliCpus earlier +
        (fairRate nrMilliCpus globals.currentLoad * (now - globals.lastUpdateTime)).toNat =
      fairIntegral nrMilliCpus (sample :: earlier) := by
  have busy : lastTime earlier ≠ 0 := by
    rw [← books.last]
    intro zero
    exact last (BitVec.eq_of_toNat_eq zero)
  have elapsed : (now - globals.lastUpdateTime).toNat = sample.time - lastTime earlier := by
    rw [← books.last] at after ⊢
    rw [isNow] at after ⊢
    exact BitVec.toNat_sub_of_le (BitVec.le_def.mpr after)
  rw [fairIntegral_cons_of_busy busy] at fits ⊢
  rw [BitVec.toNat_mul, toNat_fairRate, elapsed, books.load, Nat.mod_eq_of_lt (by omega)]

private theorem Counts.after (counts : Counts memory) (shape : memory.samples = sample :: samples) :
    lastTime samples ≤ sample.time := by
  have clocked := counts.clocked
  rw [shape] at clocked
  cases samples with
  | nil => exact Nat.zero_le _
  | cons earlier samples => exact (List.isChain_cons_cons.mp clocked).1

private theorem PokePc.Holds.poke {pc pc' : PokePc} (holds : pc.Holds nrMilliCpus memory)
    (counts : Counts memory) (updating : pc.updating = true)
    (goesOn : (pokeUpdateAccum nrMilliCpus memory.bpfKtimeGetUs memory.globals pc).2 = some pc') :
    pc'.Holds nrMilliCpus (memory.poke nrMilliCpus pc) := by
  cases pc with
  | readProgress => cases updating
  | exchangeProgress => cases updating
  | clock i =>
      cases goesOn
      refine ⟨holds, ?_, ?_⟩
      · rw [counts.toNat_ktime]
        exact counts.last
      · exact counts.toNat_ktime.le
  | snarf i now =>
      cases goesOn
      obtain ⟨books, -, -⟩ := holds
      refine ⟨⟨now.toNat, memory.posted⟩, memory.samples, rfl, rfl, ?_, books.accum, books.last,
        books.load⟩
      have delta := counts.delta
      simp only [Sample.load]
      omega
  | readLast i now snarfed =>
      cases goesOn
      obtain ⟨sample, earlier, shape, isNow, taken, books⟩ := holds
      split
      · next never =>
          have zero : lastTime earlier = 0 := by
            rw [← books.last, never]
            rfl
          refine ⟨sample, earlier, shape, isNow, taken, ?_, books.last, books.load⟩
          have stands := @fairIntegral_cons_of_idle _ _ nrMilliCpus sample _ (.inl zero)
          exact books.accum.trans (stands.symm.trans (congrArg _ shape.symm))
      · next before => exact ⟨sample, earlier, shape, isNow, taken, books, rfl, before⟩
  | readLoad i now snarfed last =>
      cases goesOn
      obtain ⟨sample, earlier, shape, isNow, taken, books, isLast, nonzero⟩ := holds
      subst isLast
      split
      · next nobody =>
          have zero : lastLoad earlier = 0 := by
            rw [← books.load, nobody]
            rfl
          refine ⟨sample, earlier, shape, isNow, taken, ?_, books.last, books.load⟩
          have stands := @fairIntegral_cons_of_idle _ _ nrMilliCpus sample _ (.inr zero)
          exact books.accum.trans (stands.symm.trans (congrArg _ shape.symm))
      · next somebody =>
          refine ⟨sample, earlier, shape, isNow, taken, books, ?_⟩
          have fits := @Counts.fairIntegral_lt _ _ nrMilliCpus _ counts
          rw [shape] at fits
          have growth := books.growth nonzero (counts.after shape) isNow fits
          exact growth.trans (congrArg _ shape.symm)
  | readAccum i now snarfed growth =>
      cases goesOn
      obtain ⟨sample, earlier, shape, isNow, taken, books, grows⟩ := holds
      refine ⟨sample, earlier, shape, isNow, taken, books, ?_⟩
      have fits := @Counts.fairIntegral_lt _ _ nrMilliCpus _ counts
      rw [BitVec.toNat_add, books.accum, grows, Nat.mod_eq_of_lt fits]
      rfl
  | writeAccum i now snarfed accum =>
      cases goesOn
      obtain ⟨sample, earlier, shape, isNow, taken, books, accrues⟩ := holds
      exact ⟨sample, earlier, shape, isNow, taken, accrues, books.last, books.load⟩
  | writeLast i now snarfed =>
      cases goesOn
      obtain ⟨sample, earlier, shape, isNow, taken, books⟩ := holds
      refine ⟨earlier, ?_, books.accum, ?_, books.load⟩
      · exact taken.trans (congrArg (fun samples => (lastLoad samples : Int)) shape.symm)
      · exact isNow.symm.trans (congrArg lastTime shape.symm)
  | addLoad i snarfed =>
      cases goesOn
      obtain ⟨earlier, taken, books⟩ := holds
      refine ⟨earlier, ?_, books.accum, books.last, books.load⟩
      rw [← books.load] at taken
      exact toNat_add_snarfed taken counts.lastLoad_le
  | writeLoad i load =>
      cases goesOn
      obtain ⟨earlier, isLoad, books⟩ := holds
      exact ⟨books.accum, books.last, isLoad⟩
  | test i =>
      cases goesOn
      have small := counts.lastLoad_le
      have bound : maxPids = 102400 := rfl
      have positive : memory.globals.currentLoad.slt 0 = false := by
        rw [BitVec.slt_eq_decide, decide_eq_false_iff_not, BitVec.toInt_eq_toNat_cond, holds.load,
          if_pos (by omega)]
        simp
      rw [positive]
      exact holds
  | clamp i => cases holds
  | readDelta i =>
      cases goesOn
      split
      · exact holds
      · split <;> exact holds
  | release => cases goesOn

omit [Fintype Pid] in
/-- What the updater works on: everything but `delta_load` and `in_progress`. -/
structure Memory.SameClockwork (memory memory' : Memory Pid) : Prop where
  accum : memory'.globals.accumFairShare = memory.globals.accumFairShare
  last : memory'.globals.lastUpdateTime = memory.globals.lastUpdateTime
  load : memory'.globals.currentLoad = memory.globals.currentLoad
  samples : memory'.samples = memory.samples
  ktime : memory.ktimeNs ≤ memory'.ktimeNs

private theorem Books.congr {accrued timed loaded : List (Sample Pid)}
    (books : Books nrMilliCpus memory.globals accrued timed loaded)
    (same : memory.SameClockwork memory') :
    Books nrMilliCpus memory'.globals accrued timed loaded := by
  refine ⟨?_, ?_, ?_⟩
  · rw [same.accum, books.accum]
  · rw [same.last, books.last]
  · rw [same.load, books.load]

private theorem PokePc.Holds.congr {pc : PokePc} (holds : pc.Holds nrMilliCpus memory)
    (same : memory.SameClockwork memory') : pc.Holds nrMilliCpus memory' := by
  have samples := same.samples
  have later : memory.ktimeUs ≤ memory'.ktimeUs := Nat.div_le_div_right same.ktime
  cases pc with
  | readProgress => trivial
  | exchangeProgress => trivial
  | clamp i => exact holds
  | snarf i now =>
      obtain ⟨books, after, before⟩ := holds
      simp only [PokePc.Holds, samples]
      exact ⟨books.congr same, after, before.trans later⟩
  | readLast i now snarfed =>
      obtain ⟨sample, earlier, shape, isNow, taken, books⟩ := holds
      exact ⟨sample, earlier, samples.trans shape, isNow, taken, books.congr same⟩
  | readLoad i now snarfed last =>
      obtain ⟨sample, earlier, shape, isNow, taken, books, isLast, nonzero⟩ := holds
      exact ⟨sample, earlier, samples.trans shape, isNow, taken, books.congr same,
        isLast.trans same.last.symm, nonzero⟩
  | readAccum i now snarfed growth =>
      obtain ⟨sample, earlier, shape, isNow, taken, books, grows⟩ := holds
      exact ⟨sample, earlier, samples.trans shape, isNow, taken, books.congr same,
        grows.trans (congrArg _ samples.symm)⟩
  | writeAccum i now snarfed accum =>
      obtain ⟨sample, earlier, shape, isNow, taken, books, accrues⟩ := holds
      exact ⟨sample, earlier, samples.trans shape, isNow, taken, books.congr same,
        accrues.trans (congrArg _ samples.symm)⟩
  | writeLast i now snarfed =>
      obtain ⟨sample, earlier, shape, isNow, taken, books⟩ := holds
      refine ⟨sample, earlier, samples.trans shape, isNow, taken, ?_⟩
      rw [samples]
      exact books.congr same
  | addLoad i snarfed =>
      obtain ⟨earlier, taken, books⟩ := holds
      simp only [PokePc.Holds, samples]
      exact ⟨earlier, taken, books.congr same⟩
  | writeLoad i load =>
      obtain ⟨earlier, isLoad, books⟩ := holds
      simp only [PokePc.Holds, samples]
      exact ⟨earlier, isLoad, books.congr same⟩
  | _ =>
      simp only [PokePc.Holds, samples]
      exact Books.congr holds same

end Books

/-! ## The updater among the CPUs -/

section Updates

variable {Core Pid : Type} [DecidableEq Core] [Fintype Pid] [DecidableEq Pid]
  {nrMilliCpus : BitVec 32} {memory memory' : Memory Pid} {cpu cpu' : Cpu Pid}
  {system next : System Core Pid}

/-- The CPU has taken `in_progress`. -/
def Cpu.updating (cpu : Cpu Pid) : Bool :=
  match cpu.pc with
  | .poke _ _ pc => pc.updating
  | _ => false

def Cpu.Holds (nrMilliCpus : BitVec 32) (memory : Memory Pid) (cpu : Cpu Pid) : Prop :=
  match cpu.pc with
  | .poke _ _ pc => pc.Holds nrMilliCpus memory
  | _ => True

structure Updates (nrMilliCpus : BitVec 32) (system : System Core Pid) : Prop where
  counts : Counts system.memory
  exclusive : ∀ first second, (system.cpus first).updating = true →
    (system.cpus second).updating = true → first = second
  held : system.memory.globals.inProgress = true ↔ ∃ core, (system.cpus core).updating = true
  holds : ∀ core, (system.cpus core).Holds nrMilliCpus system.memory
  settled : (∀ core, (system.cpus core).updating = false) →
    Books nrMilliCpus system.memory.globals system.memory.samples system.memory.samples
      system.memory.samples

omit [DecidableEq Pid] in
private theorem Cpu.holds_of_not_updating (outside : cpu.updating = false) :
    cpu.Holds nrMilliCpus memory := by
  obtain ⟨pc, todo⟩ := cpu
  cases pc with
  | poke p runnable pc =>
      cases pc with
      | readProgress => trivial
      | exchangeProgress => trivial
      | _ => cases outside
  | _ => trivial

omit [Fintype Pid] [DecidableEq Pid] in
private theorem Memory.SameClockwork.refl :
    memory.SameClockwork memory := ⟨rfl, rfl, rfl, rfl, le_rfl⟩

omit [DecidableEq Core] [DecidableEq Pid] in
/-- CPUs that do not update leave an update alone. -/
theorem Updates.frame (updates : Updates nrMilliCpus system)
    (same : system.memory.SameClockwork next.memory)
    (flag : next.memory.globals.inProgress = system.memory.globals.inProgress)
    (counts : Counts next.memory)
    (cpus : ∀ core, next.cpus core = system.cpus core ∨
      (system.cpus core).updating = false ∧ (next.cpus core).updating = false) :
    Updates nrMilliCpus next := by
  have updating : ∀ core, (next.cpus core).updating = (system.cpus core).updating := by
    intro core
    obtain unchanged | ⟨before, after⟩ := cpus core
    · rw [unchanged]
    · rw [before, after]
  refine ⟨counts, ?_, ?_, ?_, ?_⟩
  · simpa only [updating] using updates.exclusive
  · rw [flag]
    simpa only [updating] using updates.held
  · intro core
    obtain unchanged | ⟨-, after⟩ := cpus core
    · have holds := updates.holds core
      rw [unchanged]
      revert holds
      unfold Cpu.Holds
      split
      · exact fun holds => holds.congr same
      · exact id
    · exact Cpu.holds_of_not_updating after
  · intro outside
    simp only [updating] at outside
    have books := (updates.settled outside).congr same
    rwa [same.samples]

/-- The load of a task is posted. -/
theorem Counts.post (counts : Counts memory) {pid : Pid} {runnable : Bool}
    (changes : memory.posted pid = !runnable)
    (few : (tally fun other => (memory.post pid runnable).posted other = true) ≤ maxPids) :
    Counts (memory.post pid runnable) := by
  refine ⟨?_, few, counts.loads, counts.clocked, counts.last, counts.ktime⟩
  have others : ∀ other, other ≠ pid →
      ((memory.post pid runnable).posted other = true ↔ memory.posted other = true) := by
    intro other different
    rw [show (memory.post pid runnable).posted other = memory.posted other from
      Function.update_of_ne different _ _]
  have change := tally_change others
  have isPosted : (memory.post pid runnable).posted pid = runnable := Function.update_self ..
  have delta := counts.delta
  have postedBefore := counts.posted
  have sampled := counts.lastLoad_le
  have bound : maxPids = 102400 := rfl
  simp only [isPosted, changes] at change
  show (if runnable then memory.globals.deltaLoad + tiWeight
    else memory.globals.deltaLoad - tiWeight).toInt =
      (tally fun other => (memory.post pid runnable).posted other = true : Int) -
        lastLoad memory.samples
  cases runnable with
  | true =>
      simp only [Bool.not_true, Bool.false_eq_true, not_false_eq_true, unit_false, unit_true]
        at change
      rw [if_pos rfl, BitVec.toInt_add, show tiWeight.toInt = 1 from rfl, change]
      rw [Int.bmod_eq_of_le (by omega) (by omega)]
      omega
  | false =>
      simp only [Bool.not_false, Bool.false_eq_true, not_false_eq_true, unit_false, unit_true]
        at change
      rw [if_neg Bool.false_ne_true, BitVec.toInt_sub, show tiWeight.toInt = 1 from rfl, change]
      rw [Int.bmod_eq_of_le (by omega) (by omega)]
      omega

omit [DecidableEq Pid] in
theorem Memory.Retains.clockwork (retains : memory.Retains memory') :
    memory.SameClockwork memory' := by
  rw [retains.eq]
  exact ⟨rfl, rfl, rfl, rfl, le_rfl⟩

omit [DecidableEq Pid] in
private theorem Memory.Retains.flag (retains : memory.Retains memory') :
    memory'.globals.inProgress = memory.globals.inProgress := by
  rw [retains.eq]

omit [DecidableEq Pid] in
private theorem Memory.Retains.counts (retains : memory.Retains memory') (counts : Counts memory) :
    Counts memory' := by
  rw [retains.eq]
  exact ⟨counts.delta, counts.posted, counts.loads, counts.clocked, counts.last, counts.ktime⟩

omit [DecidableEq Core] [DecidableEq Pid] in
private theorem Posting.few (posting : Posting system) :
    (tally fun pid => system.memory.posted pid = true) ≤ maxPids :=
  (tally_mono posting.present).trans posting.room

omit [DecidableEq Pid] in
/-- An access of a CPU that does not update, before or after. -/
theorem Updates.quiet (updates : Updates nrMilliCpus system) {core : Core}
    (before : (system.cpus core).updating = false) (after : cpu'.updating = false)
    (same : system.memory.SameClockwork memory')
    (flag : memory'.globals.inProgress = system.memory.globals.inProgress)
    (counts : Counts memory') : Updates nrMilliCpus (system.setCpu memory' core cpu') := by
  apply updates.frame same flag counts
  intro other
  by_cases isCore : other = core
  · subst isCore
    rw [System.setCpu_self]
    exact .inr ⟨before, after⟩
  · exact .inl (System.setCpu_of_ne _ _ _ isCore)

omit [DecidableEq Pid] in
/-- The exchange that finds `in_progress` clear. -/
theorem Updates.acquires (updates : Updates nrMilliCpus system) {core : Core}
    {p : TaskStruct Pid} {runnable : Bool} {todo : List (Call Pid)}
    (free : system.memory.globals.inProgress = false) :
    Updates nrMilliCpus (system.setCpu (system.memory.poke nrMilliCpus .exchangeProgress) core
      ⟨.poke p runnable (.clock 0), todo⟩) := by
  have nobody : ∀ other, (system.cpus other).updating = false := by
    intro other
    by_contra updating
    have taken := updates.held.mpr ⟨other, by simpa using updating⟩
    rw [free] at taken
    cases taken
  have only : ∀ other, ((system.setCpu (system.memory.poke nrMilliCpus .exchangeProgress) core
      ⟨.poke p runnable (.clock 0), todo⟩).cpus other).updating = true → other = core := by
    intro other updating
    by_contra different
    rw [System.setCpu_of_ne _ _ _ different, nobody other] at updating
    cases updating
  have books := updates.settled nobody
  refine ⟨updates.counts.poke trivial, ?_, ?_, ?_, ?_⟩
  · intro first second isFirst isSecond
    rw [only first isFirst, only second isSecond]
  · refine ⟨fun _ => ⟨core, ?_⟩, fun _ => rfl⟩
    rw [System.setCpu_self]
    rfl
  · intro other
    by_cases isCore : other = core
    · subst isCore
      rw [System.setCpu_self]
      exact ⟨books.accum, books.last, books.load⟩
    · rw [System.setCpu_of_ne _ _ _ isCore]
      exact Cpu.holds_of_not_updating (nobody other)
  · intro outside
    have notCore := outside core
    rw [System.setCpu_self] at notCore
    cases notCore

private theorem pokeUpdateAccum_updating {ktime : BitVec 64} {globals : Globals} {pc pc' : PokePc}
    (updating : pc.updating = true)
    (goesOn : (pokeUpdateAccum nrMilliCpus ktime globals pc).2 = some pc') :
    pc'.updating = true ∧
      (pokeUpdateAccum nrMilliCpus ktime globals pc).1.inProgress = globals.inProgress := by
  refine ⟨?_, by cases pc <;> first | cases updating; done | cases goesOn; done | rfl⟩
  cases pc with
  | readProgress => cases updating
  | exchangeProgress => cases updating
  | readLast i now snarfed =>
      cases goesOn
      split <;> rfl
  | readLoad i now snarfed last =>
      cases goesOn
      split <;> rfl
  | test i =>
      cases goesOn
      split <;> rfl
  | readDelta i =>
      cases goesOn
      split
      · rfl
      · split <;> rfl
  | release => cases goesOn
  | _ =>
      cases goesOn
      rfl

private theorem pokeUpdateAccum_returns {ktime : BitVec 64} {globals : Globals} {pc : PokePc}
    (updating : pc.updating = true)
    (returns : (pokeUpdateAccum nrMilliCpus ktime globals pc).2 = none) : pc = .release := by
  cases pc with
  | readProgress => cases updating
  | exchangeProgress => cases updating
  | release => rfl
  | _ => cases returns

omit [DecidableEq Core] [DecidableEq Pid] in
private theorem Updates.alone (updates : Updates nrMilliCpus system) {core other : Core}
    (updating : (system.cpus core).updating = true) (different : other ≠ core) :
    (system.cpus other).updating = false := by
  by_contra updatingToo
  exact different (updates.exclusive other core (by simpa using updatingToo) updating)

omit [DecidableEq Pid] in
private theorem Updates.updates (updates : Updates nrMilliCpus system) {core : Core}
    {p : TaskStruct Pid} {runnable : Bool} {pc pc' : PokePc} {todo : List (Call Pid)}
    (at_pc : system.cpus core = ⟨.poke p runnable pc, todo⟩) (updating : pc.updating = true)
    (goesOn : (pokeUpdateAccum nrMilliCpus system.memory.bpfKtimeGetUs system.memory.globals
      pc).2 = some pc') :
    Updates nrMilliCpus (system.setCpu (system.memory.poke nrMilliCpus pc) core
      ⟨.poke p runnable pc', todo⟩) := by
  have isUpdating : (system.cpus core).updating = true := by
    rw [at_pc]
    exact updating
  obtain ⟨updatingAfter, flag⟩ := pokeUpdateAccum_updating updating goesOn
  have holds := updates.holds core
  rw [at_pc] at holds
  have others : ∀ other, other ≠ core → ((system.setCpu (system.memory.poke nrMilliCpus pc) core
      ⟨.poke p runnable pc', todo⟩).cpus other).updating = false := by
    intro other different
    rw [System.setCpu_of_ne _ _ _ different]
    exact updates.alone isUpdating different
  have only : ∀ other, ((system.setCpu (system.memory.poke nrMilliCpus pc) core
      ⟨.poke p runnable pc', todo⟩).cpus other).updating = true → other = core := by
    intro other isOther
    by_contra different
    rw [others other different] at isOther
    cases isOther
  refine ⟨updates.counts.poke holds, ?_, ?_, ?_, ?_⟩
  · intro first second isFirst isSecond
    rw [only first isFirst, only second isSecond]
  · refine ⟨fun _ => ⟨core, ?_⟩, fun _ => flag.trans (updates.held.mpr ⟨core, isUpdating⟩)⟩
    rw [System.setCpu_self]
    exact updatingAfter
  · intro other
    by_cases isCore : other = core
    · subst isCore
      rw [System.setCpu_self]
      exact PokePc.Holds.poke holds updates.counts updating goesOn
    · exact Cpu.holds_of_not_updating (others other isCore)
  · intro outside
    have notCore := outside core
    rw [System.setCpu_self] at notCore
    exact absurd (updatingAfter.symm.trans notCore) (by decide)

omit [DecidableEq Pid] in
private theorem Updates.releases (updates : Updates nrMilliCpus system) {core : Core}
    {p : TaskStruct Pid} {runnable : Bool} {todo : List (Call Pid)}
    (at_pc : system.cpus core = ⟨.poke p runnable .release, todo⟩) :
    Updates nrMilliCpus (system.setCpu (system.memory.poke nrMilliCpus .release) core
      ⟨.collect p runnable, todo⟩) := by
  have isUpdating : (system.cpus core).updating = true := by
    rw [at_pc]
    rfl
  have holds := updates.holds core
  rw [at_pc] at holds
  have nobody : ∀ other, ((system.setCpu (system.memory.poke nrMilliCpus .release) core
      ⟨.collect p runnable, todo⟩).cpus other).updating = false := by
    intro other
    by_cases isCore : other = core
    · subst isCore
      rw [System.setCpu_self]
      rfl
    · rw [System.setCpu_of_ne _ _ _ isCore]
      exact updates.alone isUpdating isCore
  refine ⟨updates.counts.poke holds, ?_, ?_, ?_, ?_⟩
  · intro first second isFirst _
    exact absurd ((nobody first).symm.trans isFirst) (by decide)
  · constructor
    · intro taken
      cases taken
    · intro somebody
      obtain ⟨other, isUpdater⟩ := somebody
      exact absurd ((nobody other).symm.trans isUpdater) (by decide)
  · intro other
    exact Cpu.holds_of_not_updating (nobody other)
  · intro _
    exact ⟨holds.accum, holds.last, holds.load⟩

omit [DecidableEq Pid] in
private theorem Updates.pokes (updates : Updates nrMilliCpus system) {core : Core}
    {p : TaskStruct Pid} {runnable : Bool} {pc : PokePc} {todo : List (Call Pid)}
    (at_pc : system.cpus core = ⟨.poke p runnable pc, todo⟩) :
    Updates nrMilliCpus (system.setCpu (system.memory.poke nrMilliCpus pc) core
      ⟨afterPoke p runnable (pokeUpdateAccum nrMilliCpus system.memory.bpfKtimeGetUs
        system.memory.globals pc).2, todo⟩) := by
  cases isUpdating : pc.updating with
  | true =>
      cases outcome : (pokeUpdateAccum nrMilliCpus system.memory.bpfKtimeGetUs
          system.memory.globals pc).2 with
      | none =>
          obtain rfl := pokeUpdateAccum_returns isUpdating outcome
          exact updates.releases at_pc
      | some pc' => exact updates.updates at_pc isUpdating outcome
  | false =>
      have before : (system.cpus core).updating = false := by
        rw [at_pc]
        exact isUpdating
      cases pc with
      | readProgress =>
          have counts : Counts (system.memory.poke nrMilliCpus .readProgress) :=
            updates.counts.poke trivial
          refine updates.quiet before ?_ ⟨rfl, rfl, rfl, rfl, le_rfl⟩ rfl counts
          simp only [pokeUpdateAccum]
          split <;> rfl
      | exchangeProgress =>
          cases taken : system.memory.globals.inProgress with
          | true =>
              have counts : Counts (system.memory.poke nrMilliCpus .exchangeProgress) :=
                updates.counts.poke trivial
              refine updates.quiet before ?_ ⟨rfl, rfl, rfl, rfl, le_rfl⟩ taken.symm counts
              simp only [pokeUpdateAccum, taken]
              rfl
          | false =>
              have acquired := @Updates.acquires _ _ _ _ _ _ updates core p runnable todo taken
              simpa only [pokeUpdateAccum, taken, Bool.false_eq_true, if_false, afterPoke] using acquired
      | _ => cases isUpdating

private theorem Updates.accesses (updates : Updates nrMilliCpus system) {core : Core}
    (accesses : Cpu.Accesses nrMilliCpus system.memory cpu memory' cpu')
    (at_cpu : system.cpus core = cpu) (posts : cpu.Posts system.memory)
    (few : (tally fun pid => memory'.posted pid = true) ≤ maxPids) :
    Updates nrMilliCpus (system.setCpu memory' core cpu') := by
  have counts := updates.counts
  have before : cpu.updating = false → (system.cpus core).updating = false :=
    fun outside => at_cpu ▸ outside
  cases accesses with
  | start call todo =>
      have starts := system.memory.start_starts call
      apply updates.quiet (before rfl) _ starts.retains.clockwork starts.retains.flag
        (starts.retains.counts counts)
      obtain ⟨isReady, -⟩ | ⟨runnable, isPost, -⟩ := starts.outcome
      · simp only [isReady]
        rfl
      · simp only [isPost]
        rfl
  | post p runnable todo =>
      exact updates.quiet (before rfl) rfl ⟨rfl, rfl, rfl, rfl, le_rfl⟩ rfl
        (counts.post posts.2.1 few)
  | poke p runnable pc todo => exact updates.pokes at_cpu
  | collect p runnable todo =>
      have retains := system.memory.collect_retains p runnable
      apply updates.quiet (before rfl) _ retains.clockwork retains.flag (retains.counts counts)
      obtain isReady | ⟨idx, accounts⟩ := system.memory.collect_pc p runnable
      · simp only [isReady]
        rfl
      · simp only [accounts]
        rfl
  | account p idx todo =>
      rw [Memory.account_eq]
      exact updates.quiet (before rfl) rfl ⟨rfl, rfl, rfl, rfl, le_rfl⟩ rfl
        ⟨counts.delta, counts.posted, counts.loads, counts.clocked, counts.last, counts.ktime⟩

theorem Updates.step (updates : Updates nrMilliCpus system) (posting : Posting system)
    {action : Action Core Pid} (stepped : system.Step nrMilliCpus action next) :
    Updates nrMilliCpus next := by
  have counts := updates.counts
  cases stepped with
  | @trace core tracepoint isReady _ _ =>
      have before : (system.cpus core).updating = false := by simp [Cpu.updating, isReady]
      exact updates.quiet before rfl .refl rfl counts
  | @access core effect accessed =>
      exact updates.accesses (Cpu.access_accesses accessed) rfl (posting.cpus core)
        (posting.access accessed).few
  | @tick elapsed fits =>
      refine updates.frame ⟨rfl, rfl, rfl, rfl, Nat.le_add_right _ _⟩ rfl ?_ fun core => .inl rfl
      exact ⟨counts.delta, counts.posted, counts.loads, counts.clocked,
        counts.last.trans (Nat.div_le_div_right (Nat.le_add_right _ _)), fits⟩

omit [DecidableEq Core] [DecidableEq Pid] in
theorem System.Initial.updates (initial : system.Initial) : Updates nrMilliCpus system := by
  have nobody : ∀ core, (system.cpus core).updating = false := by
    intro core
    rw [initial.cpus]
    rfl
  have empty : (tally fun pid => system.memory.posted pid = true) = 0 := by
    rw [tally_eq_zero, initial.posted]
    exact fun _ => Bool.false_ne_true
  refine ⟨⟨?_, ?_, ?_, ?_, ?_, initial.ktime⟩, ?_, ?_, ?_, ?_⟩
  · rw [empty, initial.globals, initial.samples]
    rfl
  · rw [empty]
    exact Nat.zero_le _
  · rw [initial.samples]
    intro sample member
    cases member
  · rw [initial.samples]
    exact .nil
  · rw [initial.samples]
    exact Nat.zero_le _
  · intro first second isFirst _
    exact absurd ((nobody first).symm.trans isFirst) (by decide)
  · rw [initial.globals]
    constructor
    · intro taken
      cases taken
    · intro somebody
      obtain ⟨core, isUpdater⟩ := somebody
      exact absurd ((nobody core).symm.trans isUpdater) (by decide)
  · intro core
    exact Cpu.holds_of_not_updating (nobody core)
  · intro _
    rw [initial.globals, initial.samples]
    exact ⟨rfl, rfl, rfl⟩

theorem posting_and_updates (reachable : (schedfair Core Pid nrMilliCpus).Reachable system) :
    Posting system ∧ Updates nrMilliCpus system := by
  apply reachable.invariant fun state => Posting state ∧ Updates nrMilliCpus state
  · intro state initial
    exact ⟨initial.posting, initial.updates⟩
  · intro state action next holds stepped
    exact ⟨holds.1.step stepped, holds.2.step holds.1 stepped⟩

/-- What an updater has taken from `delta_load` and not added to `current_load` yet. -/
def Cpu.inHand (globals : Globals) (cpu : Cpu Pid) : Int :=
  match cpu.pc with
  | .poke _ _ (.readLast _ _ snarfed) | .poke _ _ (.readLoad _ _ snarfed _)
  | .poke _ _ (.readAccum _ _ snarfed _) | .poke _ _ (.writeAccum _ _ snarfed _)
  | .poke _ _ (.writeLast _ _ snarfed) | .poke _ _ (.addLoad _ snarfed) => snarfed.toInt
  | .poke _ _ (.writeLoad _ load) => load.toNat - globals.currentLoad.toNat
  | _ => 0

omit [DecidableEq Core] [DecidableEq Pid] in
private theorem Updates.conserved (updates : Updates nrMilliCpus system) {core : Core}
    (updating : (system.cpus core).updating = true) :
    (system.memory.globals.currentLoad.toNat : Int) + system.memory.globals.deltaLoad.toInt +
        (system.cpus core).inHand system.memory.globals =
      tally fun pid => system.memory.posted pid = true := by
  have holds := updates.holds core
  have delta := updates.counts.delta
  cases at_pc : system.cpus core with
  | mk pc todo =>
      rw [at_pc] at updating holds
      cases pc with
      | poke p runnable pc =>
          cases pc with
          | readProgress => cases updating
          | exchangeProgress => cases updating
          | clamp i => cases holds
          | readLast i now snarfed =>
              obtain ⟨sample, earlier, shape, -, taken, books⟩ := holds
              have load := books.load
              simp only [Cpu.inHand, shape, lastLoad_cons] at delta ⊢
              omega
          | readLoad i now snarfed last =>
              obtain ⟨sample, earlier, shape, -, taken, books, -⟩ := holds
              have load := books.load
              simp only [Cpu.inHand, shape, lastLoad_cons] at delta ⊢
              omega
          | readAccum i now snarfed growth =>
              obtain ⟨sample, earlier, shape, -, taken, books, -⟩ := holds
              have load := books.load
              simp only [Cpu.inHand, shape, lastLoad_cons] at delta ⊢
              omega
          | writeAccum i now snarfed accum =>
              obtain ⟨sample, earlier, shape, -, taken, books, -⟩ := holds
              have load := books.load
              simp only [Cpu.inHand, shape, lastLoad_cons] at delta ⊢
              omega
          | writeLast i now snarfed =>
              obtain ⟨sample, earlier, shape, -, taken, books⟩ := holds
              have load := books.load
              simp only [Cpu.inHand, shape, lastLoad_cons] at delta ⊢
              omega
          | addLoad i snarfed =>
              obtain ⟨earlier, taken, books⟩ := holds
              have load := books.load
              simp only [Cpu.inHand]
              omega
          | writeLoad i load =>
              obtain ⟨earlier, isLoad, -⟩ := holds
              simp only [Cpu.inHand]
              omega
          | snarf i now =>
              have load := holds.1.load
              simp only [Cpu.inHand]
              omega
          | _ =>
              have load := Books.load holds
              simp only [Cpu.inHand]
              omega
      | _ => cases updating

/-- One CPU updates at a time, `current_load` never becomes negative, and no change of the load is
lost or counted twice: what is in `current_load`, in `delta_load` and in the hands of the updater
is the number of the tasks that are posted as runnable, which are those with `load_tracked` but
for the tasks between the flag and the atomic add. -/
theorem load_changes_conserved
    (reachable : (schedfair Core Pid nrMilliCpus).Reachable system) :
    (∀ first second, (system.cpus first).updating = true → (system.cpus second).updating = true →
      first = second) ∧
    (∀ core p runnable i, (system.cpus core).pc ≠ .poke p runnable (.clamp i)) ∧
    (∀ core, (system.cpus core).updating = true →
      (system.memory.globals.currentLoad.toNat : Int) + system.memory.globals.deltaLoad.toInt +
          (system.cpus core).inHand system.memory.globals =
        tally fun pid => system.memory.posted pid = true) ∧
    ((∀ core, (system.cpus core).updating = false) →
      (system.memory.globals.currentLoad.toNat : Int) + system.memory.globals.deltaLoad.toInt =
        tally fun pid => system.memory.posted pid = true) ∧
    ∀ pid, (∀ core, ¬(system.cpus core).pc.Between pid) →
      system.memory.posted pid = (system.memory.info pid).loadTracked := by
  obtain ⟨posting, updates⟩ := posting_and_updates reachable
  refine ⟨updates.exclusive, ?_, fun core => updates.conserved, ?_, posting.posted⟩
  · intro core p runnable i at_clamp
    have holds := updates.holds core
    simp only [Cpu.Holds, at_clamp] at holds
    exact holds
  · intro nobody
    have load := (updates.settled nobody).load
    have delta := updates.counts.delta
    omega

end Updates

/-- Two CPUs and two tasks, five microseconds after boot. -/
def booted : System Bool Bool :=
  ⟨⟨⟨0, 0, 0, 0, false⟩, fun _ => none, fun _ => 0, 5000, fun _ => false, []⟩, fun _ => .idle⟩

def niceTask (pid : Bool) : TaskStruct Bool := ⟨pid, 0, 0, 120⟩

theorem booted_initial : booted.Initial := ⟨rfl, rfl, rfl, by decide, rfl, rfl, fun _ => rfl⟩

theorem booted_reaches {nrMilliCpus : BitVec 32} {actions : List (Action Bool Bool)}
    {test : System Bool Bool → Bool}
    (passed : ((actions.foldlM (System.perform nrMilliCpus) booted).any test) = true) :
    ∃ system, (schedfair Bool Bool nrMilliCpus).Reachable system ∧ test system = true := by
  have performed : ∀ system action next, System.perform nrMilliCpus system action = some next →
      (schedfair Bool Bool nrMilliCpus).step system action next :=
    fun _ _ _ performed => System.step_of_perform performed
  obtain ⟨system, run, holds⟩ := Machine.Run.exists_of_any performed passed
  exact ⟨system, ⟨booted, actions, booted_initial, run⟩, holds⟩

/-- One CPU has taken the load of its task when the other posts that of another. -/
def overlappingWakeups : List (Action Bool Bool) :=
  .trace false (.schedWakeup (niceTask false)) :: List.replicate 6 (Action.access false) ++
    [Action.trace true (.schedWakeup (niceTask true)), Action.access true, Action.access true]

theorem load_changes_conserved_overlapping :
    ∃ system, (schedfair Bool Bool 4000).Reachable system ∧
      (system.cpus false).updating = true ∧ (system.cpus false).inHand system.memory.globals = 1 ∧
      system.memory.globals.deltaLoad = 1 ∧
      (system.memory.globals.currentLoad.toNat : Int) + system.memory.globals.deltaLoad.toInt +
          (system.cpus false).inHand system.memory.globals =
        tally fun pid => system.memory.posted pid = true := by
  obtain ⟨system, reachable, holds⟩ := @booted_reaches 4000 overlappingWakeups
    (fun system => (system.cpus false).updating &&
      decide ((system.cpus false).inHand system.memory.globals = 1) &&
      decide (system.memory.globals.deltaLoad = 1)) (by decide +kernel)
  simp only [Bool.and_eq_true, decide_eq_true_eq] at holds
  have conserved := (load_changes_conserved reachable).2.2.1
  exact ⟨system, reachable, holds.1.1, holds.1.2, holds.2, conserved false holds.1.1⟩

section Integral

variable {Core Pid : Type} [DecidableEq Core] [Fintype Pid] [DecidableEq Pid]
  {nrMilliCpus : BitVec 32} {memory memory' : Memory Pid} {cpu' : Cpu Pid}
  {system next : System Core Pid}

omit [DecidableEq Core] [DecidableEq Pid] in
/-- `accum_fair_share` has taken account of every sample, or of all but the newest. -/
theorem Updates.accrued (updates : Updates nrMilliCpus system) :
    system.memory.globals.accumFairShare.toNat = fairIntegral nrMilliCpus system.memory.samples ∨
      system.memory.globals.accumFairShare.toNat =
        fairIntegral nrMilliCpus system.memory.samples.tail := by
  by_cases nobody : ∀ core, (system.cpus core).updating = false
  · exact .inl (updates.settled nobody).accum
  · push Not at nobody
    obtain ⟨core, updating⟩ := nobody
    have holds := updates.holds core
    cases at_pc : system.cpus core with
    | mk pc todo =>
        rw [at_pc] at updating holds
        cases pc with
        | poke p runnable pc =>
            cases pc with
            | readProgress => exact absurd rfl updating
            | exchangeProgress => exact absurd rfl updating
            | clamp i => cases holds
            | readLast i now snarfed =>
                obtain ⟨sample, earlier, shape, -, -, books⟩ := holds
                exact .inr (shape ▸ books.accum)
            | readLoad i now snarfed last =>
                obtain ⟨sample, earlier, shape, -, -, books, -⟩ := holds
                exact .inr (shape ▸ books.accum)
            | readAccum i now snarfed growth =>
                obtain ⟨sample, earlier, shape, -, -, books, -⟩ := holds
                exact .inr (shape ▸ books.accum)
            | writeAccum i now snarfed accum =>
                obtain ⟨sample, earlier, shape, -, -, books, -⟩ := holds
                exact .inr (shape ▸ books.accum)
            | writeLast i now snarfed =>
                obtain ⟨sample, earlier, -, -, -, books⟩ := holds
                exact .inl books.accum
            | addLoad i snarfed =>
                obtain ⟨earlier, -, books⟩ := holds
                exact .inl books.accum
            | writeLoad i load =>
                obtain ⟨earlier, -, books⟩ := holds
                exact .inl books.accum
            | snarf i now => exact .inl holds.1.accum
            | _ => exact .inl (Books.accum holds)
        | _ => exact absurd rfl updating

omit [DecidableEq Core] [DecidableEq Pid] in
private theorem Updates.accum_le (updates : Updates nrMilliCpus system) :
    system.memory.globals.accumFairShare.toNat ≤
      fairIntegral nrMilliCpus system.memory.samples := by
  obtain accrued | accrued := updates.accrued
  · exact accrued.le
  · rw [accrued]
    cases system.memory.samples with
    | nil => exact le_rfl
    | cons sample samples => exact fairIntegral_le_cons

omit [DecidableEq Pid] in
/-- Only the updater writes `accum_fair_share`, and never a smaller value. -/
theorem Memory.poke_accum {pc : PokePc} (holds : pc.Holds nrMilliCpus memory) :
    memory.globals.accumFairShare.toNat ≤
      (memory.poke nrMilliCpus pc).globals.accumFairShare.toNat := by
  cases pc with
  | writeAccum i now snarfed accum =>
      obtain ⟨sample, earlier, shape, -, -, books, accrues⟩ := holds
      show memory.globals.accumFairShare.toNat ≤ accum.toNat
      rw [books.accum, accrues, shape]
      exact fairIntegral_le_cons
  | _ => exact le_rfl

omit [DecidableEq Core] in
private theorem Updates.accum_mono (updates : Updates nrMilliCpus system) {core : Core}
    (accesses : Cpu.Accesses nrMilliCpus system.memory (system.cpus core) memory' cpu') :
    system.memory.globals.accumFairShare.toNat ≤ memory'.globals.accumFairShare.toNat := by
  have holds := updates.holds core
  generalize at_cpu : system.cpus core = cpu at accesses holds
  cases accesses with
  | start call todo => rw [(system.memory.start_starts call).retains.clockwork.accum]
  | post p runnable todo => exact le_rfl
  | poke p runnable pc todo => exact Memory.poke_accum holds
  | collect p runnable todo => rw [(system.memory.collect_retains p runnable).clockwork.accum]
  | account p idx todo => rw [Memory.account_eq]

theorem Updates.step_accum (updates : Updates nrMilliCpus system) {action : Action Core Pid}
    (stepped : system.Step nrMilliCpus action next) :
    system.memory.globals.accumFairShare.toNat ≤ next.memory.globals.accumFairShare.toNat := by
  cases stepped with
  | trace => exact le_rfl
  | access accessed => exact updates.accum_mono (Cpu.access_accesses accessed)
  | tick => exact le_rfl

theorem accum_mono_of_run {actions : List (Action Core Pid)}
    (reachable : (schedfair Core Pid nrMilliCpus).Reachable system)
    (run : (schedfair Core Pid nrMilliCpus).Run system actions next) :
    system.memory.globals.accumFairShare.toNat ≤ next.memory.globals.accumFairShare.toNat := by
  induction run with
  | nil => exact le_rfl
  | cons stepped _ ih =>
      exact ((posting_and_updates reachable).2.step_accum stepped).trans
        (ih (reachable.step stepped))

/-- While nobody updates, `accum_fair_share` is exactly the integral of the fair rate over the
samples that the updaters took, which are in the order of time. It never shrinks, never overflows
and grows by a CPU at most. -/
theorem accum_fair_share_is_integral
    (reachable : (schedfair Core Pid nrMilliCpus).Reachable system) :
    ((∀ core, (system.cpus core).updating = false) →
      system.memory.globals.accumFairShare.toNat =
        integral Sample.time (Sample.rate nrMilliCpus) system.memory.samples) ∧
    Clocked Sample.time system.memory.samples ∧
    system.memory.globals.accumFairShare.toNat ≤ 1000 * (system.memory.ktimeNs / 1000) ∧
    ∀ actions next, (schedfair Core Pid nrMilliCpus).Run system actions next →
      system.memory.globals.accumFairShare.toNat ≤ next.memory.globals.accumFairShare.toNat := by
  have updates := (posting_and_updates reachable).2
  refine ⟨fun nobody => (updates.settled nobody).accum, updates.counts.clocked, ?_,
    fun actions next run => accum_mono_of_run reachable run⟩
  calc system.memory.globals.accumFairShare.toNat
      ≤ fairIntegral nrMilliCpus system.memory.samples := updates.accum_le
    _ ≤ 1000 * lastTime system.memory.samples := fairIntegral_le updates.counts.clocked
    _ ≤ 1000 * (system.memory.ktimeNs / 1000) := Nat.mul_le_mul_left _ updates.counts.last

end Integral

/-- A task wakes up, and three milliseconds later another one does. -/
def twoWakeups : List (Action Bool Bool) :=
  .trace false (.schedWakeup (niceTask false)) :: List.replicate 14 (Action.access false) ++
    Action.tick 3000000 :: Action.trace true (.schedWakeup (niceTask true)) ::
      List.replicate 16 (Action.access true)

theorem accum_fair_share_is_integral_twoWakeups :
    ∃ system, (schedfair Bool Bool 4000).Reachable system ∧
      system.memory.globals.accumFairShare = 3000000 ∧
      integral Sample.time (Sample.rate 4000) system.memory.samples = 3000000 := by
  obtain ⟨system, reachable, holds⟩ := @booted_reaches 4000 twoWakeups
    (fun system => decide (∀ core, (system.cpus core).updating = false) &&
      decide (system.memory.globals.accumFairShare = 3000000)) (by decide +kernel)
  simp only [Bool.and_eq_true, decide_eq_true_eq] at holds
  have isIntegral := (accum_fair_share_is_integral reachable).1 holds.1
  refine ⟨system, reachable, holds.2, ?_⟩
  rw [← isIntegral, holds.2]
  rfl

end Ghost.Schedfair
