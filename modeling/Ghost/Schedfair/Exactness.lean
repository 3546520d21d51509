import Ghost.Schedfair.Windows

/-!
# Exact shares

While no two tracepoints overlap, the shares of the tasks are the integrals that the head of
`schedfair.bpf.c` defines, and together they are at most the machine.
-/

set_option autoImplicit false

namespace Ghost.Schedfair

open Lib

section Shares

variable {Pid : Type} [Fintype Pid] {nrMilliCpus : BitVec 32} {pid : Pid} {sample : Sample Pid}
  {samples : List (Sample Pid)}

/-- The rate of one task, which is that of all as long as it is runnable. -/
def Sample.rateOf (nrMilliCpus : BitVec 32) (pid : Pid) (sample : Sample Pid) : Nat :=
  if sample.runnable pid then sample.rate nrMilliCpus else 0

/-- A task's fair share over the time that it is runnable. -/
def fairShare (nrMilliCpus : BitVec 32) (pid : Pid) (samples : List (Sample Pid)) : Nat :=
  integral Sample.time (Sample.rateOf nrMilliCpus pid) samples

def lastRunnable (samples : List (Sample Pid)) (pid : Pid) : Bool :=
  samples.head?.elim false fun last => last.runnable pid

omit [Fintype Pid] in
private theorem lastRunnable_cons :
    lastRunnable (sample :: samples) pid = sample.runnable pid := rfl

/-- What a new sample adds for everyone who was runnable at the one before. -/
def growth (nrMilliCpus : BitVec 32) (sample : Sample Pid) (samples : List (Sample Pid)) : Nat :=
  samples.head?.elim 0 fun last => last.rate nrMilliCpus * (sample.time - last.time)

private theorem fairIntegral_cons :
    fairIntegral nrMilliCpus (sample :: samples) =
      fairIntegral nrMilliCpus samples + growth nrMilliCpus sample samples := by
  cases samples with
  | nil => rfl
  | cons earlier samples => rfl

private theorem fairShare_cons_of_runnable (runnable : lastRunnable samples pid = true) :
    fairShare nrMilliCpus pid (sample :: samples) =
      fairShare nrMilliCpus pid samples + growth nrMilliCpus sample samples := by
  cases samples with
  | nil => cases runnable
  | cons earlier samples =>
      rw [lastRunnable_cons] at runnable
      rw [fairShare, integral_cons_cons, Sample.rateOf, if_pos runnable]
      rfl

private theorem fairShare_cons_of_blocked (blocked : lastRunnable samples pid = false) :
    fairShare nrMilliCpus pid (sample :: samples) = fairShare nrMilliCpus pid samples := by
  apply integral_cons_of_zero
  intro last isLast
  rw [lastRunnable, isLast] at blocked
  rw [Sample.rateOf, if_neg]
  exact Bool.eq_false_iff.mp blocked

private theorem fairShare_le :
    fairShare nrMilliCpus pid samples ≤ fairIntegral nrMilliCpus samples := by
  apply integral_mono
  intro sample _
  unfold Sample.rateOf
  split
  · exact le_rfl
  · exact Nat.zero_le _

/-- Together the runnable tasks get no more than there is. -/
theorem Sample.sum_rateOf_le :
    ∑ pid, sample.rateOf nrMilliCpus pid ≤ nrMilliCpus.toNat := by
  have counted : ∑ pid, sample.rateOf nrMilliCpus pid = sample.load * sample.rate nrMilliCpus := by
    simp only [Sample.rateOf, Sample.load, tally]
    rw [← Finset.sum_filter, Finset.sum_const, smul_eq_mul]
  rw [counted, Sample.rate]
  split
  · exact Nat.zero_le _
  · calc sample.load * min 1000 (nrMilliCpus.toNat / sample.load)
        ≤ sample.load * (nrMilliCpus.toNat / sample.load) :=
          Nat.mul_le_mul_left _ (Nat.min_le_right _ _)
      _ ≤ nrMilliCpus.toNat := Nat.mul_div_le _ _

private theorem sum_fairShare_add_le {first last : Sample Pid}
    (clocked : Clocked Sample.time samples)
    (isFirst : samples.getLast? = some first) (isLast : samples.head? = some last) :
    ∑ pid, fairShare nrMilliCpus pid samples + nrMilliCpus.toNat * first.time ≤
      nrMilliCpus.toNat * last.time := by
  unfold fairShare
  rw [sum_integral]
  exact integral_add_le (fun sample _ => Sample.sum_rateOf_le) clocked isFirst isLast

end Shares

/-! ## One tracepoint at a time -/

section Exact

variable {Core Pid : Type} [DecidableEq Core] [Fintype Pid] [DecidableEq Pid]
  {nrMilliCpus : BitVec 32} {memory memory' : Memory Pid} {cpu cpu' : Cpu Pid}
  {system next : System Core Pid}

/-- The flag of a task has changed, and the update for it has not taken its load. -/
def Pc.unsampled : Pc Pid → Bool
  | .post .. => true
  | .poke _ _ .readProgress | .poke _ _ .exchangeProgress | .poke _ _ (.clock _)
  | .poke _ _ (.snarf ..) => true
  | _ => false

/-- A task has collected its share, up to the window that is open. -/
structure Due (nrMilliCpus : BitVec 32) (samples : List (Sample Pid)) (pid : Pid) (ti : TaskInfo)
    (isOpen : Prop) : Prop where
  wake : ti.shareAtWake.toNat ≤ fairIntegral nrMilliCpus samples
  closed : ¬isOpen → ti.totalCpuShare.toNat = fairShare nrMilliCpus pid samples
  opened : isOpen → ti.totalCpuShare.toNat +
      (fairIntegral nrMilliCpus samples - ti.shareAtWake.toNat) =
    fairShare nrMilliCpus pid samples

/-- What holds while one CPU is at work. -/
structure Exact (nrMilliCpus : BitVec 32) (memory : Memory Pid) (cpu : Cpu Pid) : Prop where
  due : ∀ pid, Due nrMilliCpus memory.samples pid (memory.info pid) (cpu.Open memory pid)
  before : cpu.pc.unsampled = true →
    ∀ pid, lastRunnable memory.samples pid = true ↔ cpu.Open memory pid
  sampled : cpu.pc.unsampled = false → lastRunnable memory.samples = memory.posted
  taken : cpu.pc.unsampled = false → memory.globals.deltaLoad = 0

omit [DecidableEq Pid] in
private theorem Due.congr {samples : List (Sample Pid)} {pid : Pid} {ti ti' : TaskInfo}
    {isOpen isOpen' : Prop} (due : Due nrMilliCpus samples pid ti isOpen)
    (wake : ti'.shareAtWake = ti.shareAtWake) (total : ti'.totalCpuShare = ti.totalCpuShare)
    (opens : isOpen' ↔ isOpen) : Due nrMilliCpus samples pid ti' isOpen' := by
  refine ⟨?_, ?_, ?_⟩
  · rw [wake]
    exact due.wake
  · rw [total, opens]
    exact due.closed
  · rw [wake, total, opens]
    exact due.opened

omit [DecidableEq Pid] in
/-- An update is due to those whose windows are open. -/
theorem Due.cons {samples : List (Sample Pid)} {pid : Pid} {ti : TaskInfo} {isOpen : Prop}
    (due : Due nrMilliCpus samples pid ti isOpen) (sample : Sample Pid)
    (runnable : lastRunnable samples pid = true ↔ isOpen) :
    Due nrMilliCpus (sample :: samples) pid ti isOpen := by
  have wake := due.wake
  refine ⟨?_, ?_, ?_⟩
  · rw [fairIntegral_cons]
    omega
  · intro closed
    rw [← runnable, Bool.not_eq_true] at closed
    rw [fairShare_cons_of_blocked closed]
    exact due.closed (by rw [← runnable, closed]; exact Bool.false_ne_true)
  · intro opened
    rw [fairShare_cons_of_runnable (runnable.mpr opened), fairIntegral_cons, ← due.opened opened]
    omega

/-- What the CPU at work can rely on, since the others are idle. -/
structure Alone (nrMilliCpus : BitVec 32) (memory : Memory Pid) (cpu : Cpu Pid) : Prop where
  posts : cpu.Posts memory
  agrees : ∀ pid, cpu.Agrees memory pid
  free : cpu.updating = false → memory.globals.inProgress = false
  settled : cpu.updating = false →
    Books nrMilliCpus memory.globals memory.samples memory.samples memory.samples

private theorem Exact.start {call : Call Pid} {todo : List (Call Pid)}
    (exactly : Exact nrMilliCpus memory ⟨.ready, call :: todo⟩)
    (agrees : ∀ pid, (⟨.ready, call :: todo⟩ : Cpu Pid).Agrees memory pid) :
    Exact nrMilliCpus (memory.start call).1 ⟨(memory.start call).2, todo⟩ := by
  have starts := memory.start_starts call
  have clockwork := starts.retains.clockwork
  have frame := starts.retains.eq
  obtain ⟨isReady, same⟩ | ⟨runnable, isPost, tracked, changed⟩ := starts.outcome
  · rw [isReady]
    refine ⟨fun pid => ?_, fun impossible => ?_, fun _ => ?_, fun _ => ?_⟩
    · obtain ⟨sameTracked, wake, total⟩ := same pid
      rw [clockwork.samples]
      exact (exactly.due pid).congr wake total (Cpu.open_congr sameTracked fun _ => Iff.rfl)
    · cases impossible
    · rw [frame]
      exact exactly.sampled rfl
    · rw [frame]
      exact exactly.taken rfl
  · rw [isPost]
    have opens : ∀ pid, (⟨.post call.task runnable, todo⟩ : Cpu Pid).Open (memory.start call).1 pid ↔
        (⟨.ready, call :: todo⟩ : Cpu Pid).Open memory pid := by
      intro pid
      simp only [Cpu.Open, Cpu.Works, changed]
      by_cases isTask : pid = call.task.pid
      · subst isTask
        rw [Function.update_self]
        cases runnable <;> simp [tracked]
      · rw [Function.update_of_ne isTask]
        simp [Ne.symm isTask]
    have shares : ∀ pid, ((memory.start call).1.info pid).shareAtWake = (memory.info pid).shareAtWake ∧
        ((memory.start call).1.info pid).totalCpuShare = (memory.info pid).totalCpuShare := by
      intro pid
      rw [changed]
      by_cases isTask : pid = call.task.pid
      · subst isTask
        rw [Function.update_self]
        exact ⟨rfl, rfl⟩
      · rw [Function.update_of_ne isTask]
        exact ⟨rfl, rfl⟩
    refine ⟨fun pid => ?_, fun _ pid => ?_, fun impossible => ?_, fun impossible => ?_⟩
    · rw [clockwork.samples]
      exact (exactly.due pid).congr (shares pid).1 (shares pid).2 (opens pid)
    · rw [clockwork.samples, opens, exactly.sampled rfl, agrees pid id]
      simp [Cpu.Open, Cpu.Works]
    · cases impossible
    · cases impossible

private theorem Exact.post {p : TaskStruct Pid} {runnable : Bool} {todo : List (Call Pid)}
    (exactly : Exact nrMilliCpus memory ⟨.post p runnable, todo⟩) :
    Exact nrMilliCpus (memory.post p.pid runnable) ⟨.poke p runnable .readProgress, todo⟩ := by
  refine ⟨exactly.due, fun _ => exactly.before rfl, fun impossible => ?_, fun impossible => ?_⟩
  · cases impossible
  · cases impossible

omit [DecidableEq Pid] in
private theorem Exact.snarf {p : TaskStruct Pid} {runnable : Bool} {i : Nat}
    {now snarfed : BitVec 64}
    {todo : List (Call Pid)}
    (exactly : Exact nrMilliCpus memory ⟨.poke p runnable (.snarf i now), todo⟩) :
    Exact nrMilliCpus (memory.poke nrMilliCpus (.snarf i now))
      ⟨.poke p runnable (.readLast i now snarfed), todo⟩ := by
  refine ⟨fun pid => ?_, fun impossible => ?_, fun _ => rfl, fun _ => rfl⟩
  · exact (exactly.due pid).cons ⟨now.toNat, memory.posted⟩ (exactly.before rfl pid)
  · cases impossible

omit [DecidableEq Pid] in
/-- An access of the updater to its own variables. -/
theorem Exact.frame (exactly : Exact nrMilliCpus memory cpu)
    (tasks : memory'.tasks = memory.tasks) (samples : memory'.samples = memory.samples)
    (posted : memory'.posted = memory.posted)
    (delta : memory'.globals.deltaLoad = memory.globals.deltaLoad)
    (works : ∀ pid runnable, cpu'.Works pid runnable ↔ cpu.Works pid runnable)
    (unsampled : cpu'.pc.unsampled = cpu.pc.unsampled) : Exact nrMilliCpus memory' cpu' := by
  have info : ∀ pid, memory'.info pid = memory.info pid := by
    intro pid
    rw [Memory.info, Memory.info, tasks]
  have opens : ∀ pid, cpu'.Open memory' pid ↔ cpu.Open memory pid :=
    fun pid => Cpu.open_congr (congrArg TaskInfo.loadTracked (info pid)) (works pid)
  refine ⟨fun pid => ?_, ?_, ?_, ?_⟩
  · rw [samples]
    exact (exactly.due pid).congr (congrArg TaskInfo.shareAtWake (info pid))
      (congrArg TaskInfo.totalCpuShare (info pid)) (opens pid)
  · rw [unsampled, samples]
    intro isBefore pid
    rw [opens]
    exact exactly.before isBefore pid
  · rw [unsampled, samples, posted]
    exact exactly.sampled
  · rw [unsampled, delta]
    exact exactly.taken

omit [DecidableEq Pid] in
private theorem Exact.poke {p : TaskStruct Pid} {runnable : Bool} {pc : PokePc}
    {todo : List (Call Pid)}
    (exactly : Exact nrMilliCpus memory ⟨.poke p runnable pc, todo⟩)
    (free : pc.updating = false → memory.globals.inProgress = false) :
    Exact nrMilliCpus (memory.poke nrMilliCpus pc)
      ⟨afterPoke p runnable
        (pokeUpdateAccum nrMilliCpus memory.bpfKtimeGetUs memory.globals pc).2, todo⟩ := by
  have works : ∀ returned : Option PokePc, ∀ pid becomes,
      (⟨afterPoke p runnable returned, todo⟩ : Cpu Pid).Works pid becomes ↔
        (⟨.poke p runnable pc, todo⟩ : Cpu Pid).Works pid becomes :=
    fun returned pid becomes => afterPoke_works returned todo
  cases pc with
  | snarf i now => exact exactly.snarf
  | readProgress =>
      refine exactly.frame rfl rfl rfl rfl (works _) ?_
      simp only [pokeUpdateAccum, free rfl]
      rfl
  | exchangeProgress =>
      refine exactly.frame rfl rfl rfl rfl (works _) ?_
      simp only [pokeUpdateAccum, free rfl]
      rfl
  | readLast i now snarfed =>
      refine exactly.frame rfl rfl rfl rfl (works _) ?_
      simp only [pokeUpdateAccum]
      split <;> rfl
  | readLoad i now snarfed last =>
      refine exactly.frame rfl rfl rfl rfl (works _) ?_
      simp only [pokeUpdateAccum]
      split <;> rfl
  | test i =>
      refine exactly.frame rfl rfl rfl rfl (works _) ?_
      simp only [pokeUpdateAccum]
      split <;> rfl
  | readDelta i =>
      have taken := exactly.taken rfl
      refine exactly.frame rfl rfl rfl rfl (works _) ?_
      simp only [pokeUpdateAccum, taken]
      rfl
  | _ => exact exactly.frame rfl rfl rfl rfl (works _) rfl

private theorem Exact.collect {p : TaskStruct Pid} {runnable : Bool} {todo : List (Call Pid)}
    (exactly : Exact nrMilliCpus memory ⟨.collect p runnable, todo⟩)
    (alone : Alone nrMilliCpus memory ⟨.collect p runnable, todo⟩) (counts : Counts memory) :
    Exact nrMilliCpus (memory.collect p runnable).1 ⟨(memory.collect p runnable).2, todo⟩ := by
  obtain ⟨tracked, -, present⟩ := alone.posts
  have retains := memory.collect_retains p runnable
  have accum := (alone.settled rfl).accum
  have finished := memory.collect_finished p runnable todo
  have sampledAfter : (memory.collect p runnable).2.unsampled = false := by
    obtain isReady | ⟨idx, accounts⟩ := memory.collect_pc p runnable
    · rw [isReady]
      rfl
    · rw [accounts]
      rfl
  refine ⟨fun pid => ?_, fun isBefore => ?_, fun _ => ?_, fun _ => ?_⟩
  · rw [retains.clockwork.samples]
    have due := exactly.due pid
    by_cases isTask : pid = p.pid
    · subst isTask
      have info := congrFun (Memory.collect_info present runnable) p.pid
      rw [Function.update_self] at info
      cases runnable with
      | true =>
          have wasClosed : ¬(⟨.collect p true, todo⟩ : Cpu Pid).Open memory p.pid := by
            intro isOpen
            obtain ⟨-, impossible⟩ | ⟨-, notWaking⟩ := isOpen
            · cases impossible
            · exact notWaking ⟨rfl, rfl⟩
          have isOpen : (⟨(memory.collect p true).2, todo⟩ : Cpu Pid).Open
              (memory.collect p true).1 p.pid := by
            refine .inr ⟨?_, finished p.pid true⟩
            rw [info]
            exact tracked
          rw [info]
          refine ⟨accum.le, fun isClosed => absurd isOpen isClosed, fun _ => ?_⟩
          show (memory.info p.pid).totalCpuShare.toNat + (_ -
            memory.globals.accumFairShare.toNat) = _
          rw [accum, Nat.sub_self, Nat.add_zero]
          exact due.closed wasClosed
      | false =>
          have wasOpen : (⟨.collect p false, todo⟩ : Cpu Pid).Open memory p.pid := .inl ⟨rfl, rfl⟩
          have isClosed : ¬(⟨(memory.collect p false).2, todo⟩ : Cpu Pid).Open
              (memory.collect p false).1 p.pid := by
            intro isOpen
            obtain works | ⟨isTracked, -⟩ := isOpen
            · exact finished p.pid false works
            · rw [info] at isTracked
              exact absurd (tracked.symm.trans isTracked) Bool.false_ne_true
          rw [info]
          refine ⟨due.wake, fun _ => ?_, fun isOpen => absurd isOpen isClosed⟩
          have opened := due.opened wasOpen
          have wake := due.wake
          have fits := @Counts.fairIntegral_lt _ _ nrMilliCpus _ counts
          have share := @fairShare_le _ _ nrMilliCpus p.pid memory.samples
          show ((memory.info p.pid).totalCpuShare + (memory.globals.accumFairShare -
            (memory.info p.pid).shareAtWake)).toNat = _
          rw [BitVec.toNat_add, BitVec.toNat_sub_of_le (BitVec.le_def.mpr (accum ▸ wake)), accum]
          omega
    · obtain ⟨sameTracked, wake, total⟩ := (memory.collect_frames p runnable isTask).shares
      apply due.congr wake total
      apply Cpu.open_congr sameTracked
      intro becomes
      constructor
      · intro works
        exact absurd works (finished pid becomes)
      · intro works
        exact absurd works.1.symm isTask
  · rw [sampledAfter] at isBefore
    cases isBefore
  · rw [retains.eq]
    exact exactly.sampled rfl
  · rw [retains.eq]
    exact exactly.taken rfl

private theorem Exact.accesses (exactly : Exact nrMilliCpus memory cpu)
    (alone : Alone nrMilliCpus memory cpu) (counts : Counts memory)
    (accesses : Cpu.Accesses nrMilliCpus memory cpu memory' cpu') :
    Exact nrMilliCpus memory' cpu' := by
  cases accesses with
  | start call todo => exact exactly.start alone.agrees
  | post p runnable todo => exact exactly.post
  | poke p runnable pc todo => exact exactly.poke alone.free
  | collect p runnable todo => exact exactly.collect alone counts
  | account p idx todo =>
      rw [Memory.account_eq]
      exact exactly.frame rfl rfl rfl rfl (fun _ _ => Iff.rfl) rfl

/-- A tracepoint fires when no other is being traced. -/
def OneAtATime (system : System Core Pid) : Action Core Pid → Prop
  | .trace _ _ => ∀ core, system.cpus core = .idle
  | _ => True

instance [Fintype Core] (system : System Core Pid) (action : Action Core Pid) :
    Decidable (OneAtATime system action) :=
  match action with
  | .trace _ _ => inferInstanceAs (Decidable (∀ core, system.cpus core = .idle))
  | .access _ | .tick _ => isTrue trivial

/-- At most one CPU is at work. -/
def Sole (nrMilliCpus : BitVec 32) (system : System Core Pid) : Prop :=
  ∃ core, (∀ other, other ≠ core → system.cpus other = .idle) ∧
    Exact nrMilliCpus system.memory (system.cpus core)

omit [DecidableEq Core] [DecidableEq Pid] in
private theorem alone_of_others_idle {core : Core} (posting : Posting system)
    (updates : Updates nrMilliCpus system)
    (others : ∀ other, other ≠ core → system.cpus other = .idle) :
    Alone nrMilliCpus system.memory (system.cpus core) := by
  have nobody : (system.cpus core).updating = false →
      ∀ other, (system.cpus other).updating = false := by
    intro notCore other
    by_cases isCore : other = core
    · exact isCore ▸ notCore
    · rw [others other isCore]
      rfl
  refine ⟨posting.cpus core, fun pid outside => ?_, fun notCore => ?_, fun notCore => ?_⟩
  · apply posting.posted
    intro other between
    by_cases isCore : other = core
    · exact outside (isCore ▸ between)
    · rw [others other isCore] at between
      exact between
  · by_contra taken
    obtain ⟨other, updating⟩ := updates.held.mp (by simpa using taken)
    exact absurd ((nobody notCore other).symm.trans updating) Bool.false_ne_true
  · exact updates.settled (nobody notCore)

theorem Sole.step (sole : Sole nrMilliCpus system) (posting : Posting system)
    (updates : Updates nrMilliCpus system) {action : Action Core Pid}
    (allowed : OneAtATime system action) (stepped : system.Step nrMilliCpus action next) :
    Sole nrMilliCpus next := by
  obtain ⟨core, others, exactly⟩ := sole
  cases stepped with
  | @trace traced tracepoint _ _ _ =>
      refine ⟨traced, fun other different => ?_, ?_⟩
      · rw [System.setCpu_of_ne _ _ _ different]
        exact allowed other
      · rw [allowed core] at exactly
        rw [System.setCpu_self]
        exact exactly.frame rfl rfl rfl rfl (fun _ _ => Iff.rfl) rfl
  | @access accessing effect accessed =>
      have isCore : accessing = core := by
        by_contra different
        rw [others accessing different] at accessed
        cases accessed
      subst isCore
      refine ⟨accessing, fun other different => ?_, ?_⟩
      · rw [System.setCpu_of_ne _ _ _ different]
        exact others other different
      · rw [System.setCpu_self]
        exact exactly.accesses (alone_of_others_idle posting updates others) updates.counts
          (Cpu.access_accesses accessed)
  | tick _ =>
      exact ⟨core, others, exactly.frame rfl rfl rfl rfl (fun _ _ => Iff.rfl) rfl⟩

omit [DecidableEq Core] [DecidableEq Pid] in
private theorem System.Initial.sole [Nonempty Core] (initial : system.Initial) :
    Sole nrMilliCpus system := by
  refine ⟨Classical.arbitrary Core, fun other _ => initial.cpus other, ?_⟩
  have fresh : ∀ pid, system.memory.info pid = .fresh := by
    intro pid
    rw [Memory.info, initial.tasks]
    rfl
  rw [initial.cpus]
  refine ⟨fun pid => ?_, fun impossible => ?_, fun _ => ?_, fun _ => ?_⟩
  · rw [fresh, initial.samples]
    refine ⟨le_rfl, fun _ => rfl, fun isOpen => ?_⟩
    obtain impossible | ⟨tracked, -⟩ := isOpen
    · cases impossible
    · rw [fresh] at tracked
      cases tracked
  · cases impossible
  · rw [initial.samples, initial.posted]
    rfl
  · rw [initial.globals]

theorem sole_of_reachable [Nonempty Core]
    (reachable : ((schedfair Core Pid nrMilliCpus).restrict OneAtATime).Reachable system) :
    Sole nrMilliCpus system := by
  have holds := reachable.invariant
    (fun state => (Posting state ∧ Updates nrMilliCpus state) ∧ Sole nrMilliCpus state) ?_ ?_
  · exact holds.2
  · intro state initial
    exact ⟨⟨initial.posting, initial.updates⟩, initial.sole⟩
  · intro state action next holds stepped
    obtain ⟨⟨posting, updates⟩, sole⟩ := holds
    obtain ⟨allowed, moved⟩ := stepped
    exact ⟨⟨posting.step moved, updates.step posting moved⟩,
      sole.step posting updates allowed moved⟩

/-- What a task has collected, with what has accrued since its wakeup if it is runnable. -/
def Memory.share (memory : Memory Pid) (pid : Pid) : Nat :=
  (memory.info pid).totalCpuShare.toNat +
    if (memory.info pid).loadTracked then
      memory.globals.accumFairShare.toNat - (memory.info pid).shareAtWake.toNat
    else 0

omit [DecidableEq Core] [DecidableEq Pid] in
private theorem Sole.share (sole : Sole nrMilliCpus system) (updates : Updates nrMilliCpus system)
    (idle : ∀ core, system.cpus core = .idle) (pid : Pid) :
    system.memory.share pid = fairShare nrMilliCpus pid system.memory.samples := by
  obtain ⟨core, -, exactly⟩ := sole
  have nobody : ∀ core, (system.cpus core).updating = false := by
    intro core
    rw [idle core]
    rfl
  have accum := (updates.settled nobody).accum
  have due := exactly.due pid
  rw [idle core] at due
  unfold Memory.share
  split
  · next tracked =>
      rw [accum]
      exact due.opened (.inr ⟨tracked, id⟩)
  · next untracked =>
      apply due.closed
      intro isOpen
      obtain impossible | ⟨tracked, -⟩ := isOpen
      · cases impossible
      · exact untracked tracked

/-- If tracepoints do not overlap, each task's share is the integral of `min(1000, nr_milli_cpus /
load)` over the time that it was runnable, the newest sample being the tasks that are runnable
now, and the shares of all tasks are together no more than `nr_milli_cpus` for the time between
the first update and the last. -/
theorem shares_are_exact [Nonempty Core]
    (reachable : ((schedfair Core Pid nrMilliCpus).restrict OneAtATime).Reachable system)
    (idle : ∀ core, system.cpus core = .idle) :
    (∀ pid, system.memory.share pid =
      integral Sample.time (Sample.rateOf nrMilliCpus pid) system.memory.samples) ∧
    (∀ pid, lastRunnable system.memory.samples pid = (system.memory.info pid).loadTracked) ∧
    ∀ first last, system.memory.samples.getLast? = some first →
      system.memory.samples.head? = some last →
      ∑ pid, system.memory.share pid + nrMilliCpus.toNat * first.time ≤
        nrMilliCpus.toNat * last.time := by
  have sole := sole_of_reachable reachable
  obtain ⟨posting, updates⟩ := posting_and_updates reachable.of_restrict
  have shares := sole.share updates idle
  refine ⟨shares, fun pid => ?_, fun first last isFirst isLast => ?_⟩
  · obtain ⟨core, -, exactly⟩ := sole
    rw [idle core] at exactly
    rw [exactly.sampled rfl]
    apply posting.posted
    intro other between
    rw [idle other] at between
    exact between
  · rw [Finset.sum_congr rfl fun pid _ => shares pid]
    exact sum_fairShare_add_le updates.counts.clocked isFirst isLast

end Exact

/-- One task wakes up, another one a millisecond later, and the first one blocks after two more. -/
def shortHistory : List (Action Bool Bool) :=
  .trace false (.schedWakeup (niceTask false)) :: List.replicate 14 (Action.access false) ++
    Action.tick 1000000 :: Action.trace false (.schedWakeup (niceTask true)) ::
      List.replicate 17 (Action.access false) ++
    Action.tick 2000000 ::
      Action.trace false (.schedSwitch false ⟨false, 0, 1, 120⟩ ⟨true, 2, 0, 120⟩) ::
      List.replicate 18 (Action.access false)

/-- On one CPU the two tasks share three milliseconds. -/
theorem shares_are_exact_shortHistory :
    ∃ system, ((schedfair Bool Bool 1000).restrict OneAtATime).Reachable system ∧
      (∀ core, system.cpus core = .idle) ∧
      system.memory.share false = 2000000 ∧ system.memory.share true = 1000000 ∧
      ∀ pid, integral Sample.time (Sample.rateOf 1000 pid) system.memory.samples =
        system.memory.share pid := by
  let perform : System Bool Bool → Action Bool Bool → Option (System Bool Bool) :=
    fun system action => if OneAtATime system action then system.perform 1000 action else none
  have performed : ∀ system action next, perform system action = some next →
      ((schedfair Bool Bool 1000).restrict OneAtATime).step system action next := by
    intro system action next outcome
    obtain ⟨allowed, moved⟩ := Option.ite_none_right_eq_some.mp outcome
    exact ⟨allowed, System.step_of_perform moved⟩
  have passed : (shortHistory.foldlM perform booted).any (fun system =>
      decide (∀ core, system.cpus core = .idle) && decide (system.memory.share false = 2000000) &&
        decide (system.memory.share true = 1000000)) = true := by decide +kernel
  obtain ⟨system, run, holds⟩ := Machine.Run.exists_of_any performed passed
  simp only [Bool.and_eq_true, decide_eq_true_eq] at holds
  have reachable : ((schedfair Bool Bool 1000).restrict OneAtATime).Reachable system :=
    ⟨booted, shortHistory, booted_initial, run⟩
  refine ⟨system, reachable, holds.1.1, holds.1.2, holds.2, fun pid => ?_⟩
  exact ((shares_are_exact reachable holds.1.1).1 pid).symm

end Ghost.Schedfair
