import Ghost.Lib.Machine
import Ghost.Lib.StepIntegral
import Ghost.Lib.Tally

/-!
# Fair shares

The programs of `schedfair.bpf.c`, access by access, on any number of CPUs. Load changes are
posted to `delta_load`, and whichever CPU takes `in_progress` applies them to `current_load`
and to `accum_fair_share`. The accesses are sequentially consistent.
-/

set_option autoImplicit false

namespace Ghost.Schedfair

open Lib

/-- `struct task_info`. -/
structure TaskInfo where
  loadTracked : Bool
  userPrio : Int
  shareAtWake : BitVec 64
  ranAt : BitVec 64
  cpuRuntimeSinceWake : BitVec 64
  totalCpuRuntime : BitVec 64
  totalCpuShare : BitVec 64
  deriving DecidableEq

def TaskInfo.fresh : TaskInfo := ⟨false, 0, 0, 0, 0, 0, 0⟩

/-- What the programs read of a `struct task_struct`. -/
structure TaskStruct (Pid : Type) where
  pid : Pid
  flags : BitVec 32
  state : Int
  staticPrio : Int
  deriving DecidableEq

def maxPids : Nat := 102400
def maxRtPrio : Int := 100
def pfIdle : BitVec 32 := 0x2
def taskRunning : Int := 0

/-- The load changes of one weight are of one. -/
def tiWeight : BitVec 64 := 1

section Tasks

variable {Pid : Type}

def taskIsIdle (p : TaskStruct Pid) : Bool := p.flags &&& pfIdle != 0

def taskUserPrio (p : TaskStruct Pid) : Int := p.staticPrio - maxRtPrio

/-- The calls that a tracepoint makes, one after the other. -/
inductive Call (Pid : Type) where
  | taskWakeup (p : TaskStruct Pid)
  | taskRun (p : TaskStruct Pid)
  | taskStop (p : TaskStruct Pid)
  | taskBlock (p : TaskStruct Pid)
  deriving DecidableEq

def Call.task : Call Pid → TaskStruct Pid
  | .taskWakeup p | .taskRun p | .taskStop p | .taskBlock p => p

inductive Tracepoint (Pid : Type) where
  /-- Also `sched_wakeup_new`, which has the same body. -/
  | schedWakeup (p : TaskStruct Pid)
  | schedSwitch (preempt : Bool) (prev next : TaskStruct Pid)

def Tracepoint.calls : Tracepoint Pid → List (Call Pid)
  | .schedWakeup p => if taskIsIdle p then [] else [.taskWakeup p]
  | .schedSwitch preempt prev next =>
      (if taskIsIdle prev then []
        else if !preempt && prev.state != taskRunning then [.taskStop prev, .taskBlock prev]
        else [.taskStop prev]) ++
      (if taskIsIdle next then [] else [.taskWakeup next, .taskRun next])

end Tasks

/-! ## Updates of the fair share -/

/-- The variables that all CPUs share. -/
structure Globals where
  accumFairShare : BitVec 64
  lastUpdateTime : BitVec 64
  currentLoad : BitVec 64
  deltaLoad : BitVec 64
  inProgress : Bool
  deriving DecidableEq

/-- Where a CPU stands in `poke_update_accum`, by the access that comes next. `i` counts the
rounds of the loop, and what `__update_accum` has in registers follows. -/
inductive PokePc where
  | readProgress
  | exchangeProgress
  | clock (i : Nat)
  | snarf (i : Nat) (now : BitVec 64)
  | readLast (i : Nat) (now snarfed : BitVec 64)
  | readLoad (i : Nat) (now snarfed last : BitVec 64)
  | readAccum (i : Nat) (now snarfed growth : BitVec 64)
  | writeAccum (i : Nat) (now snarfed accum : BitVec 64)
  | writeLast (i : Nat) (now snarfed : BitVec 64)
  | addLoad (i : Nat) (snarfed : BitVec 64)
  | writeLoad (i : Nat) (load : BitVec 64)
  /-- The test for a negative load. -/
  | test (i : Nat)
  | clamp (i : Nat)
  | readDelta (i : Nat)
  | release
  deriving DecidableEq

/-- `f_t`, in thousandths of a CPU. -/
def fairRate (nrMilliCpus : BitVec 32) (load : BitVec 64) : BitVec 64 :=
  let share := nrMilliCpus.setWidth 64 / load
  if 1000 < share then 1000 else share

/-- One access of `poke_update_accum`, with `none` where it returns. -/
def pokeUpdateAccum (nrMilliCpus : BitVec 32) (ktime : BitVec 64) (globals : Globals) :
    PokePc → Globals × Option PokePc
  | .readProgress => (globals, if globals.inProgress then none else some .exchangeProgress)
  | .exchangeProgress =>
      ({ globals with inProgress := true }, if globals.inProgress then none else some (.clock 0))
  | .clock i => (globals, some (.snarf i ktime))
  | .snarf i now => ({ globals with deltaLoad := 0 }, some (.readLast i now globals.deltaLoad))
  | .readLast i now snarfed =>
      (globals, some (if globals.lastUpdateTime = 0 then .writeLast i now snarfed
        else .readLoad i now snarfed globals.lastUpdateTime))
  | .readLoad i now snarfed last =>
      (globals, some (if globals.currentLoad = 0 then .writeLast i now snarfed
        else .readAccum i now snarfed (fairRate nrMilliCpus globals.currentLoad * (now - last))))
  | .readAccum i now snarfed growth =>
      (globals, some (.writeAccum i now snarfed (globals.accumFairShare + growth)))
  | .writeAccum i now snarfed accum =>
      ({ globals with accumFairShare := accum }, some (.writeLast i now snarfed))
  | .writeLast i now snarfed =>
      ({ globals with lastUpdateTime := now }, some (.addLoad i snarfed))
  | .addLoad i snarfed => (globals, some (.writeLoad i (globals.currentLoad + snarfed)))
  | .writeLoad i load => ({ globals with currentLoad := load }, some (.test i))
  | .test i => (globals, some (if globals.currentLoad.slt 0 then .clamp i else .readDelta i))
  | .clamp i => ({ globals with currentLoad := 0 }, some (.readDelta i))
  | .readDelta i =>
      (globals, some (if globals.deltaLoad = 0 then .release
        else if i + 1 < 4 then .clock (i + 1) else .release))
  | .release => ({ globals with inProgress := false }, none)

/-! ## Tasks -/

/-- Where a CPU stands in the calls of its tracepoint. -/
inductive Pc (Pid : Type) where
  /-- The next call starts, or there is none. -/
  | ready
  /-- `load_tracked` is set or cleared, and the change of the load comes next. -/
  | post (p : TaskStruct Pid) (runnable : Bool)
  | poke (p : TaskStruct Pid) (runnable : Bool) (pc : PokePc)
  /-- The read of `accum_fair_share` at the end of `task_wakeup` or `task_block`. -/
  | collect (p : TaskStruct Pid) (runnable : Bool)
  /-- The atomic add of `account_wake_to_block`. -/
  | account (p : TaskStruct Pid) (idx : BitVec 32)
  deriving DecidableEq

def Pc.task {Pid : Type} : Pc Pid → Option (TaskStruct Pid)
  | .ready => none
  | .post p _ | .poke p _ _ | .collect p _ | .account p _ => some p

structure Cpu (Pid : Type) where
  pc : Pc Pid
  todo : List (Call Pid)
  deriving DecidableEq

def Cpu.idle {Pid : Type} : Cpu Pid := ⟨.ready, []⟩

/-- The tasks that a CPU is about to work on or works on. -/
def Cpu.Concerns {Pid : Type} (cpu : Cpu Pid) (pid : Pid) : Prop :=
  (∃ p ∈ cpu.pc.task, p.pid = pid) ∨ ∃ call ∈ cpu.todo, call.task.pid = pid

instance {Pid : Type} [DecidableEq Pid] (cpu : Cpu Pid) (pid : Pid) :
    Decidable (cpu.Concerns pid) :=
  inferInstanceAs (Decidable (_ ∨ _))

/-- The runnable tasks as they are when an updater takes `delta_load`. -/
structure Sample (Pid : Type) where
  time : Nat
  runnable : Pid → Bool

structure Memory (Pid : Type) where
  globals : Globals
  tasks : Pid → Option TaskInfo
  wtbFairPercentiles : BitVec 32 → BitVec 64
  /-- `bpf_ktime_get_ns()`. -/
  ktimeNs : Nat
  /-- Not in the code: the tasks whose load is in `current_load` or on its way there. -/
  posted : Pid → Bool
  /-- Not in the code: one sample for each update, newest first. -/
  samples : List (Sample Pid)

section Programs

variable {Pid : Type} [Fintype Pid] [DecidableEq Pid]

def Memory.ktimeUs (memory : Memory Pid) : Nat := memory.ktimeNs / 1000

def Memory.tick (memory : Memory Pid) (elapsed : Nat) : Memory Pid :=
  { memory with ktimeNs := memory.ktimeNs + elapsed }

def Memory.bpfKtimeGetUs (memory : Memory Pid) : BitVec 64 := BitVec.ofNat 64 memory.ktimeUs

def Memory.setTaskInfo (memory : Memory Pid) (pid : Pid) (ti : TaskInfo) : Memory Pid :=
  { memory with tasks := Function.update memory.tasks pid (some ti) }

/-- The map after `get_task_info`, which returns what it finds there. The map may be full. -/
def Memory.getTaskInfo (memory : Memory Pid) (pid : Pid) : Memory Pid :=
  if memory.tasks pid = none ∧ tally (fun known => memory.tasks known ≠ none) < maxPids then
    memory.setTaskInfo pid .fresh
  else memory

def Memory.taskWakeup (memory : Memory Pid) (p : TaskStruct Pid) : Memory Pid × Pc Pid :=
  let found := memory.getTaskInfo p.pid
  match found.tasks p.pid with
  | none => (found, .ready)
  | some ti =>
      if ti.loadTracked then (found, .ready)
      else (found.setTaskInfo p.pid { ti with loadTracked := true }, .post p true)

def Memory.taskRun (memory : Memory Pid) (p : TaskStruct Pid) : Memory Pid × Pc Pid :=
  let found := memory.getTaskInfo p.pid
  match found.tasks p.pid with
  | none => (found, .ready)
  | some ti => (found.setTaskInfo p.pid { ti with ranAt := memory.bpfKtimeGetUs }, .ready)

def Memory.taskStop (memory : Memory Pid) (p : TaskStruct Pid) : Memory Pid × Pc Pid :=
  let found := memory.getTaskInfo p.pid
  match found.tasks p.pid with
  | none => (found, .ready)
  | some ti =>
      if ti.ranAt = 0 then (found, .ready)
      else
        let cpuRuntime := 1000 * (memory.bpfKtimeGetUs - ti.ranAt)
        (found.setTaskInfo p.pid { ti with
          cpuRuntimeSinceWake := ti.cpuRuntimeSinceWake + cpuRuntime
          totalCpuRuntime := ti.totalCpuRuntime + cpuRuntime }, .ready)

def Memory.taskBlock (memory : Memory Pid) (p : TaskStruct Pid) : Memory Pid × Pc Pid :=
  let found := memory.getTaskInfo p.pid
  match found.tasks p.pid with
  | none => (found, .ready)
  | some ti =>
      if ti.loadTracked then
        (found.setTaskInfo p.pid { ti with loadTracked := false }, .post p false)
      else (found, .ready)

def Memory.start (memory : Memory Pid) : Call Pid → Memory Pid × Pc Pid
  | .taskWakeup p => memory.taskWakeup p
  | .taskRun p => memory.taskRun p
  | .taskStop p => memory.taskStop p
  | .taskBlock p => memory.taskBlock p

/-- The atomic add to `delta_load` in `task_wakeup`, the subtraction in `task_block`. -/
def Memory.post (memory : Memory Pid) (pid : Pid) (runnable : Bool) : Memory Pid :=
  { memory with
    globals := { memory.globals with
      deltaLoad := if runnable then memory.globals.deltaLoad + tiWeight
        else memory.globals.deltaLoad - tiWeight }
    posted := Function.update memory.posted pid runnable }

def PokePc.snarfs : PokePc → Option (BitVec 64)
  | .snarf _ now => some now
  | _ => none

/-- An update samples the runnable tasks when it takes `delta_load`. -/
def Memory.sampled (memory : Memory Pid) (pc : PokePc) : List (Sample Pid) :=
  match pc.snarfs with
  | some now => ⟨now.toNat, memory.posted⟩ :: memory.samples
  | none => memory.samples

def Memory.poke (nrMilliCpus : BitVec 32) (memory : Memory Pid) (pc : PokePc) : Memory Pid :=
  { memory with
    globals := (pokeUpdateAccum nrMilliCpus memory.bpfKtimeGetUs memory.globals pc).1
    samples := memory.sampled pc }

/-- The bin of `account_wake_to_block`. -/
def binIdx (userPrio : Int) (cpuRuntime cpuShare : BitVec 64) : BitVec 32 :=
  let ratio := 10 * cpuRuntime / cpuShare
  let fairness := if 19 < ratio then 19 else ratio
  BitVec.ofInt 32 (userPrio * 20 + fairness.toNat)

def Memory.collect (memory : Memory Pid) (p : TaskStruct Pid) (runnable : Bool) :
    Memory Pid × Pc Pid :=
  match memory.tasks p.pid with
  | none => (memory, .ready)
  | some ti =>
      if runnable then
        (memory.setTaskInfo p.pid { ti with
          shareAtWake := memory.globals.accumFairShare
          cpuRuntimeSinceWake := 0
          userPrio := taskUserPrio p }, .ready)
      else
        let cpuShare := memory.globals.accumFairShare - ti.shareAtWake
        (memory.setTaskInfo p.pid { ti with totalCpuShare := ti.totalCpuShare + cpuShare },
          if cpuShare ≠ 0 ∧ ti.cpuRuntimeSinceWake ≠ 0 then
            .account p (binIdx ti.userPrio ti.cpuRuntimeSinceWake cpuShare)
          else .ready)

def Memory.account (memory : Memory Pid) (idx : BitVec 32) : Memory Pid :=
  if idx.toNat < 40 * 20 then
    { memory with
      wtbFairPercentiles := Function.update memory.wtbFairPercentiles idx
        (memory.wtbFairPercentiles idx + 1) }
  else memory

/-- Where a CPU goes on after an access of `poke_update_accum`. -/
def afterPoke (p : TaskStruct Pid) (runnable : Bool) : Option PokePc → Pc Pid
  | some pc => .poke p runnable pc
  | none => .collect p runnable

/-- The next access of a CPU. -/
def Cpu.access (nrMilliCpus : BitVec 32) (memory : Memory Pid) (cpu : Cpu Pid) :
    Option (Memory Pid × Cpu Pid) :=
  match cpu.pc with
  | .ready =>
      match cpu.todo with
      | [] => none
      | call :: todo => some ((memory.start call).1, ⟨(memory.start call).2, todo⟩)
  | .post p runnable =>
      some (memory.post p.pid runnable, ⟨.poke p runnable .readProgress, cpu.todo⟩)
  | .poke p runnable pc =>
      some (memory.poke nrMilliCpus pc,
        ⟨afterPoke p runnable
          (pokeUpdateAccum nrMilliCpus memory.bpfKtimeGetUs memory.globals pc).2, cpu.todo⟩)
  | .collect p runnable =>
      some ((memory.collect p runnable).1, ⟨(memory.collect p runnable).2, cpu.todo⟩)
  | .account _ idx => some (memory.account idx, ⟨.ready, cpu.todo⟩)

end Programs

/-! ## Interleavings -/

structure System (Core Pid : Type) where
  memory : Memory Pid
  cpus : Core → Cpu Pid

inductive Action (Core Pid : Type) where
  | trace (core : Core) (tracepoint : Tracepoint Pid)
  | access (core : Core)
  | tick (elapsed : Nat)

section Machine

variable {Core Pid : Type} [DecidableEq Core] [Fintype Pid] [DecidableEq Pid]

def System.setCpu (system : System Core Pid) (memory : Memory Pid) (core : Core) (cpu : Cpu Pid) :
    System Core Pid :=
  ⟨memory, Function.update system.cpus core cpu⟩

omit [Fintype Pid] [DecidableEq Pid] in
theorem System.setCpu_self (system : System Core Pid) (memory : Memory Pid) (core : Core)
    (cpu : Cpu Pid) : (system.setCpu memory core cpu).cpus core = cpu := Function.update_self ..

omit [Fintype Pid] [DecidableEq Pid] in
theorem System.setCpu_of_ne (system : System Core Pid) (memory : Memory Pid) {core other : Core}
    (cpu : Cpu Pid) (different : other ≠ core) :
    (system.setCpu memory core cpu).cpus other = system.cpus other :=
  Function.update_of_ne different _ _

/-- A tracepoint runs with the run queue lock of its tasks held, so that no other CPU
works on them. The clock counts nanoseconds in a `u64`. -/
inductive System.Step (nrMilliCpus : BitVec 32) (system : System Core Pid) :
    Action Core Pid → System Core Pid → Prop
  | trace {core : Core} {tracepoint : Tracepoint Pid} :
      (system.cpus core).pc = .ready → (system.cpus core).todo = [] →
      (∀ call ∈ tracepoint.calls, ∀ other, ¬ (system.cpus other).Concerns call.task.pid) →
      System.Step nrMilliCpus system (.trace core tracepoint)
        (system.setCpu system.memory core ⟨.ready, tracepoint.calls⟩)
  | access {core : Core} {effect : Memory Pid × Cpu Pid} :
      (system.cpus core).access nrMilliCpus system.memory = some effect →
      System.Step nrMilliCpus system (.access core) (system.setCpu effect.1 core effect.2)
  | tick {elapsed : Nat} :
      system.memory.ktimeNs + elapsed < 2 ^ 64 →
      System.Step nrMilliCpus system (.tick elapsed) ⟨system.memory.tick elapsed, system.cpus⟩

/-- Before the first tracepoint. -/
structure System.Initial (system : System Core Pid) : Prop where
  globals : system.memory.globals = ⟨0, 0, 0, 0, false⟩
  tasks : system.memory.tasks = fun _ => none
  percentiles : system.memory.wtbFairPercentiles = fun _ => 0
  ktime : system.memory.ktimeNs < 2 ^ 64
  posted : system.memory.posted = fun _ => false
  samples : system.memory.samples = []
  cpus : ∀ core, system.cpus core = .idle

def schedfair (Core Pid : Type) [DecidableEq Core] [Fintype Pid] [DecidableEq Pid]
    (nrMilliCpus : BitVec 32) : Machine (System Core Pid) (Action Core Pid) where
  initial := System.Initial
  step system action next := system.Step nrMilliCpus action next

/-- The same steps as a function, for a given number of CPUs. -/
def System.perform [Fintype Core] (nrMilliCpus : BitVec 32) (system : System Core Pid) :
    Action Core Pid → Option (System Core Pid)
  | .trace core tracepoint =>
      if (system.cpus core).pc = .ready ∧ (system.cpus core).todo = [] ∧
          ∀ call ∈ tracepoint.calls, ∀ other, ¬(system.cpus other).Concerns call.task.pid then
        some (system.setCpu system.memory core ⟨.ready, tracepoint.calls⟩)
      else none
  | .access core =>
      ((system.cpus core).access nrMilliCpus system.memory).map fun effect =>
        system.setCpu effect.1 core effect.2
  | .tick elapsed =>
      if system.memory.ktimeNs + elapsed < 2 ^ 64 then
        some ⟨system.memory.tick elapsed, system.cpus⟩
      else none

theorem System.step_of_perform [Fintype Core] {nrMilliCpus : BitVec 32}
    {system next : System Core Pid} {action : Action Core Pid}
    (performed : system.perform nrMilliCpus action = some next) :
    system.Step nrMilliCpus action next := by
  cases action with
  | trace core tracepoint =>
      obtain ⟨⟨isReady, idle, serial⟩, same⟩ := Option.ite_none_right_eq_some.mp performed
      cases same
      exact .trace isReady idle serial
  | access core =>
      obtain ⟨effect, accessed, rfl⟩ := Option.map_eq_some_iff.mp performed
      exact .access accessed
  | tick elapsed =>
      obtain ⟨fits, same⟩ := Option.ite_none_right_eq_some.mp performed
      cases same
      exact .tick fits

end Machine

end Ghost.Schedfair
