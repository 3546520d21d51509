import Ghost.O1.Invariant

/-!
# Discovered tasks

`DiscoverTasks` scans the status words that an earlier agent left behind, and
synthesizes the `MSG_TASK_NEW` of each task on its stack. What the stack held
before is an input: a field that is not assigned keeps it.
-/

set_option autoImplicit false

namespace Ghost.O1

open Lib

structure GhostSwInfo where
  id : UInt32
  index : UInt32
  deriving DecidableEq, Repr

structure GhostMsg where
  type : UInt16
  length : UInt16
  seqnum : UInt32
  deriving DecidableEq, Repr

structure GhostMsgPayloadTaskNew where
  gtid : UInt64
  parentGtid : UInt64
  runtime : UInt64
  runnable : UInt16
  nice : Int32
  swInfo : GhostSwInfo
  agentData : UInt64
  deriving DecidableEq, Repr

/-- A message with its payload, as it lies on the stack. -/
structure Synth where
  header : GhostMsg
  payload : GhostMsgPayloadTaskNew
  deriving DecidableEq, Repr

def msgTaskNew : UInt16 := 67

/-- The header and the payload of the latest ABI, in bytes. -/
def sizeofSynth : UInt16 := 56

/-- The fields of a status word that a scan copies. -/
structure StatusWord where
  barrier : UInt32
  flags : UInt32
  gtid : UInt64
  runtime : UInt64
  deriving DecidableEq, Repr

def ghostSwFCanfree : UInt32 := (1 : UInt32) <<< 1

def ghostSwTaskRunnable : UInt32 := (1 : UInt32) <<< 17

/-- How the kernel answers the association with the default queue. -/
inductive Association where
  | enoent
  | estale
  | failed
  | associated (already brandNew : Bool)

/-- One reading of the status word, with the association that follows it. -/
structure Scan where
  sw : StatusWord
  association : Association

/-- The assignments of `DiscoverTasks` to the message on its stack. -/
def synthesize (stack : Synth) (sw : StatusWord) (swi : GhostSwInfo) : Synth where
  header := { type := msgTaskNew, length := sizeofSynth, seqnum := sw.barrier }
  payload :=
    { stack.payload with
      gtid := sw.gtid
      runtime := sw.runtime
      runnable := if sw.flags &&& ghostSwTaskRunnable ≠ 0 then 1 else 0
      swInfo := swi }

namespace O1Scheduler

variable (scheduler : O1Scheduler) (cpus : List CpuId) (ptr : TaskPtr)

/-- The allocation of the task and the call of `TaskNew`, for a message. -/
def announce (msg : Synth) (associated : Bool) : Except Fault O1Scheduler :=
  (scheduler.put ptr { gtid := msg.payload.gtid.toNat }).taskNew cpus ptr msg.header.seqnum.toNat
    msg.payload.nice.toInt (msg.payload.runnable ≠ 0) associated

/-- One pass over a status word; `retry` is the next one. `GHOST_ERROR` ends the agent.
A task that is gone (ENOENT) is allocated only to be freed again, and one that is
associated already or brand new has its messages still to come. -/
def discoverScan (swi : GhostSwInfo) (stack : Synth) (associated hadEstale : Bool) (scan : Scan)
    (retry : Except Fault O1Scheduler) : Except Fault O1Scheduler :=
  match scan.association with
  | .enoent =>
      match scheduler.heap.tasks ptr with
      | some _ => .error .check
      | none => .ok scheduler
  | .estale =>
      if scan.sw.flags &&& ghostSwFCanfree ≠ 0 then .ok scheduler
      else if hadEstale then .error .check
      else retry
  | .failed => .error .check
  | .associated already brandNew =>
      if already || brandNew then .ok scheduler
      else
        match scheduler.heap.tasks ptr with
        | some _ => .error .check
        | none => scheduler.announce cpus ptr (synthesize stack scan.sw swi) associated

/-- The body of the loop over all status words, which reads one at most twice. -/
def discoverTask (swi : GhostSwInfo) (stack : Synth) (associated : Bool) (first second : Scan) :
    Except Fault O1Scheduler :=
  scheduler.discoverScan cpus ptr swi stack associated false first
    (scheduler.discoverScan cpus ptr swi stack associated true second (.error .check))

end O1Scheduler

/-! ## The task that `TaskNew` builds -/

/-- The task once `TaskNew` has read the message, before it is placed. -/
def announced (msg : Synth) : O1Task :=
  { gtid := msg.payload.gtid.toNat
    seqnum := msg.header.seqnum.toNat
    staticPriority := 120 + msg.payload.nice.toInt
    runState := if msg.payload.runnable ≠ 0 then .kRunnable else .kBlocked
    remainingTime := timeSlice }

structure O1Task.WellFormed (task : O1Task) : Prop where
  priority : 100 ≤ task.staticPriority ∧ task.staticPriority ≤ 139
  pushes : ∀ (array : PrioArray) (ptr : TaskPtr) (front : Bool),
    ∃ array', array.push ptr task front = .ok array'

/-- The scheduler that has stored that task. -/
def O1Scheduler.arrived (scheduler : O1Scheduler) (ptr : TaskPtr) (msg : Synth) : O1Scheduler :=
  scheduler.setHeap
    ((scheduler.heap.put ptr { gtid := msg.payload.gtid.toNat }).putGranted ptr (announced msg))

theorem arrived_tasks (scheduler : O1Scheduler) (ptr : TaskPtr) (msg : Synth) :
    (scheduler.arrived ptr msg).heap.tasks =
      Function.update scheduler.heap.tasks ptr (some (announced msg)) := by
  simp [O1Scheduler.arrived, announced, O1Task.setRemainingTime]

/-- The handler stores the task, and then places it if it is runnable. -/
theorem announce_eq (scheduler : O1Scheduler) (cpus : List CpuId) (ptr : TaskPtr) (msg : Synth)
    (associated : Bool) : scheduler.announce cpus ptr msg associated =
      if msg.payload.runnable ≠ 0 then do
        let (cpu, scheduler) ← (scheduler.arrived ptr msg).assignCpu cpus
        scheduler.migrate ptr cpu msg.header.seqnum.toNat associated
      else .ok (scheduler.arrived ptr msg) := by
  have read : (scheduler.put ptr { gtid := msg.payload.gtid.toNat }).heap.read ptr = .ok _ :=
    Heap.read_eq_ok.mpr (Function.update_self ..)
  unfold O1Scheduler.announce O1Scheduler.taskNew O1Scheduler.arrived announced
  rw [read]
  by_cases runnable : msg.payload.runnable ≠ 0
  · rw [decide_eq_true runnable, if_pos runnable, if_pos runnable]
    rfl
  · rw [decide_eq_false runnable, if_neg runnable, if_neg runnable]
    rfl

/-- So does the discovery of a task that is associated anew. -/
theorem discoverTask_eq {scheduler : O1Scheduler} {ptr : TaskPtr}
    (fresh : scheduler.heap.tasks ptr = none) (cpus : List CpuId) (swi : GhostSwInfo)
    (stack : Synth) (associated : Bool) (sw : StatusWord) (second : Scan) :
    scheduler.discoverTask cpus ptr swi stack associated ⟨sw, .associated false false⟩ second =
      scheduler.announce cpus ptr (synthesize stack sw swi) associated := by
  simp [O1Scheduler.discoverTask, O1Scheduler.discoverScan, fresh]

theorem wellFormed_iff {task : O1Task} :
    task.WellFormed ↔ 100 ≤ task.staticPriority ∧ task.staticPriority ≤ 139 := by
  constructor
  · intro wellFormed
    exact wellFormed.priority
  · intro priority
    refine ⟨priority, ?_⟩
    intro array ptr front
    have bound : (task.staticPriority - kBasePrio).toNat < kNumPrio := by
      unfold kBasePrio kNumPrio
      omega
    refine ⟨_, PrioArray.push_eq_ok.mpr ⟨⟨_, bound⟩, ?_, rfl⟩⟩
    simp only [kBasePrio]
    omega

theorem announced_wellFormed_iff {msg : Synth} : (announced msg).WellFormed ↔
    -20 ≤ msg.payload.nice.toInt ∧ msg.payload.nice.toInt ≤ 19 := by
  rw [wellFormed_iff]
  simp only [announced]
  omega

/-- Of the message, only the nice value depends on the stack. -/
theorem announced_synthesize_eq_iff {sw : StatusWord} {swi : GhostSwInfo} {stack stack' : Synth} :
    announced (synthesize stack sw swi) = announced (synthesize stack' sw swi) ↔
      stack.payload.nice = stack'.payload.nice := by
  constructor
  · intro same
    have priority := congrArg O1Task.staticPriority same
    simp only [announced, synthesize] at priority
    exact Int32.toInt_inj.mp (by omega)
  · intro same
    unfold announced synthesize
    dsimp only
    rw [same]

/-- What becomes of a discovered task is decided by what the stack held in the place
of the nice value: discovery announces the task, `TaskNew` stores it before it
places it, and what is stored depends on the stack in nothing else. -/
theorem discovered_wellFormed_iff_nice {scheduler : O1Scheduler} {ptr : TaskPtr}
    (fresh : scheduler.heap.tasks ptr = none) (cpus : List CpuId) (swi : GhostSwInfo)
    (associated : Bool) (sw : StatusWord) (second : Scan) (stack stack' msg : Synth) :
    scheduler.discoverTask cpus ptr swi stack associated ⟨sw, .associated false false⟩ second =
      scheduler.announce cpus ptr (synthesize stack sw swi) associated ∧
    (scheduler.arrived ptr msg).heap.tasks ptr = some (announced msg) ∧
    (scheduler.announce cpus ptr msg associated =
      if msg.payload.runnable ≠ 0 then do
        let (cpu, scheduler) ← (scheduler.arrived ptr msg).assignCpu cpus
        scheduler.migrate ptr cpu msg.header.seqnum.toNat associated
      else .ok (scheduler.arrived ptr msg)) ∧
    (announced (synthesize stack sw swi) = announced (synthesize stack' sw swi) ∧
        (announced (synthesize stack sw swi)).WellFormed ∧
        (announced (synthesize stack' sw swi)).WellFormed ↔
      stack.payload.nice = stack'.payload.nice ∧
        -20 ≤ stack.payload.nice.toInt ∧ stack.payload.nice.toInt ≤ 19) ∧
    ((announced msg).WellFormed ↔
      -20 ≤ msg.payload.nice.toInt ∧ msg.payload.nice.toInt ≤ 19) := by
  refine ⟨discoverTask_eq fresh cpus swi stack associated sw second, ?_,
    announce_eq scheduler cpus ptr msg associated, ?_, announced_wellFormed_iff⟩
  · rw [arrived_tasks, Function.update_self]
  · rw [announced_synthesize_eq_iff, announced_wellFormed_iff, announced_wellFormed_iff]
    simp only [synthesize]
    constructor
    · intro found
      obtain ⟨same, valid, -⟩ := found
      exact ⟨same, valid⟩
    · intro found
      obtain ⟨same, valid⟩ := found
      exact ⟨same, valid, same ▸ valid⟩

/-- A stack that holds this nice value, and otherwise zeroes. -/
def stackWith (nice : Int32) : Synth where
  header := { type := 0, length := 0, seqnum := 0 }
  payload :=
    { gtid := 0, parentGtid := 0, runtime := 0, runnable := 0, nice := nice,
      swInfo := { id := 0, index := 0 }, agentData := 0 }

/-- A runnable task. -/
def runnableWord : StatusWord := { barrier := 7, flags := 0x20000, gtid := 101, runtime := 0 }

theorem discovered_wellFormed_iff_nice_zero :
    (announced (synthesize (stackWith 0) runnableWord ⟨0, 1⟩)).WellFormed := by
  have fresh : (O1Scheduler.init [firstCpu]).heap.tasks 1 = none := rfl
  obtain ⟨-, -, -, valid, -⟩ := discovered_wellFormed_iff_nice fresh [firstCpu] ⟨0, 1⟩ true
    runnableWord ⟨runnableWord, .failed⟩ (stackWith 0) (stackWith 0) (stackWith 0)
  exact (valid.mpr ⟨rfl, by decide, by decide⟩).2.1

/-- One status word, three stacks: two priorities, and an agent that is gone. -/
theorem discovered_by_stack :
    (announced (synthesize (stackWith 0) runnableWord ⟨0, 1⟩)).staticPriority = 120 ∧
    (announced (synthesize (stackWith 5) runnableWord ⟨0, 1⟩)).staticPriority = 125 ∧
    ¬(announced (synthesize (stackWith 20) runnableWord ⟨0, 1⟩)).WellFormed ∧
    (O1Scheduler.init [firstCpu]).discoverTask [firstCpu] 1 ⟨0, 1⟩ (stackWith 20) true
      ⟨runnableWord, .associated false false⟩ ⟨runnableWord, .failed⟩ = .error .check := by
  refine ⟨by decide, by decide, ?_, ?_⟩
  · rw [announced_wellFormed_iff]
    decide
  · rw [discoverTask_eq rfl]
    rfl

end Ghost.O1
