import Ghost.Schedfair.Programs

/-!
# What is posted

The calls of the tracepoints on the map of the tasks. In every interleaving a task is posted to
`delta_load` once when its flag is set and once when it is cleared.
-/

set_option autoImplicit false

namespace Ghost.Schedfair

open Lib

/-! ## What the calls do to a task -/

section Tasks

variable {Pid : Type} [Fintype Pid] [DecidableEq Pid] {memory : Memory Pid}

/-- What the map says about a task, which is that of a fresh one if it says nothing. -/
def Memory.info (memory : Memory Pid) (pid : Pid) : TaskInfo := (memory.tasks pid).getD .fresh

omit [Fintype Pid] in
private theorem Memory.setTaskInfo_info (pid : Pid) (ti : TaskInfo) :
    (memory.setTaskInfo pid ti).info = Function.update memory.info pid ti := by
  funext other
  by_cases same : other = pid
  · subst same
    simp [Memory.info, Memory.setTaskInfo]
  · simp [Memory.info, Memory.setTaskInfo, same]

private theorem Memory.getTaskInfo_info (pid : Pid) :
    (memory.getTaskInfo pid).info = memory.info := by
  unfold Memory.getTaskInfo
  split
  · next absent =>
      rw [Memory.setTaskInfo_info, Function.update_eq_self_iff]
      simp [Memory.info, absent.1]
  · rfl

private theorem Memory.getTaskInfo_some {pid : Pid} {ti : TaskInfo}
    (found : (memory.getTaskInfo pid).tasks pid = some ti) : ti = memory.info pid := by
  rw [← Memory.getTaskInfo_info pid, Memory.info, found]
  rfl

omit [Fintype Pid] [DecidableEq Pid] in
private theorem Memory.present_of_tracked {pid : Pid}
    (tracked : (memory.info pid).loadTracked = true) :
    memory.tasks pid ≠ none := by
  intro absent
  rw [Memory.info, absent] at tracked
  cases tracked

/-- Only the map of the tasks changes, and no task is forgotten. -/
structure Memory.Retains (memory next : Memory Pid) : Prop where
  eq : next = { memory with tasks := next.tasks }
  present : ∀ pid, memory.tasks pid ≠ none → next.tasks pid ≠ none
  room : tally (fun known => memory.tasks known ≠ none) ≤ maxPids →
    tally (fun known => next.tasks known ≠ none) ≤ maxPids

omit [DecidableEq Pid] in
private theorem Memory.Retains.refl : memory.Retains memory := ⟨rfl, fun _ => id, id⟩

omit [DecidableEq Pid] in
private theorem Memory.Retains.trans {middle next : Memory Pid} (first : memory.Retains middle)
    (second : middle.Retains next) : memory.Retains next := by
  refine ⟨?_, fun pid => second.present pid ∘ first.present pid, second.room ∘ first.room⟩
  rw [second.eq, first.eq]

private theorem Memory.setTaskInfo_retains {pid : Pid} (ti : TaskInfo)
    (present : memory.tasks pid ≠ none) :
    memory.Retains (memory.setTaskInfo pid ti) := by
  have same : ∀ other, (memory.setTaskInfo pid ti).tasks other ≠ none ↔
      memory.tasks other ≠ none := by
    intro other
    by_cases isPid : other = pid
    · subst isPid
      simp [Memory.setTaskInfo, present]
    · simp [Memory.setTaskInfo, isPid]
  exact ⟨rfl, fun other => (same other).mpr, fun room => (tally_congr same).trans_le room⟩

/-- `get_task_info` adds a task if there is room for it. -/
theorem Memory.getTaskInfo_retains (pid : Pid) : memory.Retains (memory.getTaskInfo pid) := by
  unfold Memory.getTaskInfo
  split
  · next absent =>
      have others : ∀ other, other ≠ pid →
          ((memory.setTaskInfo pid .fresh).tasks other ≠ none ↔ memory.tasks other ≠ none) := by
        intro other different
        simp [Memory.setTaskInfo, different]
      refine ⟨rfl, ?_, fun _ => ?_⟩
      · intro other present
        by_cases same : other = pid
        · simp [Memory.setTaskInfo, same]
        · exact (others other same).mpr present
      · have grown := tally_change others
        have before : unit (memory.tasks pid ≠ none) = 0 := unit_eq_zero.mpr (by simp [absent.1])
        have after : unit ((memory.setTaskInfo pid .fresh).tasks pid ≠ none) = 1 :=
          unit_true (by simp [Memory.setTaskInfo])
        have small := absent.2
        omega
  · exact .refl

/-- A task as the updater sees it. -/
def TaskInfo.SameShares (ti other : TaskInfo) : Prop :=
  other.loadTracked = ti.loadTracked ∧ other.shareAtWake = ti.shareAtWake ∧
    other.totalCpuShare = ti.totalCpuShare

/-- What a call leaves in the memory, and where it goes on. -/
structure Memory.Starts (memory : Memory Pid) (p : TaskStruct Pid)
    (effect : Memory Pid × Pc Pid) : Prop where
  retains : memory.Retains effect.1
  outcome : effect.2 = .ready ∧ (∀ pid, (memory.info pid).SameShares (effect.1.info pid)) ∨
    ∃ runnable, effect.2 = .post p runnable ∧
      (memory.info p.pid).loadTracked = !runnable ∧
      effect.1.info = Function.update memory.info p.pid
        { memory.info p.pid with loadTracked := runnable }

/-- Nothing happens to the load. -/
theorem Memory.Starts.found (p : TaskStruct Pid) :
    memory.Starts p (memory.getTaskInfo p.pid, .ready) := by
  refine ⟨Memory.getTaskInfo_retains p.pid, .inl ⟨rfl, ?_⟩⟩
  intro pid
  simp only [Memory.getTaskInfo_info]
  exact ⟨rfl, rfl, rfl⟩

private theorem Memory.Starts.changed {p : TaskStruct Pid} {ti ti' : TaskInfo}
    (found : (memory.getTaskInfo p.pid).tasks p.pid = some ti) (same : ti.SameShares ti') :
    memory.Starts p ((memory.getTaskInfo p.pid).setTaskInfo p.pid ti', .ready) := by
  refine ⟨(Memory.getTaskInfo_retains p.pid).trans (Memory.setTaskInfo_retains _ (by simp [found])),
    .inl ⟨rfl, ?_⟩⟩
  intro pid
  rw [Memory.setTaskInfo_info, Memory.getTaskInfo_info]
  by_cases isTask : pid = p.pid
  · subst isTask
    rw [Function.update_self, ← Memory.getTaskInfo_some found]
    exact same
  · rw [Function.update_of_ne isTask]
    exact ⟨rfl, rfl, rfl⟩

private theorem Memory.Starts.posts {p : TaskStruct Pid} {ti : TaskInfo} {runnable : Bool}
    (found : (memory.getTaskInfo p.pid).tasks p.pid = some ti)
    (tracked : ti.loadTracked = !runnable) :
    memory.Starts p
      ((memory.getTaskInfo p.pid).setTaskInfo p.pid { ti with loadTracked := runnable },
        .post p runnable) := by
  refine ⟨(Memory.getTaskInfo_retains p.pid).trans (Memory.setTaskInfo_retains _ (by simp [found])),
    .inr ⟨runnable, rfl, ?_, ?_⟩⟩
  · rw [← Memory.getTaskInfo_some found]
    exact tracked
  · rw [Memory.setTaskInfo_info, Memory.getTaskInfo_info, Memory.getTaskInfo_some found]

theorem Memory.start_starts (call : Call Pid) : memory.Starts call.task (memory.start call) := by
  cases call with
  | taskWakeup p =>
      simp only [Memory.start, Memory.taskWakeup]
      split
      · exact .found p
      · next ti found =>
          split
          · exact .found p
          · next untracked => exact .posts found (by simpa using untracked)
  | taskRun p =>
      simp only [Memory.start, Memory.taskRun]
      split
      · exact .found p
      · next ti found => exact .changed found ⟨rfl, rfl, rfl⟩
  | taskStop p =>
      simp only [Memory.start, Memory.taskStop]
      split
      · exact .found p
      · next ti found =>
          split
          · exact .found p
          · exact .changed found ⟨rfl, rfl, rfl⟩
  | taskBlock p =>
      simp only [Memory.start, Memory.taskBlock]
      split
      · exact .found p
      · next ti found =>
          split
          · next tracked => exact .posts found (by simpa using tracked)
          · exact .found p

theorem Memory.collect_retains (p : TaskStruct Pid) (runnable : Bool) :
    memory.Retains (memory.collect p runnable).1 := by
  unfold Memory.collect
  split
  · exact .refl
  · next ti found =>
      split <;> exact Memory.setTaskInfo_retains _ (by simp [found])

omit [Fintype Pid] in
/-- The end of a call, if the task is in the map. -/
theorem Memory.collect_info {p : TaskStruct Pid} (present : memory.tasks p.pid ≠ none)
    (runnable : Bool) :
    (memory.collect p runnable).1.info = Function.update memory.info p.pid
      (if runnable then { memory.info p.pid with
          shareAtWake := memory.globals.accumFairShare
          cpuRuntimeSinceWake := 0
          userPrio := taskUserPrio p }
        else { memory.info p.pid with
          totalCpuShare := (memory.info p.pid).totalCpuShare +
            (memory.globals.accumFairShare - (memory.info p.pid).shareAtWake) }) := by
  obtain ⟨ti, found⟩ := Option.ne_none_iff_exists'.mp present
  have isInfo : memory.info p.pid = ti := by simp [Memory.info, found]
  unfold Memory.collect
  rw [found, isInfo]
  cases runnable with
  | true => exact Memory.setTaskInfo_info _ _
  | false => exact Memory.setTaskInfo_info _ _

omit [Fintype Pid] in
theorem Memory.collect_pc (p : TaskStruct Pid) (runnable : Bool) :
    (memory.collect p runnable).2 = .ready ∨ ∃ idx, (memory.collect p runnable).2 = .account p idx := by
  unfold Memory.collect
  split
  · exact .inl rfl
  · split
    · exact .inl rfl
    · simp only
      split
      · exact .inr ⟨_, rfl⟩
      · exact .inl rfl

omit [Fintype Pid] [DecidableEq Pid] in
theorem Memory.account_eq (idx : BitVec 32) :
    memory.account idx =
      { memory with wtbFairPercentiles := (memory.account idx).wtbFairPercentiles } := by
  unfold Memory.account
  split <;> rfl

end Tasks

/-! ## What is posted -/

section Posting

variable {Core Pid : Type} [DecidableEq Core] [Fintype Pid] [DecidableEq Pid]
  {nrMilliCpus : BitVec 32} {memory : Memory Pid} {cpu : Cpu Pid}
  {system next : System Core Pid} {effect : Memory Pid × Cpu Pid}

/-- The accesses of a CPU, one constructor for each kind. -/
inductive Cpu.Accesses (nrMilliCpus : BitVec 32) (memory : Memory Pid) :
    Cpu Pid → Memory Pid → Cpu Pid → Prop
  | start (call : Call Pid) (todo : List (Call Pid)) :
      Accesses nrMilliCpus memory ⟨.ready, call :: todo⟩ (memory.start call).1
        ⟨(memory.start call).2, todo⟩
  | post (p : TaskStruct Pid) (runnable : Bool) (todo : List (Call Pid)) :
      Accesses nrMilliCpus memory ⟨.post p runnable, todo⟩ (memory.post p.pid runnable)
        ⟨.poke p runnable .readProgress, todo⟩
  | poke (p : TaskStruct Pid) (runnable : Bool) (pc : PokePc) (todo : List (Call Pid)) :
      Accesses nrMilliCpus memory ⟨.poke p runnable pc, todo⟩ (memory.poke nrMilliCpus pc)
        ⟨afterPoke p runnable
          (pokeUpdateAccum nrMilliCpus memory.bpfKtimeGetUs memory.globals pc).2, todo⟩
  | collect (p : TaskStruct Pid) (runnable : Bool) (todo : List (Call Pid)) :
      Accesses nrMilliCpus memory ⟨.collect p runnable, todo⟩ (memory.collect p runnable).1
        ⟨(memory.collect p runnable).2, todo⟩
  | account (p : TaskStruct Pid) (idx : BitVec 32) (todo : List (Call Pid)) :
      Accesses nrMilliCpus memory ⟨.account p idx, todo⟩ (memory.account idx) ⟨.ready, todo⟩

theorem Cpu.access_accesses (accessed : cpu.access nrMilliCpus memory = some effect) :
    Cpu.Accesses nrMilliCpus memory cpu effect.1 effect.2 := by
  obtain ⟨pc, todo⟩ := cpu
  cases pc with
  | ready =>
      cases todo with
      | nil => cases accessed
      | cons call todo =>
          cases accessed
          exact .start call todo
  | post p runnable =>
      cases accessed
      exact .post p runnable todo
  | poke p runnable pc =>
      cases accessed
      exact .poke p runnable pc todo
  | collect p runnable =>
      cases accessed
      exact .collect p runnable todo
  | account p idx =>
      cases accessed
      exact .account p idx todo

/-- The flag of a task says what its load does, except between the two accesses. -/
def Cpu.Posts (memory : Memory Pid) (cpu : Cpu Pid) : Prop :=
  match cpu.pc with
  | .post p runnable =>
      (memory.info p.pid).loadTracked = runnable ∧ memory.posted p.pid = !runnable ∧
        memory.tasks p.pid ≠ none
  | .poke p runnable _ | .collect p runnable =>
      (memory.info p.pid).loadTracked = runnable ∧ memory.posted p.pid = runnable ∧
        memory.tasks p.pid ≠ none
  | _ => True

/-- Between the two accesses to the flag and to the load of a task. -/
def Pc.Between : Pc Pid → Pid → Prop
  | .post p _, pid => p.pid = pid
  | _, _ => False

structure Posting (system : System Core Pid) : Prop where
  serial : ∀ first second pid, (system.cpus first).Concerns pid →
    (system.cpus second).Concerns pid → first = second
  room : tally (fun known => system.memory.tasks known ≠ none) ≤ maxPids
  present : ∀ pid, system.memory.posted pid = true → system.memory.tasks pid ≠ none
  cpus : ∀ core, (system.cpus core).Posts system.memory
  posted : ∀ pid, (∀ core, ¬(system.cpus core).pc.Between pid) →
    system.memory.posted pid = (system.memory.info pid).loadTracked

variable {memory' : Memory Pid} {cpu' : Cpu Pid}

/-- A CPU takes up no task by an access. -/
theorem Cpu.Accesses.concerns (accesses : Cpu.Accesses nrMilliCpus memory cpu memory' cpu')
    {pid : Pid} (concerns : cpu'.Concerns pid) : cpu.Concerns pid := by
  obtain ⟨p, isTask, same⟩ | queued := concerns
  · cases accesses with
    | start call todo =>
        have starts := memory.start_starts call
        obtain ⟨isReady, -⟩ | ⟨runnable, posts, -⟩ := starts.outcome
        · rw [isReady] at isTask
          cases isTask
        · rw [posts] at isTask
          cases isTask
          exact .inr ⟨call, List.mem_cons_self, same⟩
    | post p runnable todo =>
        cases isTask
        exact .inl ⟨p, rfl, same⟩
    | poke p runnable pc todo =>
        refine .inl ⟨p, rfl, ?_⟩
        cases returned : (pokeUpdateAccum nrMilliCpus memory.bpfKtimeGetUs memory.globals pc).2 <;>
          rw [returned] at isTask <;> cases isTask <;> exact same
    | collect p runnable todo =>
        refine .inl ⟨p, rfl, ?_⟩
        obtain isReady | ⟨idx, accounts⟩ := memory.collect_pc p runnable
        · rw [isReady] at isTask
          cases isTask
        · rw [accounts] at isTask
          cases isTask
          exact same
    | account p idx todo => cases isTask
  · right
    cases accesses with
    | start call todo =>
        obtain ⟨other, member, same⟩ := queued
        exact ⟨other, List.mem_cons_of_mem _ member, same⟩
    | _ => exact queued

/-- What an access does not concern stays as it is. -/
structure Memory.Frames (memory memory' : Memory Pid) (pid : Pid) : Prop where
  shares : (memory.info pid).SameShares (memory'.info pid)
  posted : memory'.posted pid = memory.posted pid

omit [Fintype Pid] [DecidableEq Pid] in
private theorem Memory.Frames.of_eq {pid : Pid} (tasks : memory'.tasks = memory.tasks)
    (posted : memory'.posted = memory.posted) : memory.Frames memory' pid := by
  refine ⟨?_, by rw [posted]⟩
  rw [Memory.info, Memory.info, tasks]
  exact ⟨rfl, rfl, rfl⟩

theorem Memory.start_frames (call : Call Pid) {pid : Pid} (different : pid ≠ call.task.pid) :
    memory.Frames (memory.start call).1 pid := by
  have starts := memory.start_starts call
  refine ⟨?_, by rw [starts.retains.eq]⟩
  obtain ⟨-, same⟩ | ⟨runnable, -, -, changed⟩ := starts.outcome
  · exact same pid
  · rw [changed, Function.update_of_ne different]
    exact ⟨rfl, rfl, rfl⟩

theorem Memory.collect_frames (p : TaskStruct Pid) (runnable : Bool) {pid : Pid}
    (different : pid ≠ p.pid) : memory.Frames (memory.collect p runnable).1 pid := by
  by_cases present : memory.tasks p.pid = none
  · have same : (memory.collect p runnable).1 = memory := by simp [Memory.collect, present]
    rw [same]
    exact .of_eq rfl rfl
  · refine ⟨?_, by rw [(memory.collect_retains p runnable).eq]⟩
    rw [Memory.collect_info present, Function.update_of_ne different]
    exact ⟨rfl, rfl, rfl⟩

theorem Cpu.Accesses.frames (accesses : Cpu.Accesses nrMilliCpus memory cpu memory' cpu')
    {pid : Pid} (apart : ¬cpu.Concerns pid) : memory.Frames memory' pid := by
  cases accesses with
  | start call todo =>
      apply Memory.start_frames
      intro same
      exact apart (.inr ⟨call, List.mem_cons_self, same.symm⟩)
  | post p runnable todo =>
      have different : pid ≠ p.pid := fun same => apart (.inl ⟨p, rfl, same.symm⟩)
      exact ⟨⟨rfl, rfl, rfl⟩, Function.update_of_ne different _ _⟩
  | poke p runnable pc todo => exact .of_eq rfl rfl
  | collect p runnable todo =>
      apply Memory.collect_frames
      intro same
      exact apart (.inl ⟨p, rfl, same.symm⟩)
  | account p idx todo =>
      rw [Memory.account_eq]
      exact .of_eq rfl rfl

private theorem Cpu.Accesses.present (accesses : Cpu.Accesses nrMilliCpus memory cpu memory' cpu')
    {pid : Pid} (present : memory.tasks pid ≠ none) : memory'.tasks pid ≠ none := by
  cases accesses with
  | start call todo => exact (memory.start_starts call).retains.present pid present
  | collect p runnable todo => exact (memory.collect_retains p runnable).present pid present
  | account p idx todo =>
      rw [Memory.account_eq]
      exact present
  | _ => exact present

private theorem Cpu.Accesses.room (accesses : Cpu.Accesses nrMilliCpus memory cpu memory' cpu')
    (room : tally (fun known => memory.tasks known ≠ none) ≤ maxPids) :
    tally (fun known => memory'.tasks known ≠ none) ≤ maxPids := by
  cases accesses with
  | start call todo => exact (memory.start_starts call).retains.room room
  | collect p runnable todo => exact (memory.collect_retains p runnable).room room
  | account p idx todo =>
      rw [Memory.account_eq]
      exact room
  | _ => exact room

/-- The flags of the tasks of a CPU agree with what is posted. -/
def Cpu.Agrees (memory : Memory Pid) (cpu : Cpu Pid) (pid : Pid) : Prop :=
  ¬cpu.pc.Between pid → memory.posted pid = (memory.info pid).loadTracked

omit [Fintype Pid] [DecidableEq Pid] in
private theorem Cpu.Agrees.frame {pid : Pid} (agrees : cpu.Agrees memory pid)
    (outside : ¬cpu.pc.Between pid) (frames : memory.Frames memory' pid) :
    cpu'.Agrees memory' pid := by
  intro _
  rw [frames.posted, frames.shares.1]
  exact agrees outside

private theorem Cpu.Accesses.agrees (accesses : Cpu.Accesses nrMilliCpus memory cpu memory' cpu')
    (posts : cpu.Posts memory) {pid : Pid} (agrees : cpu.Agrees memory pid) :
    cpu'.Agrees memory' pid := by
  cases accesses with
  | start call todo =>
      have starts := memory.start_starts call
      obtain ⟨-, same⟩ | ⟨runnable, isPost, -, changed⟩ := starts.outcome
      · exact agrees.frame id ⟨same pid, by rw [starts.retains.eq]⟩
      · by_cases isTask : pid = call.task.pid
        · intro notBetween
          simp only [isPost] at notBetween
          exact absurd isTask.symm notBetween
        · exact agrees.frame id (memory.start_frames call isTask)
  | post p runnable todo =>
      intro _
      by_cases isTask : pid = p.pid
      · subst isTask
        exact (Function.update_self ..).trans posts.1.symm
      · rw [show (memory.post p.pid runnable).posted pid = memory.posted pid from
          Function.update_of_ne isTask _ _]
        exact agrees fun between => isTask between.symm
  | poke p runnable pc todo =>
      intro _
      exact agrees id
  | collect p runnable todo =>
      by_cases isTask : pid = p.pid
      · subst isTask
        intro _
        rw [(memory.collect_retains p runnable).eq]
        show memory.posted p.pid = ((memory.collect p runnable).1.info p.pid).loadTracked
        rw [Memory.collect_info posts.2.2, Function.update_self, agrees id]
        cases runnable <;> rfl
      · exact agrees.frame id (memory.collect_frames p runnable isTask)
  | account p idx todo =>
      intro _
      rw [Memory.account_eq]
      exact agrees id

private theorem Cpu.Accesses.posts (accesses : Cpu.Accesses nrMilliCpus memory cpu memory' cpu')
    (posts : cpu.Posts memory) (agrees : ∀ pid, cpu.Concerns pid → cpu.Agrees memory pid) :
    cpu'.Posts memory' := by
  cases accesses with
  | start call todo =>
      have starts := memory.start_starts call
      obtain ⟨isReady, -⟩ | ⟨runnable, isPost, tracked, changed⟩ := starts.outcome
      · rw [isReady]
        trivial
      · have agreed := agrees call.task.pid (.inr ⟨call, List.mem_cons_self, rfl⟩) id
        have isTracked : ((memory.start call).1.info call.task.pid).loadTracked = runnable := by
          rw [changed, Function.update_self]
        have wasPosted : (memory.start call).1.posted call.task.pid = !runnable := by
          rw [starts.retains.eq]
          exact agreed.trans tracked
        rw [isPost]
        refine ⟨isTracked, wasPosted, ?_⟩
        cases runnable with
        | true => exact Memory.present_of_tracked isTracked
        | false => exact starts.retains.present _ (Memory.present_of_tracked tracked)
  | post p runnable todo =>
      obtain ⟨tracked, -, present⟩ := posts
      exact ⟨tracked, Function.update_self .., present⟩
  | poke p runnable pc todo =>
      simp only [Cpu.Posts]
      cases (pokeUpdateAccum nrMilliCpus memory.bpfKtimeGetUs memory.globals pc).2 with
      | none => exact posts
      | some pc => exact posts
  | collect p runnable todo =>
      obtain isReady | ⟨idx, accounts⟩ := memory.collect_pc p runnable
      · rw [isReady]
        trivial
      · rw [accounts]
        trivial
  | account p idx todo => trivial

omit [Fintype Pid] [DecidableEq Pid] in
/-- An access to other tasks. -/
theorem Cpu.Posts.frame (posts : cpu.Posts memory)
    (present : ∀ pid, memory.tasks pid ≠ none → memory'.tasks pid ≠ none)
    (frames : ∀ pid, cpu.Concerns pid → memory.Frames memory' pid) : cpu.Posts memory' := by
  obtain ⟨pc, todo⟩ := cpu
  cases pc with
  | ready => trivial
  | account p idx => trivial
  | _ p =>
      obtain ⟨tracked, posted, isPresent⟩ := posts
      have same := frames p.pid (.inl ⟨p, rfl, rfl⟩)
      exact ⟨same.shares.1.trans tracked, same.posted.trans posted, present _ isPresent⟩

private theorem Cpu.Accesses.present_of_posted
    (accesses : Cpu.Accesses nrMilliCpus memory cpu memory' cpu') (posts : cpu.Posts memory)
    (present : ∀ pid, memory.posted pid = true → memory.tasks pid ≠ none) {pid : Pid}
    (posted : memory'.posted pid = true) : memory'.tasks pid ≠ none := by
  apply accesses.present
  cases accesses with
  | start call todo =>
      apply present
      rwa [(memory.start_starts call).retains.eq] at posted
  | post p runnable todo =>
      by_cases isTask : pid = p.pid
      · exact isTask ▸ posts.2.2
      · exact present pid ((Function.update_of_ne isTask _ _).symm.trans posted)
  | poke p runnable pc todo => exact present pid posted
  | collect p runnable todo =>
      apply present
      rwa [(memory.collect_retains p runnable).eq] at posted
  | account p idx todo =>
      apply present
      rwa [Memory.account_eq] at posted

omit [Fintype Pid] [DecidableEq Pid] in
private theorem Cpu.concerns_of_between {pid : Pid} (between : cpu.pc.Between pid) :
    cpu.Concerns pid := by
  obtain ⟨pc, todo⟩ := cpu
  cases pc with
  | post p runnable => exact .inl ⟨p, rfl, between⟩
  | _ => cases between

omit [DecidableEq Core] [DecidableEq Pid] in
private theorem Posting.agrees (posting : Posting system) {core : Core} {pid : Pid}
    (concerns : (system.cpus core).Concerns pid) :
    (system.cpus core).Agrees system.memory pid := by
  intro outside
  apply posting.posted
  intro other between
  have isCore := posting.serial other core pid (Cpu.concerns_of_between between) concerns
  exact outside (isCore ▸ between)

theorem Posting.access (posting : Posting system) {core : Core}
    (accessed : (system.cpus core).access nrMilliCpus system.memory = some effect) :
    Posting (system.setCpu effect.1 core effect.2) := by
  have accesses := Cpu.access_accesses accessed
  have apart : ∀ other pid, other ≠ core → (system.cpus other).Concerns pid →
      ¬(system.cpus core).Concerns pid := by
    intro other pid different concerns concernsCore
    exact different (posting.serial other core pid concerns concernsCore)
  have concerns : ∀ other pid, ((system.setCpu effect.1 core effect.2).cpus other).Concerns pid →
      (system.cpus other).Concerns pid := by
    intro other pid concerned
    by_cases isCore : other = core
    · subst isCore
      rw [System.setCpu_self] at concerned
      exact accesses.concerns concerned
    · rwa [System.setCpu_of_ne _ _ _ isCore] at concerned
  constructor
  · intro first second pid firstConcerns secondConcerns
    exact posting.serial first second pid (concerns first pid firstConcerns)
      (concerns second pid secondConcerns)
  · exact accesses.room posting.room
  · intro pid posted
    exact accesses.present_of_posted (posting.cpus core) posting.present posted
  · intro other
    by_cases isCore : other = core
    · subst isCore
      rw [System.setCpu_self]
      exact accesses.posts (posting.cpus other) fun pid => posting.agrees
    · rw [System.setCpu_of_ne _ _ _ isCore]
      apply (posting.cpus other).frame fun pid => accesses.present
      intro pid concerned
      exact accesses.frames (apart other pid isCore concerned)
  · intro pid outside
    by_cases concerned : (system.cpus core).Concerns pid
    · have agrees := accesses.agrees (posting.cpus core) (posting.agrees concerned)
      apply agrees
      have outsideCore := outside core
      rwa [System.setCpu_self] at outsideCore
    · have frames := accesses.frames concerned
      show effect.1.posted pid = (effect.1.info pid).loadTracked
      rw [frames.posted, frames.shares.1]
      apply posting.posted
      intro other between
      by_cases isCore : other = core
      · exact concerned (isCore ▸ Cpu.concerns_of_between between)
      · apply outside other
        rwa [System.setCpu_of_ne _ _ _ isCore]

omit [DecidableEq Pid] in
private theorem Posting.trace (posting : Posting system) {core : Core} {tracepoint : Tracepoint Pid}
    (isReady : (system.cpus core).pc = .ready)
    (serial : ∀ call ∈ tracepoint.calls, ∀ other, ¬(system.cpus other).Concerns call.task.pid) :
    Posting (system.setCpu system.memory core ⟨.ready, tracepoint.calls⟩) := by
  have fresh : ∀ pid, (⟨.ready, tracepoint.calls⟩ : Cpu Pid).Concerns pid → ∀ other,
      ¬(system.cpus other).Concerns pid := by
    intro pid concerned other concernsOther
    obtain ⟨_, impossible, _⟩ | ⟨call, member, rfl⟩ := concerned
    · cases impossible
    · exact serial call member other concernsOther
  refine ⟨?_, posting.room, posting.present, ?_, ?_⟩
  · intro first second pid firstConcerns secondConcerns
    by_cases isFirst : first = core
    · by_cases isSecond : second = core
      · exact isFirst.trans isSecond.symm
      · rw [isFirst, System.setCpu_self] at firstConcerns
        rw [System.setCpu_of_ne _ _ _ isSecond] at secondConcerns
        exact absurd secondConcerns (fresh pid firstConcerns second)
    · rw [System.setCpu_of_ne _ _ _ isFirst] at firstConcerns
      by_cases isSecond : second = core
      · rw [isSecond, System.setCpu_self] at secondConcerns
        exact absurd firstConcerns (fresh pid secondConcerns first)
      · rw [System.setCpu_of_ne _ _ _ isSecond] at secondConcerns
        exact posting.serial first second pid firstConcerns secondConcerns
  · intro other
    by_cases isCore : other = core
    · rw [isCore, System.setCpu_self]
      trivial
    · rw [System.setCpu_of_ne _ _ _ isCore]
      exact posting.cpus other
  · intro pid outside
    apply posting.posted
    intro other between
    by_cases isCore : other = core
    · subst isCore
      rw [isReady] at between
      exact between
    · apply outside other
      rwa [System.setCpu_of_ne _ _ _ isCore]

theorem Posting.step (posting : Posting system) {action : Action Core Pid}
    (stepped : system.Step nrMilliCpus action next) : Posting next := by
  cases stepped with
  | trace isReady _ serial => exact posting.trace isReady serial
  | access accessed => exact posting.access accessed
  | tick _ => exact ⟨posting.serial, posting.room, posting.present, posting.cpus, posting.posted⟩

omit [DecidableEq Core] [DecidableEq Pid] in
theorem System.Initial.posting (initial : system.Initial) : Posting system := by
  have nobody : ∀ core pid, ¬(system.cpus core).Concerns pid := by
    intro core pid concerned
    rw [initial.cpus] at concerned
    obtain ⟨_, impossible, _⟩ | ⟨_, impossible, _⟩ := concerned <;> cases impossible
  constructor
  · intro first second pid firstConcerns _
    exact absurd firstConcerns (nobody first pid)
  · rw [initial.tasks, tally_eq_zero.mpr fun pid present => present rfl]
    exact Nat.zero_le _
  · intro pid posted
    rw [initial.posted] at posted
    cases posted
  · intro core
    rw [initial.cpus]
    trivial
  · intro pid _
    rw [initial.posted, Memory.info, initial.tasks]
    rfl

end Posting

end Ghost.Schedfair
