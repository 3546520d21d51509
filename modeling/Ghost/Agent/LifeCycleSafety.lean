import Ghost.Agent.LifeCycle

/-!
# How far a process has got

The main thread of a process and the agent thread of a CPU wait for each other. How far each has
got bounds the other, and settles the notifications between them and what the kernel has given.
-/

set_option autoImplicit false

namespace Ghost.Agent

open Lib

/-! ## One agent -/

@[simp]
def AgentPc.rank : AgentPc → Nat
  | .unborn => 0
  | .waitForOldAgent _ => 1
  | .enterGhost => 2
  | .attachRep => 3
  | .attachList => 4
  | .signalReady => 5
  | .waitForEnclaveReady => 6
  | .loop | .schedule _ | .yielded _ => 7
  | .checkFinished => 8
  | .waitForExit => 9
  | .exiting => 10
  | .freed => 11
  | .failed => 12

section Stages

variable {Cpu Eat : Type} [DecidableEq Cpu]

/-- How far the main thread has got with the agent of a CPU. -/
@[simp]
def MainPc.stage (cpu : Cpu) : MainPc Cpu Eat → Nat
  | .startBegin rest => if cpu ∈ rest then 0 else 1
  | .startComplete rest => if cpu ∈ rest then 1 else 2
  | .lockWhen => 2
  | .insertBpf _ | .discoverTasks => 3
  | .enclaveReady rest => if cpu ∈ rest then 3 else 4
  | .openOnline | .setOnline | .serving | .setOffline | .closeOnline | .destroyBpf _ => 4
  | .notifyFinished rest => if cpu ∈ rest then 4 else 7
  | .ping current rest => if cpu = current then 5 else if cpu ∈ rest then 4 else 7
  | .notifyExit current rest => if cpu = current then 6 else if cpu ∈ rest then 4 else 7
  | .join rest => if cpu ∈ rest then 7 else 9
  | .waitFree current rest => if cpu = current then 8 else if cpu ∈ rest then 7 else 9
  | .detachRep rest => if cpu ∈ rest then 9 else 11
  | .detachList current rest => if cpu = current then 10 else if cpu ∈ rest then 9 else 11
  | .exited => 11
  | .failed => 12

/-- What a loop has yet to go through. -/
@[simp]
def MainPc.todo : MainPc Cpu Eat → List Cpu
  | .startBegin rest | .startComplete rest | .enclaveReady rest | .notifyFinished rest
  | .join rest | .detachRep rest => rest
  | .ping cpu rest | .notifyExit cpu rest | .waitFree cpu rest | .detachList cpu rest => cpu :: rest
  | _ => []

end Stages

/-- The agent of a CPU, and how far the main thread has got with it. -/
structure Paired (stage : Nat) (agent : AgentState) (rep listed : Bool) : Prop where
  alive : agent.pc.rank ≤ 11
  begun : agent.pc.rank = 0 ↔ stage = 0
  ready : agent.ready = true ↔ 6 ≤ agent.pc.rank
  started : 2 ≤ stage → 6 ≤ agent.pc.rank
  enclaveReady : agent.enclaveReady = true ↔ 4 ≤ stage
  released : 7 ≤ agent.pc.rank → 4 ≤ stage
  finished : agent.finished = true ↔ 5 ≤ stage
  ends : 8 ≤ agent.pc.rank → 5 ≤ stage
  doExit : agent.doExit = true ↔ 7 ≤ stage
  exits : 10 ≤ agent.pc.rank → 7 ≤ stage
  joined : 8 ≤ stage → 10 ≤ agent.pc.rank
  freed : 9 ≤ stage → 11 ≤ agent.pc.rank
  rep : rep = true ↔ 4 ≤ agent.pc.rank ∧ stage < 10
  listed : listed = true ↔ 5 ≤ agent.pc.rank ∧ stage < 11

namespace Paired

variable {stage : Nat} {agent : AgentState} {rep listed : Bool}

theorem unborn : Paired 0 .unborn false false := by
  constructor <;> simp [AgentState.unborn, AgentPc.rank]

/-! ### The main thread goes on -/

private theorem begin_ (paired : Paired 0 agent rep listed) (watch : Watch) :
    Paired 1 (agent.setPc (.waitForOldAgent watch)) rep listed := by
  have isUnborn := paired.begun.mpr rfl
  cases paired
  constructor <;> simp_all [AgentState.setPc, AgentPc.rank]

private theorem complete (paired : Paired 1 agent rep listed) (isReady : agent.ready = true) :
    Paired 2 agent rep listed := by
  have atLeast := paired.ready.mp isReady
  cases paired
  constructor <;> grind -ring -linarith

private theorem attached (paired : Paired 2 agent rep listed) : Paired 3 agent rep listed := by
  cases paired
  constructor <;> grind -ring -linarith

private theorem release (paired : Paired 3 agent rep listed) :
    Paired 4 agent.setEnclaveReady rep listed := by
  cases paired
  constructor <;> simp only [AgentState.setEnclaveReady] <;> grind -ring -linarith

private theorem finish (paired : Paired 4 agent rep listed) :
    Paired 5 agent.setFinished rep listed := by
  cases paired
  constructor <;> simp only [AgentState.setFinished] <;> grind -ring -linarith

private theorem ping (paired : Paired 5 agent rep listed) {ran : Bool} :
    Paired 6 (agent.ping ran) rep listed := by
  cases paired
  cases ran <;> constructor <;>
    simp only [AgentState.ping, AgentState.setPinged, Bool.false_eq_true, if_false, if_true] <;>
    grind -ring -linarith

private theorem notifyExit (paired : Paired 6 agent rep listed) :
    Paired 7 agent.setDoExit rep listed := by
  cases paired
  constructor <;> simp only [AgentState.setDoExit] <;> grind -ring -linarith

private theorem join (paired : Paired 7 agent rep listed) (returned : 10 ≤ agent.pc.rank) :
    Paired 8 agent rep listed := by
  cases paired
  constructor <;> grind -ring -linarith

private theorem free (paired : Paired 8 agent rep listed) (canFree : agent.pc.rank = 11) :
    Paired 9 agent rep listed := by
  cases paired
  constructor <;> grind -ring -linarith

private theorem detachRep (paired : Paired 9 agent rep listed) : Paired 10 agent false listed := by
  cases paired
  constructor <;> grind -ring -linarith

private theorem detachList (paired : Paired 10 agent rep listed) : Paired 11 agent rep false := by
  cases paired
  constructor <;> grind -ring -linarith

/-! ### The agent thread goes on -/

/-- Up to the `AttachAgent`. -/
theorem approach (paired : Paired stage agent rep listed) {pc : AgentPc}
    (born : 1 ≤ agent.pc.rank) (away : agent.pc.rank ≤ 3) (born' : 1 ≤ pc.rank)
    (away' : pc.rank ≤ 3) : Paired stage (agent.setPc pc) rep listed := by
  cases paired
  constructor <;> simp only [AgentState.setPc] <;> grind -ring -linarith

private theorem attachRep (paired : Paired stage agent rep listed) (at_ : agent.pc = .attachRep) :
    rep = false ∧ Paired stage (agent.setPc .attachList) true listed := by
  have rank : agent.pc.rank = 3 := congrArg AgentPc.rank at_
  cases paired
  refine ⟨by grind -ring -linarith, ?_⟩
  constructor <;> simp only [AgentState.setPc, AgentPc.rank] <;> grind -ring -linarith

private theorem attachList (paired : Paired stage agent rep listed) (at_ : agent.pc = .attachList) :
    listed = false ∧ Paired stage (agent.setPc .signalReady) rep true := by
  have rank : agent.pc.rank = 4 := congrArg AgentPc.rank at_
  cases paired
  refine ⟨by grind -ring -linarith, ?_⟩
  constructor <;> simp only [AgentState.setPc, AgentPc.rank] <;> grind -ring -linarith

private theorem signalReady (paired : Paired stage agent rep listed)
    (at_ : agent.pc = .signalReady) :
    agent.ready = false ∧
      Paired stage (agent.setReady.setPc .waitForEnclaveReady) rep listed := by
  have rank : agent.pc.rank = 5 := congrArg AgentPc.rank at_
  cases paired
  refine ⟨by grind -ring -linarith, ?_⟩
  constructor <;> simp only [AgentState.setReady, AgentState.setPc, AgentPc.rank] <;>
    grind -ring -linarith

/-- What a step from `SignalReady` on relies on. -/
structure Proceeds (agent : AgentState) (pc : AgentPc) : Prop where
  signalled : 6 ≤ agent.pc.rank
  forward : agent.pc.rank ≤ pc.rank
  alive : pc.rank ≤ 11
  released : agent.pc.rank = 6 → 7 ≤ pc.rank → agent.enclaveReady = true
  ends : agent.pc.rank ≤ 7 → 8 ≤ pc.rank → agent.finished = true
  exits : agent.pc.rank ≤ 9 → 10 ≤ pc.rank → agent.doExit = true

private theorem proceed (paired : Paired stage agent rep listed) {pc : AgentPc} {pinged : Bool}
    (proceeds : Proceeds agent pc) :
    Paired stage ((agent.setPinged pinged).setPc pc) rep listed := by
  cases paired
  cases proceeds
  constructor <;> simp only [AgentState.setPinged, AgentState.setPc] <;> grind -ring -linarith

theorem onlineChanged (paired : Paired stage agent rep listed) :
    Paired stage agent.onlineChanged rep listed := by
  unfold AgentState.onlineChanged
  cases at_ : agent.pc with
  | waitForOldAgent watch =>
      have rank : agent.pc.rank = 1 := congrArg AgentPc.rank at_
      exact paired.approach rank.ge (rank.le.trans (by decide)) le_rfl (Nat.le_add_left 1 2)
  | _ => exact paired

end Paired

/-! ## One process -/

section Processes

variable {Cpu Eat : Type} [DecidableEq Cpu] {enclave : EnclaveCpus Cpu}
  {registry : List Eat} {process process' : Process Cpu Eat} {cpu : Cpu} {call : KernelCall Cpu Eat}

theorem Process.setAgent_agent {agent : AgentState} :
    (process.setAgent cpu agent).agent cpu = agent :=
  Function.update_self ..

theorem Process.goTo_agent {pc : AgentPc} :
    (process.goTo cpu pc).agent cpu = (process.agent cpu).setPc pc :=
  Process.setAgent_agent

structure Process.Sound (enclave : EnclaveCpus Cpu) (process : Process Cpu Eat) : Prop where
  unique : process.pc.todo.Nodup
  inEnclave : process.pc.todo ⊆ enclave.cpus
  alive : process.pc ≠ .failed
  paired : ∀ cpu ∈ enclave.cpus, Paired (process.pc.stage cpu) (process.agent cpu)
    (process.rep cpu) (decide (cpu ∈ process.agents))
  outside : ∀ cpu, cpu ∉ enclave.cpus → (process.agent cpu).pc = .unborn
  agentsUnique : process.agents.Nodup
  agentsInEnclave : process.agents ⊆ enclave.cpus

/-- A step changes what is said about one agent, and how far the main thread has got with it. -/
structure Process.Changes (process process' : Process Cpu Eat) (cpu : Cpu) : Prop where
  stage : ∀ other, other ≠ cpu → process'.pc.stage other = process.pc.stage other
  agent : ∀ other, other ≠ cpu → process'.agent other = process.agent other
  rep : ∀ other, other ≠ cpu → process'.rep other = process.rep other
  listed : ∀ other, other ≠ cpu → (other ∈ process'.agents ↔ other ∈ process.agents)

private theorem Process.Sound.changes (sound : process.Sound enclave) (member : cpu ∈ enclave.cpus)
    (changes : process.Changes process' cpu) (todo : process'.pc.todo.Sublist process.pc.todo)
    (alive : process'.pc ≠ .failed) (agentsUnique : process'.agents.Nodup)
    (paired : Paired (process'.pc.stage cpu) (process'.agent cpu) (process'.rep cpu)
      (decide (cpu ∈ process'.agents))) : process'.Sound enclave := by
  refine ⟨todo.nodup sound.unique, fun other isTodo => sound.inEnclave (todo.subset isTodo), alive,
    ?_, ?_, agentsUnique, ?_⟩
  · intro other isMember
    by_cases same : other = cpu
    · subst same
      exact paired
    · rw [changes.stage other same, changes.agent other same, changes.rep other same,
        decide_eq_decide.mpr (changes.listed other same)]
      exact sound.paired other isMember
  · intro other isOutside
    have different : other ≠ cpu := fun same => isOutside (same ▸ member)
    rw [changes.agent other different]
    exact sound.outside other isOutside
  · intro other isListed
    by_cases same : other = cpu
    · exact same ▸ member
    · exact sound.agentsInEnclave ((changes.listed other same).mp isListed)

private theorem Process.Sound.setAgent (sound : process.Sound enclave) (member : cpu ∈ enclave.cpus)
    {agent : AgentState} (paired : Paired (process.pc.stage cpu) agent (process.rep cpu)
      (decide (cpu ∈ process.agents))) : (process.setAgent cpu agent).Sound enclave := by
  refine sound.changes member ⟨fun _ _ => rfl, ?_, fun _ _ => rfl, fun _ _ => Iff.rfl⟩
    (List.Sublist.refl _) sound.alive sound.agentsUnique ?_
  · exact fun other different => Function.update_of_ne different _ _
  · rw [Process.setAgent_agent]
    exact paired

/-- Up to the `AttachAgent`. -/
theorem Process.Sound.approach (sound : process.Sound enclave) (member : cpu ∈ enclave.cpus)
    {pc : AgentPc} (born : 1 ≤ (process.agent cpu).pc.rank)
    (away : (process.agent cpu).pc.rank ≤ 3) (born' : 1 ≤ pc.rank) (away' : pc.rank ≤ 3) :
    (process.goTo cpu pc).Sound enclave :=
  sound.setAgent member ((sound.paired cpu member).approach born away born' away')

private theorem Process.Sound.proceed (sound : process.Sound enclave) (member : cpu ∈ enclave.cpus)
    {pc : AgentPc} {pinged : Bool} (proceeds : Paired.Proceeds (process.agent cpu) pc) :
    (process.setAgent cpu (((process.agent cpu).setPinged pinged).setPc pc)).Sound enclave :=
  sound.setAgent member ((sound.paired cpu member).proceed proceeds)

theorem Process.Sound.agentStep (sound : process.Sound enclave)
    (stepped : process.AgentStep cpu (process.agent cpu).pc call process') :
    process'.Sound enclave := by
  have member : cpu ∈ enclave.cpus := by
    by_contra isOutside
    rw [sound.outside cpu isOutside] at stepped
    cases stepped
  have paired := sound.paired cpu member
  generalize at_ : (process.agent cpu).pc = pc at stepped
  cases stepped with
  | watch => exact sound.approach member (by simp [at_]) (by simp [at_]) (by simp) (by simp)
  | oldAgentGone =>
      exact sound.approach member (by simp [at_]) (by simp [at_]) (by simp) (by simp)
  | @enterGhost entered =>
      cases entered <;>
        exact sound.approach member (by simp [at_]) (by simp [at_]) (by simp) (by simp)
  | attachRep =>
      obtain ⟨absent, attached⟩ := paired.attachRep at_
      rw [if_neg (by rw [absent]; exact Bool.false_ne_true)]
      refine sound.changes member ⟨fun _ _ => rfl, ?_, ?_, fun _ _ => Iff.rfl⟩
        (List.Sublist.refl _) sound.alive sound.agentsUnique ?_
      · exact fun other different => Function.update_of_ne different _ _
      · exact fun other different => Function.update_of_ne different _ _
      · rw [Process.goTo_agent, show ((process.setRep cpu true).goTo cpu .attachList).rep cpu = true
          from Function.update_self ..]
        exact attached
  | attachList =>
      obtain ⟨absent, attached⟩ := paired.attachList at_
      have fresh : cpu ∉ process.agents := of_decide_eq_false absent
      refine sound.changes member ⟨fun _ _ => rfl, ?_, fun _ _ => rfl, ?_⟩
        (List.Sublist.refl _) sound.alive ?_ ?_
      · exact fun other different => Function.update_of_ne different _ _
      · intro other different
        exact List.mem_append.trans (or_iff_left (List.mem_singleton.not.mpr different))
      · apply List.nodup_append.mpr
        refine ⟨sound.agentsUnique, List.nodup_singleton cpu, fun other isListed new isNew => ?_⟩
        rw [List.mem_singleton.mp isNew]
        exact fun same => fresh (same ▸ isListed)
      · have listed : cpu ∈ ((process.setAgents (process.agents ++ [cpu])).goTo cpu
            .signalReady).agents := List.mem_append_right _ List.mem_cons_self
        rw [Process.goTo_agent, decide_eq_true listed]
        exact attached
  | signalReady =>
      obtain ⟨absent, signalled⟩ := paired.signalReady at_
      rw [if_neg (by rw [absent]; exact Bool.false_ne_true)]
      exact sound.setAgent member signalled
  | waitForEnclaveReady isReady =>
      exact sound.proceed member (by constructor <;> simp [at_, isReady])
  | schedule => exact sound.proceed member (by constructor <;> simp [at_])
  | leave isFinished => exact sound.proceed member (by constructor <;> simp [at_, isFinished])
  | scheduled => exact sound.proceed member (by constructor <;> simp [at_])
  | yield => exact sound.proceed member (by constructor <;> simp [at_])
  | pinged => exact sound.proceed member (by constructor <;> simp [at_])
  | message => exact sound.proceed member (by constructor <;> simp [at_])
  | checkFinished =>
      have isFinished := paired.finished.mpr (paired.ends (by simp [at_]))
      rw [if_pos isFinished]
      exact sound.proceed member (by constructor <;> simp [at_])
  | waitForExit exits => exact sound.proceed member (by constructor <;> simp [at_, exits])
  | taskDead => exact sound.proceed member (by constructor <;> simp [at_])

/-- The main thread goes on by itself. -/
theorem Process.Sound.setPc (sound : process.Sound enclave) {pc : MainPc Cpu Eat}
    (todo : pc.todo = [] ∨ pc.todo = process.pc.todo ∨ pc.todo = enclave.cpus)
    (alive : pc ≠ .failed)
    (paired : ∀ cpu ∈ enclave.cpus, pc.stage cpu = process.pc.stage cpu ∨
      pc.stage cpu = 3 ∧ process.pc.stage cpu = 2) : (process.setPc pc).Sound enclave := by
  refine ⟨?_, ?_, alive, ?_, sound.outside, sound.agentsUnique, sound.agentsInEnclave⟩
  · show pc.todo.Nodup
    obtain none | same | all := todo
    · exact none ▸ List.nodup_nil
    · exact same ▸ sound.unique
    · exact all ▸ enclave.nodup
  · show pc.todo ⊆ enclave.cpus
    obtain none | same | all := todo
    · exact none ▸ List.nil_subset _
    · exact same ▸ sound.inEnclave
    · exact all ▸ List.Subset.refl _
  · intro cpu member
    show Paired (pc.stage cpu) _ _ _
    obtain same | ⟨after, before⟩ := paired cpu member
    · exact same ▸ sound.paired cpu member
    · rw [after]
      exact (before ▸ sound.paired cpu member).attached

/-- The main thread goes on to the next agent. -/
theorem Process.Sound.advance (sound : process.Sound enclave) (member : cpu ∈ enclave.cpus)
    {agent : AgentState} {pc : MainPc Cpu Eat} (todo : pc.todo.Sublist process.pc.todo)
    (alive : pc ≠ .failed)
    (stage : ∀ other, other ≠ cpu → pc.stage other = process.pc.stage other)
    (paired : Paired (pc.stage cpu) agent (process.rep cpu) (decide (cpu ∈ process.agents))) :
    ((process.setAgent cpu agent).setPc pc).Sound enclave := by
  refine sound.changes member ⟨stage, ?_, fun _ _ => rfl, fun _ _ => Iff.rfl⟩ todo alive
    sound.agentsUnique ?_
  · exact fun other different => Function.update_of_ne different _ _
  · rw [show ((process.setAgent cpu agent).setPc pc).agent cpu = agent from
      Process.setAgent_agent]
    exact paired

private theorem Process.Sound.advanceQuiet (sound : process.Sound enclave)
    (member : cpu ∈ enclave.cpus)
    {pc : MainPc Cpu Eat} (todo : pc.todo.Sublist process.pc.todo) (alive : pc ≠ .failed)
    (stage : ∀ other, other ≠ cpu → pc.stage other = process.pc.stage other)
    (paired : Paired (pc.stage cpu) (process.agent cpu) (process.rep cpu)
      (decide (cpu ∈ process.agents))) : (process.setPc pc).Sound enclave :=
  sound.changes member ⟨stage, fun _ _ => rfl, fun _ _ => rfl, fun _ _ => Iff.rfl⟩ todo alive
    sound.agentsUnique paired

private theorem Process.Sound.notify (sound : process.Sound enclave) (member : cpu ∈ enclave.cpus)
    {agent : AgentState} {pc : MainPc Cpu Eat} {notified : Bool} (fresh : ¬notified = true)
    (todo : pc.todo.Sublist process.pc.todo) (alive : pc ≠ .failed)
    (stage : ∀ other, other ≠ cpu → pc.stage other = process.pc.stage other)
    (paired : Paired (pc.stage cpu) agent (process.rep cpu) (decide (cpu ∈ process.agents))) :
    (process.notify cpu notified agent pc).Sound enclave := by
  rw [Process.notify, if_neg fresh]
  exact sound.advance member todo alive stage paired

private theorem Process.Sound.setIsOnline (sound : process.Sound enclave) {isOnline : Bool} :
    (process.setIsOnline isOnline).Sound enclave :=
  ⟨sound.unique, sound.inEnclave, sound.alive, sound.paired, sound.outside, sound.agentsUnique,
    sound.agentsInEnclave⟩

theorem Process.Sound.setKillAgent (sound : process.Sound enclave) :
    process.setKillAgent.Sound enclave :=
  ⟨sound.unique, sound.inEnclave, sound.alive, sound.paired, sound.outside, sound.agentsUnique,
    sound.agentsInEnclave⟩

/-! ### The next agent of a loop -/

section Loops

variable {rest : List Cpu}

private theorem Process.Sound.current (sound : process.Sound enclave)
    (isTodo : process.pc.todo = cpu :: rest) : cpu ∈ enclave.cpus ∧ cpu ∉ rest := by
  have unique := sound.unique
  have inEnclave := sound.inEnclave
  rw [isTodo] at unique inEnclave
  exact ⟨inEnclave List.mem_cons_self, (List.nodup_cons.mp unique).1⟩

private theorem Process.Sound.startBegin (sound : process.Sound enclave)
    (at_ : process.pc = .startBegin (cpu :: rest)) :
    ((process.goTo cpu (.waitForOldAgent ⟨.open, false⟩)).setPc (.startBegin rest)).Sound
      enclave := by
  obtain ⟨isMember, isLast⟩ := sound.current (congrArg MainPc.todo at_)
  have paired := sound.paired cpu isMember
  simp only [at_, MainPc.stage, List.mem_cons_self, if_true] at paired
  refine sound.advance isMember (by simp [at_]) (by simp)
    (fun other different => by simp [at_, different]) ?_
  simpa [isLast] using paired.begin_ ⟨.open, false⟩

private theorem Process.Sound.startComplete (sound : process.Sound enclave)
    (at_ : process.pc = .startComplete (cpu :: rest))
    (isReady : (process.agent cpu).ready = true) :
    (process.setPc (.startComplete rest)).Sound enclave := by
  obtain ⟨isMember, isLast⟩ := sound.current (congrArg MainPc.todo at_)
  have paired := sound.paired cpu isMember
  simp only [at_, MainPc.stage, List.mem_cons_self, if_true] at paired
  refine sound.advanceQuiet isMember (by simp [at_]) (by simp)
    (fun other different => by simp [at_, different]) ?_
  simpa [isLast] using paired.complete isReady

private theorem Process.Sound.enclaveReady (sound : process.Sound enclave)
    (at_ : process.pc = .enclaveReady (cpu :: rest)) :
    (if process.rep cpu then
      process.notify cpu (process.agent cpu).enclaveReady
        (process.agent cpu).setEnclaveReady (.enclaveReady rest)
    else process.setPc .failed).Sound enclave := by
  obtain ⟨isMember, isLast⟩ := sound.current (congrArg MainPc.todo at_)
  have paired := sound.paired cpu isMember
  simp only [at_, MainPc.stage, List.mem_cons_self, if_true] at paired
  have started := paired.started (by omega)
  rw [if_pos (paired.rep.mpr ⟨by omega, by omega⟩)]
  refine sound.notify isMember ?_ (by simp [at_]) (by simp)
    (fun other different => by simp [at_, different]) ?_
  · rw [paired.enclaveReady]
    omega
  · simpa [isLast] using paired.release

private theorem Process.Sound.notifyFinished (sound : process.Sound enclave)
    (at_ : process.pc = .notifyFinished (cpu :: rest)) :
    (process.notify cpu (process.agent cpu).finished (process.agent cpu).setFinished
      (.ping cpu rest)).Sound enclave := by
  obtain ⟨isMember, isLast⟩ := sound.current (congrArg MainPc.todo at_)
  have paired := sound.paired cpu isMember
  simp only [at_, MainPc.stage, List.mem_cons_self, if_true] at paired
  refine sound.notify isMember ?_ (by simp [at_]) (by simp)
    (fun other different => by simp [at_, different]) ?_
  · rw [paired.finished]
    omega
  · simpa [isLast] using paired.finish

private theorem Process.Sound.ping (sound : process.Sound enclave)
    (at_ : process.pc = .ping cpu rest)
    {ran : Bool} :
    ((process.setAgent cpu ((process.agent cpu).ping ran)).setPc (.notifyExit cpu rest)).Sound
      enclave := by
  obtain ⟨isMember, isLast⟩ := sound.current (congrArg MainPc.todo at_)
  have paired := sound.paired cpu isMember
  simp only [at_, MainPc.stage, if_true] at paired
  refine sound.advance isMember (by simp [at_]) (by simp)
    (fun other different => by simp [at_, different]) ?_
  simpa using paired.ping

private theorem Process.Sound.notifyExit (sound : process.Sound enclave)
    (at_ : process.pc = .notifyExit cpu rest) :
    (process.notify cpu (process.agent cpu).doExit (process.agent cpu).setDoExit
      (.notifyFinished rest)).Sound enclave := by
  obtain ⟨isMember, isLast⟩ := sound.current (congrArg MainPc.todo at_)
  have paired := sound.paired cpu isMember
  simp only [at_, MainPc.stage, if_true] at paired
  refine sound.notify isMember ?_ (by simp [at_]) (by simp)
    (fun other different => by simp [at_, different]) ?_
  · rw [paired.doExit]
    omega
  · simpa [isLast] using paired.notifyExit

private theorem Process.Sound.join (sound : process.Sound enclave)
    (at_ : process.pc = .join (cpu :: rest))
    (returned : (process.agent cpu).pc = .exiting ∨ (process.agent cpu).pc = .freed) :
    (process.setPc (.waitFree cpu rest)).Sound enclave := by
  obtain ⟨isMember, isLast⟩ := sound.current (congrArg MainPc.todo at_)
  have paired := sound.paired cpu isMember
  simp only [at_, MainPc.stage, List.mem_cons_self, if_true] at paired
  refine sound.advanceQuiet isMember (by simp [at_]) (by simp)
    (fun other different => by simp [at_, different]) ?_
  have exited : 10 ≤ (process.agent cpu).pc.rank := by
    obtain isExiting | isFreed := returned
    · simp [isExiting]
    · simp [isFreed]
  simpa using paired.join exited

private theorem Process.Sound.waitFree (sound : process.Sound enclave)
    (at_ : process.pc = .waitFree cpu rest) (canFree : (process.agent cpu).pc = .freed) :
    (process.setPc (.join rest)).Sound enclave := by
  obtain ⟨isMember, isLast⟩ := sound.current (congrArg MainPc.todo at_)
  have paired := sound.paired cpu isMember
  simp only [at_, MainPc.stage, if_true] at paired
  refine sound.advanceQuiet isMember (by simp [at_]) (by simp)
    (fun other different => by simp [at_, different]) ?_
  simpa [isLast] using paired.free (by simp [canFree])

private theorem Process.Sound.detachRep (sound : process.Sound enclave)
    (at_ : process.pc = .detachRep (cpu :: rest)) :
    ((process.setRep cpu false).setPc (.detachList cpu rest)).Sound enclave := by
  obtain ⟨isMember, isLast⟩ := sound.current (congrArg MainPc.todo at_)
  have paired := sound.paired cpu isMember
  simp only [at_, MainPc.stage, List.mem_cons_self, if_true] at paired
  refine sound.changes isMember ⟨?_, fun _ _ => rfl, ?_, fun _ _ => Iff.rfl⟩ ?_ (by
    simp [Process.setPc]) sound.agentsUnique ?_
  · intro other different
    simp [Process.setPc, at_, different]
  · exact fun other different => Function.update_of_ne different _ _
  · simp [Process.setPc, at_]
  · have detached := paired.detachRep
    show Paired (MainPc.stage cpu (.detachList cpu rest : MainPc Cpu Eat)) (process.agent cpu)
      (Function.update process.rep cpu false cpu) (decide (cpu ∈ process.agents))
    rw [Function.update_self, MainPc.stage, if_pos rfl]
    exact detached

private theorem Process.Sound.detachList (sound : process.Sound enclave)
    (at_ : process.pc = .detachList cpu rest) :
    ((process.setAgents (process.agents.filter (· ≠ cpu))).setPc (.detachRep rest)).Sound
      enclave := by
  obtain ⟨isMember, isLast⟩ := sound.current (congrArg MainPc.todo at_)
  have paired := sound.paired cpu isMember
  simp only [at_, MainPc.stage, if_true] at paired
  refine sound.changes isMember ⟨?_, fun _ _ => rfl, fun _ _ => rfl, ?_⟩ ?_ (by
    simp [Process.setPc]) (sound.agentsUnique.filter _) ?_
  · intro other different
    simp [Process.setPc, at_, different]
  · intro other different
    simp [Process.setPc, Process.setAgents, different]
  · simp [Process.setPc, at_]
  · simpa [Process.setPc, Process.setAgents, isLast] using paired.detachList

end Loops

variable [DecidableEq Eat]

private theorem Process.Sound.setInserted (sound : process.Sound enclave) {eat : Eat}
    {inserted : Bool} :
    (process.setInserted eat inserted).Sound enclave :=
  ⟨sound.unique, sound.inEnclave, sound.alive, sound.paired, sound.outside, sound.agentsUnique,
    sound.agentsInEnclave⟩

theorem Process.Sound.mainStep (sound : process.Sound enclave)
    (stepped : process.MainStep enclave registry process.pc call process')
    (opens : call ≠ .openOnline false) : process'.Sound enclave := by
  generalize at_ : process.pc = pc at stepped
  cases stepped with
  | startBegin => exact sound.startBegin at_
  | startedAll =>
      exact sound.setPc (by simp) (by simp) fun cpu isMember => by simp [at_, isMember]
  | startComplete isReady => exact sound.startComplete at_ isReady
  | completedAll => exact sound.setPc (by simp) (by simp) fun cpu isMember => by simp [at_]
  | lockWhen => exact sound.setPc (by simp) (by simp) fun cpu isMember => by simp [at_]
  | @insertBpf eat rest inserted =>
      cases inserted with
      | false => exact sound.setPc (by simp) (by simp) fun cpu isMember => by simp [at_]
      | true =>
          exact sound.setInserted.setPc (by simp) (by simp) fun cpu isMember => by
            simp [Process.setInserted, at_]
  | alreadyInserted => exact sound.setPc (by simp) (by simp) fun cpu isMember => by simp [at_]
  | insertedAll => exact sound.setPc (by simp) (by simp) fun cpu isMember => by simp [at_]
  | discoverTasks =>
      exact sound.setPc (by simp) (by simp) fun cpu isMember => by simp [at_, isMember]
  | enclaveReady => exact sound.enclaveReady at_
  | releasedAll => exact sound.setPc (by simp) (by simp) fun cpu isMember => by simp [at_]
  | @openOnline opened =>
      cases opened with
      | false => exact absurd rfl opens
      | true => exact sound.setPc (by simp) (by simp) fun cpu isMember => by simp [at_]
  | setOnline =>
      exact sound.setIsOnline.setPc (by simp) (by simp) fun cpu isMember => by
        simp [Process.setIsOnline, at_]
  | killed => exact sound.setPc (by simp) (by simp) fun cpu isMember => by simp [at_]
  | setOffline =>
      exact sound.setIsOnline.setPc (by simp) (by simp) fun cpu isMember => by
        simp [Process.setIsOnline, at_]
  | closeOnline => exact sound.setPc (by simp) (by simp) fun cpu isMember => by simp [at_]
  | destroyBpf =>
      exact sound.setInserted.setPc (by simp) (by simp) fun cpu isMember => by
        simp [Process.setInserted, at_]
  | notInserted => exact sound.setPc (by simp) (by simp) fun cpu isMember => by simp [at_]
  | destroyedAll =>
      exact sound.setPc (by simp) (by simp) fun cpu isMember => by simp [at_, isMember]
  | notifyFinished => exact sound.notifyFinished at_
  | ping => exact sound.ping at_
  | notifyExit => exact sound.notifyExit at_
  | terminatedAll =>
      exact sound.setPc (by simp) (by simp) fun cpu isMember => by simp [at_, isMember]
  | join returned => exact sound.join at_ returned
  | waitFree canFree => exact sound.waitFree at_ canFree
  | joinedAll =>
      exact sound.setPc (by simp) (by simp) fun cpu isMember => by simp [at_, isMember]
  | detachRep => exact sound.detachRep at_
  | detachList => exact sound.detachList at_
  | detachedAll => exact sound.setPc (by simp) (by simp) fun cpu isMember => by simp [at_]

end Processes

end Ghost.Agent
