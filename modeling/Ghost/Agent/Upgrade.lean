import Ghost.Agent.LifeCycleSafety
import Ghost.Lib.Holder

/-!
# In-place upgrades

What the kernel gives to one agent process at a time is in the hands of at most one, so that no
process finds `agent_online` open or an attach point taken once its agents have all CPUs.
-/

set_option autoImplicit false

namespace Ghost.Agent

open Lib

/-! ## What a step takes and gives back -/

/-- The thread is the agent of its CPU, as far as the kernel is concerned. -/
def AgentPc.InGhost (pc : AgentPc) : Prop := 3 ≤ pc.rank ∧ pc.rank ≠ 11

instance (pc : AgentPc) : Decidable pc.InGhost := inferInstanceAs (Decidable (_ ∧ _))

/-- The process has `agent_online` open. -/
def MainPc.hasOnline {Cpu Eat : Type} : MainPc Cpu Eat → Bool
  | .setOnline | .serving | .setOffline | .closeOnline => true
  | _ => false

section Processes

variable {Cpu Eat : Type} [DecidableEq Cpu] {enclave : EnclaveCpus Cpu} {registry : List Eat}
  {process process' : Process Cpu Eat} {call : KernelCall Cpu Eat} {pc : MainPc Cpu Eat}

private theorem Process.setAgent_pc {head : Cpu} {agent : AgentState}
    (same : agent.pc = (process.agent head).pc) (cpu : Cpu) :
    ((process.setAgent head agent).agent cpu).pc = (process.agent cpu).pc := by
  by_cases isHead : cpu = head
  · subst isHead
    rw [Process.setAgent_agent, same]
  · exact congrArg AgentState.pc (Function.update_of_ne isHead _ _)

private theorem Process.notify_pc {head : Cpu} {notified : Bool} {agent : AgentState}
    (same : agent.pc = (process.agent head).pc) (cpu : Cpu) :
    ((process.notify head notified agent pc).agent cpu).pc = (process.agent cpu).pc := by
  unfold Process.notify
  split
  · rfl
  · exact Process.setAgent_pc same cpu

/-- The calls of the threads that tell on whether an agent is in ghOSt. -/
def KernelCall.moves : KernelCall Cpu Eat → Option Cpu
  | .enterGhost cpu true | .taskDead cpu => some cpu
  | _ => none

/-- An agent thread makes only itself move. -/
theorem Process.AgentStep.agent_of_ne {head cpu : Cpu} {before : AgentPc}
    (stepped : process.AgentStep head before call process') (different : cpu ≠ head) :
    process'.agent cpu = process.agent cpu := by
  cases stepped with
  | attachRep => split <;> exact Function.update_of_ne different _ _
  | _ => exact Function.update_of_ne different _ _

private theorem Process.AgentStep.moves {cpu : Cpu} {before : AgentPc}
    (stepped : process.AgentStep cpu before call process') :
    call.moves = none ∨ call.moves = some cpu := by
  cases stepped with
  | @enterGhost entered =>
      cases entered with
      | false => exact .inl rfl
      | true => exact .inr rfl
  | taskDead => exact .inr rfl
  | _ => exact .inl rfl

private theorem Process.AgentStep.inGhost {cpu : Cpu} {before : AgentPc}
    (stepped : process.AgentStep cpu before call process')
    (at_ : (process.agent cpu).pc = before) (stays : call.moves = none) :
    (process'.agent cpu).pc.InGhost ↔ before.InGhost := by
  cases stepped with
  | @enterGhost entered =>
      cases entered with
      | false => simp [Process.goTo_agent, AgentPc.InGhost, AgentState.setPc]
      | true => cases stays
  | attachRep => split <;> simp [Process.goTo_agent, AgentPc.InGhost, AgentState.setPc]
  | attachList => simp [Process.goTo_agent, AgentPc.InGhost, AgentState.setPc]
  | signalReady =>
      rw [Process.setAgent_agent]
      split <;> simp [AgentPc.InGhost, AgentState.setPc]
  | pinged => simp [Process.setAgent_agent, AgentPc.InGhost, AgentState.setPc]
  | checkFinished => split <;> simp [Process.goTo_agent, AgentPc.InGhost, AgentState.setPc]
  | taskDead => cases stays
  | _ => simp [Process.goTo_agent, AgentPc.InGhost, AgentState.setPc]

theorem Process.Sound.stage_zero (sound : process.Sound enclave) {cpu : Cpu}
    (stage : process.pc.stage cpu = 0) : (process.agent cpu).pc.rank = 0 := by
  by_cases member : cpu ∈ enclave.cpus
  · exact (sound.paired cpu member).begun.mpr stage
  · exact congrArg AgentPc.rank (sound.outside cpu member)

theorem Process.AgentStep.main {head : Cpu} {before : AgentPc}
    (stepped : process.AgentStep head before call process') :
    process'.pc = process.pc ∧ process'.inserted = process.inserted ∧
      process'.isOnline = process.isOnline := by
  cases stepped with
  | attachRep => split <;> exact ⟨rfl, rfl, rfl⟩
  | _ => exact ⟨rfl, rfl, rfl⟩

/-- The calls that open or close `agent_online`. -/
def KernelCall.turns : KernelCall Cpu Eat → Bool
  | .openOnline true | .closeOnline => true
  | _ => false

private theorem Process.AgentStep.turns {head : Cpu} {before : AgentPc}
    (stepped : process.AgentStep head before call process') : call.turns = false := by
  cases stepped <;> rfl

/-- The attach point that a call takes or gives back. -/
def KernelCall.link : KernelCall Cpu Eat → Option Eat
  | .insertBpf eat true | .destroyBpf eat => some eat
  | _ => none

private theorem Process.AgentStep.link {head : Cpu} {before : AgentPc}
    (stepped : process.AgentStep head before call process') : call.link = none := by
  cases stepped <;> rfl

variable [DecidableEq Eat]

/-- The main thread makes no agent thread move, but for those that it starts. -/
theorem Process.MainStep.agent_pc (stepped : process.MainStep enclave registry pc call process')
    (cpu : Cpu) : ((process'.agent cpu).pc = (process.agent cpu).pc) ∨
      pc.stage cpu = 0 ∧ (process'.agent cpu).pc = .waitForOldAgent ⟨.open, false⟩ := by
  cases stepped with
  | @startBegin head rest =>
      by_cases isHead : cpu = head
      · subst isHead
        exact .inr ⟨by simp, congrArg AgentState.pc Process.goTo_agent⟩
      · exact .inl (congrArg AgentState.pc (Function.update_of_ne isHead _ _))
  | insertBpf => split <;> exact .inl rfl
  | enclaveReady =>
      left
      split
      · apply Process.notify_pc
        rfl
      · rfl
  | notifyFinished =>
      left
      apply Process.notify_pc
      rfl
  | @ping head rest ran =>
      left
      apply Process.setAgent_pc
      cases ran <;> rfl
  | notifyExit =>
      left
      apply Process.notify_pc
      rfl
  | _ => exact .inl rfl

private theorem Process.MainStep.moves
    (stepped : process.MainStep enclave registry pc call process') :
    call.moves = none := by
  cases stepped <;> rfl

/-- What the kernel has been told of an agent changes only by the calls about it. -/
theorem Process.Step.inGhost (stepped : process.Step enclave registry call process')
    (sound : process.Sound enclave) {cpu : Cpu} (stays : call.moves ≠ some cpu) :
    (process'.agent cpu).pc.InGhost ↔ (process.agent cpu).pc.InGhost := by
  cases stepped with
  | main moved =>
      obtain same | ⟨stage, started⟩ := moved.agent_pc cpu
      · rw [same]
      · unfold AgentPc.InGhost
        rw [started, sound.stage_zero stage]
        decide
  | @agent head _ _ moved =>
      by_cases isHead : cpu = head
      · subst isHead
        exact moved.inGhost rfl (moved.moves.resolve_right stays)
      · rw [moved.agent_of_ne isHead]
  | kill => exact Iff.rfl

private theorem Process.Step.entersGhost {cpu : Cpu}
    (stepped : process.Step enclave registry (.enterGhost cpu true) process') :
    (process'.agent cpu).pc.InGhost := by
  cases stepped with
  | main moved => cases moved.moves
  | @agent head _ _ moved =>
      obtain impossible | same := moved.moves
      · cases impossible
      · cases same
        generalize (process.agent cpu).pc = before at moved
        cases moved with
        | enterGhost => simp [Process.goTo_agent, AgentPc.InGhost, AgentState.setPc]

theorem Process.Step.taskDead {cpu : Cpu}
    (stepped : process.Step enclave registry (.taskDead cpu) process') :
    (process.agent cpu).pc = .exiting ∧ ¬(process'.agent cpu).pc.InGhost := by
  cases stepped with
  | main moved => cases moved.moves
  | @agent head _ _ moved =>
      obtain impossible | same := moved.moves
      · cases impossible
      · cases same
        generalize (process.agent cpu).pc = before at moved ⊢
        cases moved with
        | taskDead => simp [Process.goTo_agent, AgentPc.InGhost, AgentState.setPc]

private theorem Process.Step.hasOnline (stepped : process.Step enclave registry call process')
    (stays : call.turns = false) : process'.pc.hasOnline = process.pc.hasOnline := by
  cases stepped with
  | main moved =>
      generalize at_ : process.pc = pc at moved ⊢
      cases moved with
      | insertBpf => split <;> rfl
      | @enclaveReady cpu rest =>
          unfold Process.notify
          split_ifs <;> rfl
      | @openOnline opened =>
          cases opened with
          | false => rfl
          | true => cases stays
      | closeOnline => cases stays
      | notifyFinished =>
          unfold Process.notify
          split <;> rfl
      | notifyExit =>
          unfold Process.notify
          split <;> rfl
      | _ => rfl
  | agent moved => rw [moved.main.1]
  | kill => rfl

private theorem Process.Step.opensOnline
    (stepped : process.Step enclave registry (.openOnline true) process') :
    process'.pc.hasOnline = true := by
  cases stepped with
  | main moved =>
      generalize process.pc = pc at moved
      cases moved with
      | openOnline => rfl
  | agent moved => cases moved.turns

private theorem Process.Step.closesOnline
    (stepped : process.Step enclave registry .closeOnline process') :
    process.pc.hasOnline = true ∧ process'.pc.hasOnline = false := by
  cases stepped with
  | main moved =>
      generalize process.pc = pc at moved ⊢
      cases moved with
      | closeOnline => exact ⟨rfl, rfl⟩
  | agent moved => cases moved.turns

omit [DecidableEq Cpu] in
private theorem Process.setInserted_inserted {eat : Eat} {inserted : Bool} :
    (process.setInserted eat inserted).inserted eat = inserted :=
  Function.update_self ..

omit [DecidableEq Cpu] in
private theorem Process.setInserted_of_ne {eat other : Eat} {inserted : Bool}
    (different : other ≠ eat) :
    (process.setInserted eat inserted).inserted other = process.inserted other :=
  Function.update_of_ne different ..

private theorem Process.Step.inserted (stepped : process.Step enclave registry call process')
    {eat : Eat}
    (stays : call.link ≠ some eat) : process'.inserted eat = process.inserted eat := by
  cases stepped with
  | main moved =>
      generalize process.pc = pc at moved
      cases moved with
      | @insertBpf head rest inserted =>
          cases inserted with
          | false => rfl
          | true => exact Function.update_of_ne (fun same => stays (congrArg some same.symm)) _ _
      | enclaveReady =>
          unfold Process.notify
          split_ifs <;> rfl
      | destroyBpf =>
          exact Function.update_of_ne (fun same => stays (congrArg some same.symm)) _ _
      | notifyFinished =>
          unfold Process.notify
          split <;> rfl
      | notifyExit =>
          unfold Process.notify
          split <;> rfl
      | _ => rfl
  | agent moved => rw [moved.main.2.1]
  | kill => rfl

private theorem Process.Step.insertsBpf {eat : Eat}
    (stepped : process.Step enclave registry (.insertBpf eat true) process') :
    process'.inserted eat = true := by
  cases stepped with
  | main moved =>
      generalize process.pc = pc at moved
      cases moved with
      | insertBpf => exact Process.setInserted_inserted
  | agent moved => cases moved.link

private theorem Process.Step.destroysBpf {eat : Eat}
    (stepped : process.Step enclave registry (.destroyBpf eat) process') :
    process.inserted eat = true ∧ process'.inserted eat = false := by
  cases stepped with
  | main moved =>
      generalize process.pc = pc at moved
      cases moved with
      | destroyBpf isInserted =>
          exact ⟨isInserted, Process.setInserted_inserted⟩
  | agent moved => cases moved.link

/-! ## Programs and flags of a process -/

/-- Which programs are inserted, by where the main thread stands. -/
def MainPc.Links (registry : List Eat) (inserted : Eat → Bool) : MainPc Cpu Eat → Prop
  | .insertBpf rest => rest ⊆ registry ∧ (∀ eat, inserted eat = true → eat ∈ registry) ∧
      ∀ eat ∈ registry, eat ∈ rest ∨ inserted eat = true
  | .discoverTasks | .enclaveReady _ | .openOnline | .setOnline | .serving | .setOffline
  | .closeOnline => ∀ eat, inserted eat = true ↔ eat ∈ registry
  | .destroyBpf rest => ∀ eat, inserted eat = true → eat ∈ rest
  | .failed => True
  | _ => ∀ eat, inserted eat = false

/-- What `IsOnline` says, by where the main thread stands. -/
def MainPc.isOnline : MainPc Cpu Eat → Bool
  | .serving | .setOffline => true
  | _ => false

structure Process.Tracked (registry : List Eat) (process : Process Cpu Eat) : Prop where
  links : process.pc.Links registry process.inserted
  isOnline : process.pc ≠ .failed → process.isOnline = process.pc.isOnline

private theorem Process.Tracked.mainStep (tracked : process.Tracked registry)
    (stepped : process.MainStep enclave registry process.pc call process') :
    process'.Tracked registry := by
  obtain ⟨links, isOnline⟩ := tracked
  generalize process.pc = pc at stepped links isOnline
  cases stepped with
  | lockWhen =>
      refine ⟨⟨List.Subset.refl _, fun eat inserted => ?_, fun eat member => .inl member⟩,
        fun _ => isOnline (by simp)⟩
      cases (links eat).symm.trans inserted
  | @insertBpf eat rest inserted notInserted =>
      obtain ⟨subset, registered, reached⟩ := links
      cases inserted with
      | false => exact ⟨⟨List.Subset.refl _, registered, fun eat member => .inl member⟩,
          fun _ => isOnline (by simp)⟩
      | true =>
          refine ⟨⟨fun other member => subset (List.mem_cons_of_mem _ member), ?_, ?_⟩,
            fun _ => isOnline (by simp)⟩
          · intro other inserted
            by_cases same : other = eat
            · exact same ▸ subset List.mem_cons_self
            · exact registered other ((Process.setInserted_of_ne same).symm.trans inserted)
          · intro other member
            by_cases same : other = eat
            · exact .inr (same ▸ Process.setInserted_inserted)
            · obtain later | inserted := reached other member
              · exact .inl ((List.mem_cons.mp later).resolve_left same)
              · exact .inr ((Process.setInserted_of_ne same).trans inserted)
  | @alreadyInserted eat rest isInserted =>
      obtain ⟨subset, registered, reached⟩ := links
      refine ⟨⟨fun other member => subset (List.mem_cons_of_mem _ member), registered, ?_⟩,
        fun _ => isOnline (by simp)⟩
      intro other member
      obtain later | inserted := reached other member
      · obtain rfl | later := List.mem_cons.mp later
        · exact .inr isInserted
        · exact .inl later
      · exact .inr inserted
  | insertedAll =>
      obtain ⟨-, registered, reached⟩ := links
      refine ⟨fun eat => ⟨registered eat, fun member => ?_⟩, fun _ => isOnline (by simp)⟩
      exact (reached eat member).resolve_left List.not_mem_nil
  | enclaveReady =>
      unfold Process.notify
      split_ifs
      · exact ⟨trivial, fun alive => absurd rfl alive⟩
      · exact ⟨links, fun _ => isOnline (by simp)⟩
      · exact ⟨trivial, fun alive => absurd rfl alive⟩
  | @openOnline opened =>
      cases opened with
      | false => exact ⟨trivial, fun alive => absurd rfl alive⟩
      | true => exact ⟨links, fun _ => isOnline (by simp)⟩
  | setOnline => exact ⟨links, fun _ => rfl⟩
  | setOffline => exact ⟨links, fun _ => rfl⟩
  | closeOnline => exact ⟨fun eat => (links eat).mp, fun _ => isOnline (by simp)⟩
  | @destroyBpf eat rest isInserted =>
      refine ⟨fun other inserted => ?_, fun _ => isOnline (by simp)⟩
      have different : other ≠ eat := by
        intro same
        subst same
        cases Process.setInserted_inserted.symm.trans inserted
      have member := links other ((Process.setInserted_of_ne different).symm.trans inserted)
      exact (List.mem_cons.mp member).resolve_left different
  | @notInserted eat rest notInserted =>
      refine ⟨fun other inserted => ?_, fun _ => isOnline (by simp)⟩
      refine (List.mem_cons.mp (links other inserted)).resolve_left fun same => ?_
      subst same
      cases notInserted.symm.trans inserted
  | destroyedAll =>
      refine ⟨fun eat => ?_, fun _ => isOnline (by simp)⟩
      exact Bool.eq_false_of_not_eq_true fun inserted => List.not_mem_nil (links eat inserted)
  | notifyFinished =>
      unfold Process.notify
      split
      · exact ⟨trivial, fun alive => absurd rfl alive⟩
      · exact ⟨links, fun _ => isOnline (by simp)⟩
  | notifyExit =>
      unfold Process.notify
      split
      · exact ⟨trivial, fun alive => absurd rfl alive⟩
      · exact ⟨links, fun _ => isOnline (by simp)⟩
  | _ => exact ⟨links, fun _ => isOnline (by simp)⟩

theorem Process.Tracked.step (tracked : process.Tracked registry)
    (stepped : process.Step enclave registry call process') : process'.Tracked registry := by
  cases stepped with
  | main moved => exact tracked.mainStep moved
  | agent moved =>
      obtain ⟨pc, inserted, isOnline⟩ := moved.main
      refine ⟨?_, ?_⟩
      · rw [pc, inserted]
        exact tracked.links
      · rw [pc, isOnline]
        exact tracked.isOnline
  | kill => exact ⟨tracked.links, tracked.isOnline⟩

end Processes

/-! ## The host -/

section Hosts

variable {Proc Cpu Eat : Type} [DecidableEq Cpu] {enclave : EnclaveCpus Cpu}
  {registry : Proc → List Eat} {host next : Host Proc Cpu Eat} {call : KernelCall Cpu Eat}
  {label : Proc × KernelCall Cpu Eat}

omit [DecidableEq Cpu] in
theorem AgentState.onlineChanged_rank (agent : AgentState) :
    agent.onlineChanged.pc.rank = agent.pc.rank := by
  unfold AgentState.onlineChanged
  cases at_ : agent.pc with
  | waitForOldAgent watch => rfl
  | _ => exact congrArg AgentPc.rank at_

private theorem Process.Sound.onlineChanged {process : Process Cpu Eat}
    (sound : process.Sound enclave) :
    process.onlineChanged.Sound enclave := by
  refine ⟨sound.unique, sound.inEnclave, sound.alive, ?_, ?_, sound.agentsUnique,
    sound.agentsInEnclave⟩
  · exact fun cpu member => (sound.paired cpu member).onlineChanged
  · intro cpu isOutside
    show (process.agent cpu).onlineChanged.pc = .unborn
    unfold AgentState.onlineChanged
    rw [sound.outside cpu isOutside]
    exact sound.outside cpu isOutside

/-- The threads of a process do not leave ghOSt before they are to end. -/
theorem Paired.inGhost {stage : Nat} {agent : AgentState} {rep listed : Bool}
    (paired : Paired stage agent rep listed) (started : 2 ≤ stage) (stays : stage ≤ 6) :
    agent.pc.InGhost := by
  have signalled := paired.started started
  refine ⟨by omega, fun freed => ?_⟩
  have exits := paired.exits (by omega)
  omega

theorem MainPc.stage_of_hasOnline {pc : MainPc Cpu Eat} {cpu : Cpu}
    (hasOnline : pc.hasOnline = true) : pc.stage cpu = 4 := by
  cases pc <;> first | rfl | cases hasOnline

structure Host.Sound (enclave : EnclaveCpus Cpu) (registry : Proc → List Eat)
    (host : Host Proc Cpu Eat) : Prop where
  process : ∀ proc, (host.process proc).Sound enclave
  tracked : ∀ proc, (host.process proc).Tracked (registry proc)
  agentOf : ∀ cpu, Held (host.agentOf cpu) fun proc =>
    ((host.process proc).agent cpu).pc.InGhost
  online : Held host.online fun proc => (host.process proc).pc.hasOnline = true
  links : ∀ eat, Held (host.links eat) fun proc => (host.process proc).inserted eat = true

/-- A process whose agents have all CPUs finds `agent_online` closed. -/
theorem Host.Sound.opens (sound : host.Sound enclave registry) {proc : Proc}
    (atOpen : (host.process proc).pc = .openOnline) : host.online = none := by
  cases holder : host.online with
  | none => rfl
  | some other =>
      obtain ⟨cpu, member⟩ := List.exists_mem_of_ne_nil enclave.cpus enclave.nonempty
      have hasOnline := (sound.online other).mp holder
      have inGhost : ∀ proc, (host.process proc).pc.stage cpu = 4 →
          ((host.process proc).agent cpu).pc.InGhost := fun proc stage =>
        ((sound.process proc).paired cpu member).inGhost (by omega) (by omega)
      have same := (sound.agentOf cpu).unique (inGhost proc (by rw [atOpen]; rfl))
        (inGhost other (MainPc.stage_of_hasOnline hasOnline))
      subst same
      rw [atOpen] at hasOnline
      cases hasOnline

variable [DecidableEq Eat]

private theorem Process.Step.atOpen {process process' : Process Cpu Eat} {programs : List Eat}
    {opened : Bool} (stepped : process.Step enclave programs (.openOnline opened) process') :
    process.pc = .openOnline := by
  cases stepped with
  | main moved =>
      generalize process.pc = pc at moved
      cases moved
      rfl
  | agent moved =>
      generalize (process.agent _).pc = before at moved
      cases moved

theorem Process.Sound.step {process process' : Process Cpu Eat} {programs : List Eat}
    (sound : process.Sound enclave) (stepped : process.Step enclave programs call process')
    (opens : call ≠ .openOnline false) : process'.Sound enclave := by
  cases stepped with
  | main moved => exact sound.mainStep moved opens
  | agent moved => exact sound.agentStep moved
  | kill => exact sound.setKillAgent

/-- What the kernel does may only be heard by those who wait for `agent_online`. -/
theorem Host.effect_process (host : Host Proc Cpu Eat) (proc other : Proc) :
    (host.effect proc call).process other = host.process other ∨
      (host.effect proc call).process other = (host.process other).onlineChanged := by
  cases call with
  | enterGhost cpu entered => cases entered <;> exact .inl rfl
  | openOnline opened =>
      cases opened with
      | false => exact .inl rfl
      | true => exact .inr rfl
  | closeOnline => exact .inr rfl
  | insertBpf eat inserted => cases inserted <;> exact .inl rfl
  | _ => exact .inl rfl

/-- The processes say the same of themselves, but for what their epolls have to report. -/
structure Process.Alike (process process' : Process Cpu Eat) : Prop where
  pc : process'.pc = process.pc
  inserted : process'.inserted = process.inserted
  rank : ∀ cpu, (process'.agent cpu).pc.rank = (process.agent cpu).pc.rank

private theorem Host.effect_alike (host : Host Proc Cpu Eat) (proc other : Proc) :
    (host.process other).Alike ((host.effect proc call).process other) := by
  obtain same | changed := @Host.effect_process _ _ _ _ call _ host proc other
  · rw [same]
    exact ⟨rfl, rfl, fun _ => rfl⟩
  · rw [changed]
    exact ⟨rfl, rfl, fun cpu => AgentState.onlineChanged_rank _⟩

theorem Host.effect_agentOf {proc : Proc} {cpu : Cpu} (stays : call.moves ≠ some cpu) :
    (host.effect proc call).agentOf cpu = host.agentOf cpu := by
  cases call with
  | enterGhost head entered =>
      cases entered with
      | false => rfl
      | true => exact Function.update_of_ne (fun same => stays (congrArg some same.symm)) _ _
  | taskDead head => exact Function.update_of_ne (fun same => stays (congrArg some same.symm)) _ _
  | openOnline opened => cases opened <;> rfl
  | insertBpf eat inserted => cases inserted <;> rfl
  | _ => rfl

theorem Host.effect_online {proc : Proc} (stays : call.turns = false) :
    (host.effect proc call).online = host.online := by
  cases call with
  | enterGhost head entered => cases entered <;> rfl
  | openOnline opened =>
      cases opened with
      | false => rfl
      | true => cases stays
  | closeOnline => cases stays
  | insertBpf eat inserted => cases inserted <;> rfl
  | _ => rfl

private theorem Host.effect_links {proc : Proc} {eat : Eat} (stays : call.link ≠ some eat) :
    (host.effect proc call).links eat = host.links eat := by
  cases call with
  | enterGhost head entered => cases entered <;> rfl
  | openOnline opened => cases opened <;> rfl
  | insertBpf head inserted =>
      cases inserted with
      | false => rfl
      | true => exact Function.update_of_ne (fun same => stays (congrArg some same.symm)) _ _
  | destroyBpf head =>
      exact Function.update_of_ne (fun same => stays (congrArg some same.symm)) _ _
  | _ => rfl

variable [DecidableEq Proc]

section Step

variable {proc : Proc} {process' : Process Cpu Eat}

omit [DecidableEq Cpu] [DecidableEq Eat] in
theorem Host.setProcess_process : (host.setProcess proc process').process proc = process' :=
  Function.update_self ..

omit [DecidableEq Cpu] [DecidableEq Eat] in
theorem Host.setProcess_of_ne {other : Proc} (different : other ≠ proc) :
    (host.setProcess proc process').process other = host.process other :=
  Function.update_of_ne different ..

/-- A step of one process, which the others may hear of. -/
structure Host.Hears (proc : Proc) (process' : Process Cpu Eat) (host next : Host Proc Cpu Eat) :
    Prop where
  self : next.process proc = process' ∨ next.process proc = process'.onlineChanged
  others : ∀ other, other ≠ proc → next.process other = host.process other ∨
    next.process other = (host.process other).onlineChanged

theorem Host.effect_hears {call : KernelCall Cpu Eat} :
    Host.Hears proc process' host ((host.setProcess proc process').effect proc call) := by
  refine ⟨?_, fun other different => ?_⟩
  · have hears := @Host.effect_process _ _ _ _ call _ (host.setProcess proc process') proc proc
    rwa [Host.setProcess_process] at hears
  · have hears := @Host.effect_process _ _ _ _ call _ (host.setProcess proc process') proc
      other
    rwa [Host.setProcess_of_ne different] at hears

theorem Host.Step.hears (stepped : Host.Step enclave registry host label next) :
    ∃ process', (host.process label.1).Step enclave (registry label.1) label.2 process' ∧
      Host.Hears label.1 process' host next := by
  cases stepped with
  | @intro proc call process' moved answers => exact ⟨process', moved, Host.effect_hears⟩

/-- What the other processes claim stays, and so does what the kernel holds for `Claims`. -/
theorem Host.claims_step {Claims : Process Cpu Eat → Prop}
    (local_ : ∀ {process process' : Process Cpu Eat}, process.Alike process' →
      (Claims process' ↔ Claims process)) :
    (∀ other, other ≠ proc →
      (Claims (((host.setProcess proc process').effect proc call).process other) ↔
        Claims (host.process other))) ∧
      (Claims (((host.setProcess proc process').effect proc call).process proc) ↔
        Claims process') := by
  refine ⟨fun other different => ?_, ?_⟩
  · rw [local_ (Host.effect_alike _ proc other), Host.setProcess_of_ne different]
  · rw [local_ (Host.effect_alike _ proc proc), Host.setProcess_process]

variable (sound : host.Sound enclave registry)
  (moved : (host.process proc).Step enclave (registry proc) call process')
  (answers : host.Answers call)

include sound moved answers

theorem Host.Sound.agentOf_step (cpu : Cpu) :
    Held (((host.setProcess proc process').effect proc call).agentOf cpu) fun other =>
      (((((host.setProcess proc process').effect proc call).process other).agent cpu).pc.InGhost :
        Prop) := by
  obtain ⟨others, self⟩ := @Host.claims_step _ _ _ _ host call _ _ proc process'
    (fun process => (process.agent cpu).pc.InGhost) (fun alike => by
      simp only [AgentPc.InGhost, alike.rank cpu])
  have held := sound.agentOf cpu
  by_cases stays : call.moves = some cpu
  · cases call with
    | enterGhost head entered =>
        cases entered with
        | false => cases stays
        | true =>
            cases stays
            rw [show ((host.setProcess proc process').effect proc
              (.enterGhost cpu true)).agentOf cpu = some proc from Function.update_self ..]
            exact held.acquire (Option.isNone_iff_eq_none.mp answers) (self.mpr moved.entersGhost)
              others
    | taskDead head =>
        cases stays
        rw [show ((host.setProcess proc process').effect proc
          (.taskDead cpu)).agentOf cpu = none from Function.update_self ..]
        obtain ⟨exiting, gone⟩ := moved.taskDead
        refine held.release ?_ (self.not.mpr gone) others
        rw [exiting]
        decide
    | _ => cases stays
  · rw [Host.effect_agentOf stays]
    apply held.frame
    intro other
    by_cases isProc : other = proc
    · subst isProc
      exact self.trans (moved.inGhost (sound.process other) stays)
    · exact others other isProc

theorem Host.Sound.online_step :
    Held ((host.setProcess proc process').effect proc call).online fun other =>
      (((host.setProcess proc process').effect proc call).process other).pc.hasOnline =
        true := by
  obtain ⟨others, self⟩ := @Host.claims_step _ _ _ _ host call _ _ proc process'
    (fun process => process.pc.hasOnline = true) (fun alike => by rw [alike.pc])
  have held := sound.online
  by_cases stays : call.turns = true
  · cases call with
    | openOnline opened =>
        cases opened with
        | false => cases stays
        | true =>
            exact held.acquire (Option.isNone_iff_eq_none.mp answers)
              (self.mpr moved.opensOnline) others
    | closeOnline =>
        refine held.release moved.closesOnline.1 (self.not.mpr ?_) others
        rw [moved.closesOnline.2]
        exact Bool.false_ne_true
    | _ => cases stays
  · have stays := Bool.eq_false_of_not_eq_true stays
    rw [Host.effect_online stays]
    apply held.frame
    intro other
    by_cases isProc : other = proc
    · subst isProc
      exact self.trans (by rw [moved.hasOnline stays])
    · exact others other isProc

theorem Host.Sound.links_step (eat : Eat) :
    Held (((host.setProcess proc process').effect proc call).links eat) fun other =>
      (((host.setProcess proc process').effect proc call).process other).inserted eat =
        true := by
  obtain ⟨others, self⟩ := @Host.claims_step _ _ _ _ host call _ _ proc process'
    (fun process => process.inserted eat = true) (fun alike => by rw [alike.inserted])
  have held := sound.links eat
  by_cases stays : call.link = some eat
  · cases call with
    | insertBpf head inserted =>
        cases inserted with
        | false => cases stays
        | true =>
            cases stays
            rw [show ((host.setProcess proc process').effect proc
              (.insertBpf eat true)).links eat = some proc from Function.update_self ..]
            exact held.acquire (Option.isNone_iff_eq_none.mp answers) (self.mpr moved.insertsBpf)
              others
    | destroyBpf head =>
        cases stays
        rw [show ((host.setProcess proc process').effect proc
          (.destroyBpf eat)).links eat = none from Function.update_self ..]
        refine held.release moved.destroysBpf.1 (self.not.mpr ?_) others
        rw [moved.destroysBpf.2]
        exact Bool.false_ne_true
    | _ => cases stays
  · rw [Host.effect_links stays]
    apply held.frame
    intro other
    by_cases isProc : other = proc
    · subst isProc
      exact self.trans (by rw [moved.inserted stays])
    · exact others other isProc

end Step

theorem Host.Sound.step (sound : host.Sound enclave registry)
    (stepped : Host.Step enclave registry host label next) :
    next.Sound enclave registry := by
  cases stepped with
  | @intro proc call process' moved answers =>
      have opens : call ≠ .openOnline false := by
        intro same
        subst same
        have isOpen : host.online.isNone = false := answers
        rw [sound.opens moved.atOpen] at isOpen
        cases isOpen
      have sound' := (sound.process proc).step moved opens
      have tracked' := (sound.tracked proc).step moved
      refine ⟨fun other => ?_, fun other => ?_, sound.agentOf_step moved answers,
        sound.online_step moved answers, sound.links_step moved answers⟩
      · have middle : ((host.setProcess proc process').process other).Sound enclave := by
          by_cases same : other = proc
          · subst same
            rw [Host.setProcess_process]
            exact sound'
          · rw [Host.setProcess_of_ne same]
            exact sound.process other
        obtain same | changed := @Host.effect_process _ _ _ _ call _
          (host.setProcess proc process') proc other
        · exact same ▸ middle
        · exact changed ▸ middle.onlineChanged
      · have middle : ((host.setProcess proc process').process other).Tracked
            (registry other) := by
          by_cases same : other = proc
          · subst same
            rw [Host.setProcess_process]
            exact tracked'
          · rw [Host.setProcess_of_ne same]
            exact sound.tracked other
        obtain same | changed := @Host.effect_process _ _ _ _ call _
          (host.setProcess proc process') proc other
        · exact same ▸ middle
        · rw [changed]
          exact ⟨middle.links, middle.isOnline⟩

theorem Host.Initial.sound
    (initial : (lifeCycle Proc enclave registry).initial host) :
    host.Sound enclave registry := by
  obtain ⟨processes, agentOf, online, links⟩ := initial
  refine ⟨fun proc => ?_, fun proc => ?_, fun cpu => ?_, ?_, fun eat => ?_⟩
  · obtain ⟨pc, agent, rep, agents, -, -⟩ := processes proc
    refine ⟨?_, ?_, ?_, ?_, ?_, ?_, ?_⟩
    · rw [pc]
      exact enclave.nodup
    · rw [pc]
      exact List.Subset.refl _
    · simp [pc]
    · intro cpu member
      rw [pc, agent, rep, agents, MainPc.stage, if_pos member]
      exact .unborn
    · intro cpu _
      rw [agent]
      rfl
    · rw [agents]
      exact List.nodup_nil
    · rw [agents]
      exact List.nil_subset _
  · obtain ⟨pc, -, -, -, inserted, isOnline⟩ := processes proc
    refine ⟨?_, fun _ => ?_⟩
    · rw [pc]
      exact inserted
    · rw [pc, isOnline]
      rfl
  · rw [agentOf]
    apply Held.none
    intro proc inGhost
    rw [(processes proc).agent] at inGhost
    exact absurd inGhost.1 (by decide)
  · rw [online]
    apply Held.none
    intro proc hasOnline
    rw [(processes proc).pc] at hasOnline
    cases hasOnline
  · rw [links]
    apply Held.none
    intro proc inserted
    rw [(processes proc).inserted] at inserted
    cases inserted

theorem Host.Sound.of_reachable
    (reachable : (lifeCycle Proc enclave registry).Reachable host) :
    host.Sound enclave registry :=
  reachable.invariant (fun state => state.Sound enclave registry)
    (fun _ initial => Host.Initial.sound initial) fun _ _ _ sound stepped => sound.step stepped

/-! ## Results -/

section Samples

def oneCpu : EnclaveCpus Unit := ⟨[()], List.nodup_singleton (), List.cons_ne_nil () []⟩

private theorem bothCpus_nodup : [false, true].Nodup := by decide

def bothCpus : EnclaveCpus Bool := ⟨[false, true], bothCpus_nodup, List.cons_ne_nil _ _⟩

/-- A process with one program starts up, and its agent yields its CPU. -/
def startUp : List (Unit × Turn Unit) :=
  List.replicate 2 ((), Turn.main) ++ List.replicate 7 ((), Turn.agent () false) ++
    List.replicate 10 ((), Turn.main) ++ [((), Turn.agent () false), ((), Turn.agent () false),
      ((), Turn.agent () true)]

/-- It then gets as far as the end of `TerminateBegin`. -/
def terminateBegin : List (Unit × Turn Unit) :=
  startUp ++ [((), Turn.kill)] ++ List.replicate 8 ((), Turn.main)

end Samples

/-- The thread runs code of the scheduler, or is about to. -/
def AgentPc.schedules : AgentPc → Bool
  | .loop | .schedule _ | .yielded _ => true
  | _ => false

/-- `DiscoverTasks` is behind the main thread, and no agent has been detached. -/
def MainPc.discovered : MainPc Cpu Eat → Bool
  | .enclaveReady _ | .openOnline | .setOnline | .serving | .setOffline | .closeOnline
  | .destroyBpf _ | .notifyFinished _ | .ping _ _ | .notifyExit _ _ | .join _
  | .waitFree _ _ => true
  | _ => false

omit [DecidableEq Eat] [DecidableEq Proc] in
private theorem MainPc.discovered_of_stage {pc : MainPc Cpu Eat} {cpu : Cpu}
    (released : 4 ≤ pc.stage cpu)
    (stays : pc.stage cpu < 8) :
    pc.discovered = true ∧ ∀ other, 2 ≤ pc.stage other ∧ pc.stage other < 10 := by
  cases pc <;> simp only [MainPc.stage] at released stays <;>
    first
      | exact ⟨rfl, fun other => by simp only [MainPc.stage]; grind -ring -linarith⟩
      | grind -ring -linarith

/-- While any agent thread runs scheduler code, Discovery is over and every CPU of the enclave has
an agent that `GetAgent` finds. -/
theorem scheduling_after_discovery
    (reachable : (lifeCycle Proc enclave registry).Reachable host) {proc : Proc} {cpu : Cpu}
    (schedules : ((host.process proc).agent cpu).pc.schedules = true) :
    (host.process proc).pc.discovered = true ∧
      ∀ other ∈ enclave.cpus, (host.process proc).rep other = true := by
  have sound := (Host.Sound.of_reachable reachable).process proc
  have rank : ((host.process proc).agent cpu).pc.rank = 7 := by
    generalize ((host.process proc).agent cpu).pc = pc at schedules
    cases pc <;> first | rfl | cases schedules
  have member : cpu ∈ enclave.cpus := by
    by_contra isOutside
    rw [sound.outside cpu isOutside] at schedules
    cases schedules
  have paired := sound.paired cpu member
  have released := paired.released (by omega)
  have notJoined : (host.process proc).pc.stage cpu < 8 := by
    by_contra joined
    have returned := paired.joined (by omega)
    omega
  obtain ⟨discovered, stages⟩ := MainPc.discovered_of_stage released notJoined
  refine ⟨discovered, fun other isMember => ?_⟩
  have started := (sound.paired other isMember).started (stages other).1
  exact (sound.paired other isMember).rep.mpr ⟨by omega, (stages other).2⟩

theorem scheduling_after_discovery_yielded :
    ∃ host : Host Unit Unit Unit,
      (lifeCycle Unit oneCpu fun _ => [()]).Reachable host ∧
      (host.process ()).pc.discovered = true ∧
      ∀ other ∈ oneCpu.cpus, (host.process ()).rep other = true := by
  obtain ⟨host, reachable, holds⟩ := @Host.exists_of_any Unit _ _ _ _ _ oneCpu (fun _ => [()])
    (fun host => ((host.process ()).agent ()).pc.schedules) startUp (by decide +kernel)
  exact ⟨host, reachable, scheduling_after_discovery reachable holds⟩

/-- No `CHECK` of the life cycle fails in any process. -/
theorem lifeCycle_checks_hold
    (reachable : (lifeCycle Proc enclave registry).Reachable host) (proc : Proc) :
    (host.process proc).pc ≠ .failed ∧
      ∀ cpu, ((host.process proc).agent cpu).pc ≠ .failed := by
  have sound := (Host.Sound.of_reachable reachable).process proc
  refine ⟨sound.alive, fun cpu failed => ?_⟩
  by_cases member : cpu ∈ enclave.cpus
  · have alive := (sound.paired cpu member).alive
    rw [failed] at alive
    exact absurd alive (by decide)
  · rw [sound.outside cpu member] at failed
    cases failed

theorem lifeCycle_checks_hold_terminating :
    ∃ host : Host Unit Unit Unit,
      (lifeCycle Unit oneCpu fun _ => [()]).Reachable host ∧
      ((host.process ()).agent ()).doExit = true ∧ (host.process ()).pc ≠ .failed ∧
      ∀ cpu, ((host.process ()).agent cpu).pc ≠ .failed := by
  obtain ⟨host, reachable, holds⟩ := @Host.exists_of_any Unit _ _ _ _ _ oneCpu (fun _ => [()])
    (fun host => ((host.process ()).agent ()).doExit) terminateBegin (by decide +kernel)
  exact ⟨host, reachable, holds, lifeCycle_checks_hold reachable ()⟩

omit [DecidableEq Cpu] [DecidableEq Eat] [DecidableEq Proc] in
theorem MainPc.hasOnline_of_isOnline {pc : MainPc Cpu Eat} (isOnline : pc.isOnline = true) :
    pc.hasOnline = true := by
  cases pc <;> first | rfl | cases isOnline

omit [DecidableEq Cpu] [DecidableEq Eat] [DecidableEq Proc] in
private theorem MainPc.Links.of_hasOnline {programs : List Eat} {inserted : Eat → Bool}
    {pc : MainPc Cpu Eat} (links : pc.Links programs inserted) (hasOnline : pc.hasOnline = true)
    (eat : Eat) : inserted eat = true ↔ eat ∈ programs := by
  cases pc <;> first | exact links eat | cases hasOnline

/-- A process that is online has `agent_online`, all CPUs of the enclave and the attach points of
its programs to itself. One that has exited has left nothing behind. -/
theorem online_process_has_enclave
    (reachable : (lifeCycle Proc enclave registry).Reachable host) (proc : Proc) :
    ((host.process proc).isOnline = true →
      host.online = some proc ∧ (∀ cpu ∈ enclave.cpus, host.agentOf cpu = some proc) ∧
        ∀ eat ∈ registry proc, host.links eat = some proc) ∧
      ((host.process proc).pc = .exited →
        host.online ≠ some proc ∧ (∀ cpu, host.agentOf cpu ≠ some proc) ∧
          (∀ eat, host.links eat ≠ some proc) ∧
          ∀ cpu ∈ enclave.cpus, ((host.process proc).agent cpu).pc = .freed ∧
            (host.process proc).rep cpu = false) := by
  have sound := Host.Sound.of_reachable reachable
  have paired := (sound.process proc).paired
  have tracked := sound.tracked proc
  constructor
  · intro isOnline
    have online := tracked.isOnline (sound.process proc).alive
    rw [isOnline] at online
    have hasOnline := MainPc.hasOnline_of_isOnline online.symm
    refine ⟨(sound.online proc).mpr hasOnline, fun cpu member => ?_, fun eat member => ?_⟩
    · have stage := @MainPc.stage_of_hasOnline _ _ _ _ cpu hasOnline
      exact (sound.agentOf cpu proc).mpr ((paired cpu member).inGhost (by omega) (by omega))
    · exact (sound.links eat proc).mpr ((tracked.links.of_hasOnline hasOnline eat).mpr member)
  · intro exited
    have isFreed : ∀ cpu ∈ enclave.cpus, ((host.process proc).agent cpu).pc.rank = 11 := by
      intro cpu member
      have stage : (host.process proc).pc.stage cpu = 11 := by
        rw [exited]
        rfl
      exact le_antisymm (paired cpu member).alive ((paired cpu member).freed (by omega))
    refine ⟨?_, fun cpu => ?_, fun eat => ?_, fun cpu member => ⟨?_, ?_⟩⟩
    · intro holds
      have hasOnline : (host.process proc).pc.hasOnline = true := (sound.online proc).mp holds
      rw [exited] at hasOnline
      cases hasOnline
    · intro holds
      have inGhost : ((host.process proc).agent cpu).pc.InGhost :=
        (sound.agentOf cpu proc).mp holds
      by_cases member : cpu ∈ enclave.cpus
      · exact inGhost.2 (isFreed cpu member)
      · have outside := inGhost.1
        rw [(sound.process proc).outside cpu member] at outside
        exact absurd outside (by decide)
    · intro holds
      have inserted : (host.process proc).inserted eat = true := (sound.links eat proc).mp holds
      have links := tracked.links
      rw [exited] at links
      cases (links eat).symm.trans inserted
    · have rank := isFreed cpu member
      generalize ((host.process proc).agent cpu).pc = pc at rank
      cases pc <;> first | rfl | cases rank
    · apply Bool.eq_false_of_not_eq_true
      rw [(paired cpu member).rep, exited]
      simp

theorem online_process_has_enclave_served :
    ∃ host : Host Unit Unit Unit,
      (lifeCycle Unit oneCpu fun _ => [()]).Reachable host ∧ host.online = some () ∧
        (∀ cpu ∈ oneCpu.cpus, host.agentOf cpu = some ()) ∧
        ∀ eat ∈ [()], host.links eat = some () := by
  obtain ⟨host, reachable, holds⟩ := @Host.exists_of_any Unit _ _ _ _ _ oneCpu (fun _ => [()])
    (fun host => (host.process ()).isOnline) startUp (by decide +kernel)
  exact ⟨host, reachable, (online_process_has_enclave reachable ()).1 holds⟩

end Hosts

end Ghost.Agent
