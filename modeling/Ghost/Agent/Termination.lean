import Ghost.Agent.Upgrade

/-!
# The end of an agent thread

`TerminateBegin` notifies `finished_`, pings the agent, and does not look at the result. A `Ping`
that succeeds makes an agent that has given up its CPU look at `Finished()` again. One that fails
leaves it to the next message.
-/

set_option autoImplicit false

namespace Ghost.Agent

open Lib

/-- The loop has found that the agent is not to end. -/
def AgentPc.unaware : AgentPc → Bool
  | .schedule false | .yielded false => true
  | _ => false

/-- What the main thread may do to an agent, other than make it start. -/
structure AgentState.Keeps (agent agent' : AgentState) : Prop where
  finished : agent.finished = true → agent'.finished = true
  doExit : agent.doExit = true → agent'.doExit = true
  pinged : agent.pinged = true → agent'.pinged = true
  unaware : agent'.pc.unaware = true → agent.pc.unaware = true

private theorem AgentState.Keeps.refl (agent : AgentState) : agent.Keeps agent := ⟨id, id, id, id⟩

/-- The agent is to end, and does not give up its CPU for good before it has seen that. -/
structure AgentState.Woken (agent : AgentState) : Prop where
  finished : agent.finished = true
  pinged : agent.pc.unaware = true → agent.pinged = true

private theorem AgentState.Woken.keeps {agent agent' : AgentState} (woken : agent.Woken)
    (keeps : agent.Keeps agent') : agent'.Woken :=
  ⟨keeps.finished woken.finished,
    fun unaware => keeps.pinged (woken.pinged (keeps.unaware unaware))⟩

private theorem AgentState.onlineChanged_keeps (agent : AgentState) :
    agent.Keeps agent.onlineChanged := by
  unfold AgentState.onlineChanged
  split
  · exact ⟨id, id, id, fun unaware => by cases unaware⟩
  · exact .refl agent

section Processes

variable {Cpu Eat : Type} [DecidableEq Cpu] {enclave : EnclaveCpus Cpu} {programs : List Eat}
  {process process' : Process Cpu Eat} {call : KernelCall Cpu Eat} {pc : MainPc Cpu Eat}

private theorem Process.setAgent_keeps {head : Cpu} {agent : AgentState}
    (keeps : (process.agent head).Keeps agent) (cpu : Cpu) :
    (process.agent cpu).Keeps ((process.setAgent head agent).agent cpu) := by
  by_cases isHead : cpu = head
  · subst isHead
    rw [Process.setAgent_agent]
    exact keeps
  · rw [show (process.setAgent head agent).agent cpu = process.agent cpu from
      Function.update_of_ne isHead _ _]
    exact .refl _

private theorem Process.notify_keeps {head : Cpu} {notified : Bool} {agent : AgentState}
    (keeps : (process.agent head).Keeps agent) (cpu : Cpu) :
    (process.agent cpu).Keeps ((process.notify head notified agent pc).agent cpu) := by
  unfold Process.notify
  split
  · exact .refl _
  · exact Process.setAgent_keeps keeps cpu

private theorem AgentState.ping_keeps (agent : AgentState) (ran : Bool) :
    agent.Keeps (agent.ping ran) := by
  cases ran with
  | false => exact .refl agent
  | true => exact ⟨id, id, fun _ => rfl, id⟩

private theorem Process.AgentStep.woken {cpu : Cpu} (woken : (process.agent cpu).Woken)
    (stepped : process.AgentStep cpu (process.agent cpu).pc call process') :
    (process'.agent cpu).Woken := by
  obtain ⟨finished, pinged⟩ := woken
  generalize at_ : (process.agent cpu).pc = pc at stepped pinged
  have aware : ∀ pc : AgentPc, pc.unaware = false → ((process.agent cpu).setPc pc).Woken := by
    intro pc isAware
    exact ⟨finished, fun unaware => by cases isAware.symm.trans unaware⟩
  cases stepped with
  | schedule reads =>
      rw [Process.goTo_agent, ← reads, finished]
      exact aware _ rfl
  | @yield finished' =>
      rw [Process.goTo_agent]
      exact ⟨finished, fun unaware => pinged (by cases finished' <;> exact unaware)⟩
  | pinged =>
      rw [Process.setAgent_agent]
      exact ⟨finished, fun unaware => by cases unaware⟩
  | @enterGhost entered =>
      rw [Process.goTo_agent]
      cases entered <;> exact aware _ rfl
  | attachRep => split <;> rw [Process.goTo_agent] <;> exact aware _ rfl
  | signalReady =>
      rw [Process.setAgent_agent]
      split
      · exact aware _ rfl
      · exact ⟨finished, fun unaware => by cases unaware⟩
  | checkFinished =>
      rw [Process.goTo_agent, if_pos finished]
      exact aware _ rfl
  | attachList =>
      rw [Process.goTo_agent]
      exact ⟨finished, fun unaware => by cases unaware⟩
  | _ =>
      rw [Process.goTo_agent]
      exact aware _ rfl

variable [DecidableEq Eat]

private theorem Process.MainStep.keeps
    (stepped : process.MainStep enclave programs pc call process')
    (cpu : Cpu) : (process.agent cpu).Keeps (process'.agent cpu) := by
  cases stepped with
  | startBegin =>
      apply Process.setAgent_keeps
      exact ⟨id, id, id, fun unaware => by cases unaware⟩
  | insertBpf => split <;> exact .refl _
  | enclaveReady =>
      split
      · apply Process.notify_keeps
        exact ⟨id, id, id, id⟩
      · exact .refl _
  | notifyFinished =>
      apply Process.notify_keeps
      exact ⟨fun _ => rfl, id, id, id⟩
  | ping =>
      apply Process.setAgent_keeps
      exact AgentState.ping_keeps _ _
  | notifyExit =>
      apply Process.notify_keeps
      exact ⟨id, fun _ => rfl, id, id⟩
  | _ => exact .refl _

/-- The main thread pings an agent only between the two notifications. -/
theorem Process.MainStep.pinged (stepped : process.MainStep enclave programs pc call process')
    {cpu : Cpu} (elsewhere : pc.stage cpu ≠ 5) :
    (process'.agent cpu).pinged = (process.agent cpu).pinged := by
  have others : ∀ {head : Cpu} {agent : AgentState},
      (head = cpu → agent.pinged = (process.agent cpu).pinged) →
      ((process.setAgent head agent).agent cpu).pinged = (process.agent cpu).pinged := by
    intro head agent same
    by_cases isHead : head = cpu
    · rw [isHead, Process.setAgent_agent, same isHead]
    · exact congrArg AgentState.pinged (Function.update_of_ne (Ne.symm isHead) _ _)
  cases stepped with
  | startBegin => exact others fun same => same ▸ rfl
  | insertBpf => split <;> rfl
  | enclaveReady =>
      unfold Process.notify
      split_ifs
      · rfl
      · exact others fun same => same ▸ rfl
      · rfl
  | notifyFinished | notifyExit =>
      unfold Process.notify
      split
      · rfl
      · exact others fun same => same ▸ rfl
  | ping => exact others fun same => absurd (by simp [same]) elsewhere
  | _ => rfl

private theorem Process.Step.woken {cpu : Cpu} (woken : (process.agent cpu).Woken)
    (stepped : process.Step enclave programs call process') : (process'.agent cpu).Woken := by
  cases stepped with
  | main moved => exact woken.keeps (moved.keeps cpu)
  | @agent head _ _ moved =>
      by_cases isHead : cpu = head
      · subst isHead
        exact moved.woken woken
      · rw [moved.agent_of_ne isHead]
        exact woken
  | kill => exact woken

private theorem Process.Step.ping {cpu : Cpu} (sound : process.Sound enclave)
    (stepped : process.Step enclave programs (.ping cpu true) process') :
    (process'.agent cpu).Woken := by
  cases stepped with
  | main moved =>
      generalize at_ : process.pc = pc at moved
      cases moved with
      | ping =>
          have member : cpu ∈ enclave.cpus := sound.inEnclave (by simp [at_])
          have finished := (sound.paired cpu member).finished.mpr (by simp [at_])
          change ((process.setAgent cpu ((process.agent cpu).ping true)).agent cpu).Woken
          rw [Process.setAgent_agent]
          exact ⟨finished, fun _ => rfl⟩
  | agent moved =>
      generalize (process.agent _).pc = before at moved
      cases moved

/-- An agent that has been told to exit and waits for a message. -/
structure AgentState.Awaits (finished : Bool) (agent : AgentState) : Prop where
  pc : agent.pc = .yielded finished
  doExit : agent.doExit = true
  pinged : agent.pinged = false

private theorem Process.Step.awaits {cpu : Cpu} {finished : Bool} (sound : process.Sound enclave)
    (awaits : (process.agent cpu).Awaits finished)
    (stepped : process.Step enclave programs call process') (silent : call ≠ .message cpu) :
    (process'.agent cpu).Awaits finished := by
  cases stepped with
  | main moved =>
      have member : cpu ∈ enclave.cpus := by
        by_contra isOutside
        cases awaits.pc.symm.trans (sound.outside cpu isOutside)
      have stage := (sound.paired cpu member).doExit.mp awaits.doExit
      refine ⟨?_, (moved.keeps cpu).doExit awaits.doExit, ?_⟩
      · obtain same | ⟨unborn, -⟩ := moved.agent_pc cpu
        · exact same.trans awaits.pc
        · omega
      · exact (moved.pinged (by omega)).trans awaits.pinged
  | @agent head _ _ moved =>
      by_cases isHead : cpu = head
      · subst isHead
        rw [awaits.pc] at moved
        cases moved with
        | pinged isPinged => cases awaits.pinged.symm.trans isPinged
        | message => exact absurd rfl silent
      · rw [moved.agent_of_ne isHead]
        exact awaits
  | kill => exact awaits

end Processes

section Hosts

variable {Proc Cpu Eat : Type} [DecidableEq Proc] [DecidableEq Cpu] [DecidableEq Eat]
  {enclave : EnclaveCpus Cpu} {registry : Proc → List Eat} {host next last : Host Proc Cpu Eat}
  {labels : List (Proc × KernelCall Cpu Eat)} {proc : Proc} {cpu : Cpu}

/-- What the steps of its own process keep of an agent. -/
theorem Host.Step.agent {label : Proc × KernelCall Cpu Eat} {Holds : AgentState → Prop}
    (stepped : Host.Step enclave registry host label next)
    (holds : Holds ((host.process proc).agent cpu))
    (heard : ∀ agent, Holds agent → Holds agent.onlineChanged)
    (own : ∀ process', label.1 = proc →
      (host.process proc).Step enclave (registry proc) label.2 process' →
      Holds (process'.agent cpu)) : Holds ((next.process proc).agent cpu) := by
  obtain ⟨process', moved, hears⟩ := stepped.hears
  by_cases isOwn : label.1 = proc
  · subst isOwn
    obtain same | changed := hears.self
    · exact same ▸ own process' rfl moved
    · exact changed ▸ heard _ (own process' rfl moved)
  · obtain same | changed := hears.others proc (Ne.symm isOwn)
    · exact same ▸ holds
    · exact changed ▸ heard _ holds

/-- Once the `Ping` of `TerminateBegin` has succeeded, the agent is never off its CPU, unaware that
it is to end, without a `Ping` to come. -/
theorem terminated_agent_is_pinged
    (reachable : (lifeCycle Proc enclave registry).Reachable host)
    (succeeded : (lifeCycle Proc enclave registry).step host (proc, .ping cpu true) next)
    (run : (lifeCycle Proc enclave registry).Run next labels last)
    (unaware : ((last.process proc).agent cpu).pc = .yielded false) :
    ((last.process proc).agent cpu).pinged = true := by
  have sound := (Host.Sound.of_reachable reachable).process proc
  have heard : ∀ agent : AgentState, agent.Woken → agent.onlineChanged.Woken := by
    intro agent woken
    exact woken.keeps agent.onlineChanged_keeps
  have woken : ((last.process proc).agent cpu).Woken := by
    apply run.invariant (fun state => ((state.process proc).agent cpu).Woken)
    · intro state label after woken stepped
      exact stepped.agent woken heard fun process' _ moved => moved.woken woken
    · obtain ⟨process', moved, hears⟩ := succeeded.hears
      obtain same | changed := hears.self
      · exact same ▸ moved.ping sound
      · exact changed ▸ heard _ (moved.ping sound)
  exact woken.pinged (by rw [unaware]; rfl)

/-- A process is killed, and gets as far as the first `Notify` of `TerminateBegin`. -/
def notifyFinished : List (Unit × Turn Unit) :=
  startUp ++ [((), Turn.kill)] ++ List.replicate 6 ((), Turn.main)

def MainPc.pingsLast : MainPc Unit Unit → Bool
  | .ping () [] => true
  | _ => false

private theorem MainPc.eq_ping {pc : MainPc Unit Unit} (pings : pc.pingsLast = true) :
    pc = .ping () [] := by
  cases pc with
  | ping cpu rest =>
      cases rest with
      | nil => rfl
      | cons head rest => cases pings
  | _ => cases pings

/-- The `Ping` succeeds. -/
def Host.pinged (host : Host Unit Unit Unit) : Host Unit Unit Unit :=
  host.setProcess () (((host.process ()).setAgent () (((host.process ()).agent ()).ping true)).setPc
    (.notifyExit () []))

/-- The agent is to exit, and has given up its CPU without having seen that. -/
def Host.exitsUnaware (host : Host Unit Unit Unit) : Bool :=
  ((host.process ()).agent ()).doExit && decide (((host.process ()).agent ()).pc = .yielded false)

theorem terminated_agent_is_pinged_yielded :
    ∃ host last : Host Unit Unit Unit, ∃ labels,
      (lifeCycle Unit oneCpu fun _ => [()]).Reachable host ∧
      (lifeCycle Unit oneCpu fun _ => [()]).step host ((), .ping () true) host.pinged ∧
      (lifeCycle Unit oneCpu fun _ => [()]).Run host.pinged labels last ∧
      ((last.process ()).agent ()).doExit = true ∧
      ((last.process ()).agent ()).pc = .yielded false ∧
      ((last.process ()).agent ()).pinged = true := by
  obtain ⟨host, reachable, holds⟩ := @Host.exists_of_any Unit _ _ _ _ _ oneCpu (fun _ => [()])
    (fun host => (host.process ()).pc.pingsLast &&
      ([((), Turn.main)].foldlM (Host.perform oneCpu fun _ => [()]) host.pinged).any
        Host.exitsUnaware) notifyFinished (by decide +kernel)
  obtain ⟨pings, exits⟩ := (Bool.and_eq_true _ _).mp holds
  obtain ⟨last, performed, ended⟩ := (Option.any_eq_true _ _).mp exits
  obtain ⟨terminated, unaware⟩ := (Bool.and_eq_true _ _).mp ended
  obtain ⟨labels, run⟩ := Host.run_of_perform performed
  have succeeded : (lifeCycle Unit oneCpu fun _ => [()]).step host ((), .ping () true)
      host.pinged := by
    refine .intro (.main ?_) trivial
    rw [MainPc.eq_ping pings]
    exact .ping
  have isPinged := terminated_agent_is_pinged reachable succeeded run (of_decide_eq_true unaware)
  exact ⟨host, last, labels, reachable, succeeded, run, terminated, of_decide_eq_true unaware,
    isPinged⟩

/-- If the `Ping` of `TerminateBegin` has failed, an agent that is off its CPU stays there until the
kernel sends a message, and its process does not exit before that. -/
theorem unpinged_agent_waits
    (reachable : (lifeCycle Proc enclave registry).Reachable host)
    {finished : Bool} (terminated : ((host.process proc).agent cpu).doExit = true)
    (off : ((host.process proc).agent cpu).pc = .yielded finished)
    (unpinged : ((host.process proc).agent cpu).pinged = false)
    (run : ((lifeCycle Proc enclave registry).restrict
      fun _ label => label ≠ (proc, .message cpu)).Run host labels last) :
    ((last.process proc).agent cpu).pc = .yielded finished ∧ (last.process proc).pc ≠ .exited := by
  have holds := run.invariant (fun state => state.Sound enclave registry ∧
    ((state.process proc).agent cpu).Awaits finished) ?_
    ⟨.of_reachable reachable, off, terminated, unpinged⟩
  · obtain ⟨sound, awaits⟩ := holds
    refine ⟨awaits.pc, fun exited => ?_⟩
    by_cases member : cpu ∈ enclave.cpus
    · have freed := ((sound.process proc).paired cpu member).freed (by simp [exited])
      simp [awaits.pc] at freed
    · cases awaits.pc.symm.trans ((sound.process proc).outside cpu member)
  · intro state label after holds stepped
    obtain ⟨sound, awaits⟩ := holds
    obtain ⟨silent, stepped⟩ := stepped
    refine ⟨sound.step stepped, stepped.agent awaits ?_ ?_⟩
    · intro agent awaits
      have same : agent.onlineChanged = agent := by
        unfold AgentState.onlineChanged
        rw [awaits.pc]
      rwa [same]
    · intro process' isOwn moved
      refine moved.awaits (sound.process proc) awaits fun isMessage => silent ?_
      exact Prod.ext isOwn isMessage

/-- The agent has yielded its CPU, which is unavailable for the `Ping`. -/
theorem unpinged_agent_waits_unavailable :
    ∃ host : Host Unit Unit Unit,
      (lifeCycle Unit oneCpu fun _ => [()]).Reachable host ∧
      ((host.process ()).agent ()).pc = .yielded false ∧
      ∀ labels last, ((lifeCycle Unit oneCpu fun _ => [()]).restrict
        fun _ label => label ≠ ((), .message ())).Run host labels last →
          (last.process ()).pc ≠ .exited := by
  obtain ⟨host, reachable, holds⟩ := @Host.exists_of_any Unit _ _ _ _ _ oneCpu (fun _ => [()])
    (fun host => host.exitsUnaware && !((host.process ()).agent ()).pinged)
    (notifyFinished ++ [((), Turn.unavailable), ((), Turn.main)]) (by decide +kernel)
  simp only [Host.exitsUnaware, Bool.and_eq_true, Bool.not_eq_true', decide_eq_true_eq] at holds
  obtain ⟨⟨terminated, off⟩, unpinged⟩ := holds
  refine ⟨host, reachable, off, fun labels last run => ?_⟩
  exact (unpinged_agent_waits reachable terminated off unpinged run).2

end Hosts

end Ghost.Agent
