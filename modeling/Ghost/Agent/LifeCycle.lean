import Ghost.Agent.AgentOnline

/-!
# The life of an agent

Any number of agent processes on one enclave, as in an in-place upgrade: the main thread of each
`FullAgent`, from `StartAgentTasks` and `Enclave::Ready` to `TerminateAgentTasks`, its agent
threads, and what the kernel gives to one process at a time. A wait for a `Notification` ends once
it has been notified.
-/

set_option autoImplicit false

namespace Ghost.Agent

open Lib

/-- Where an agent thread stands, by the access that comes next: `LocalAgent::ThreadBody` and the
`AgentThread` of the schedulers. -/
inductive AgentPc where
  | unborn
  | waitForOldAgent (watch : Watch)
  | enterGhost
  /-- `LocalEnclave::AttachAgent`: `rep(cpu)->agent`, then `agents_`. -/
  | attachRep
  | attachList
  | signalReady
  | waitForEnclaveReady
  | loop
  /-- In `Schedule`, with the value of `Finished()` that the loop has read. -/
  | schedule (finished : Bool)
  /-- Off its CPU, until a message or a `Ping` makes it runnable. -/
  | yielded (finished : Bool)
  /-- The `CHECK` of `WaitForExitNotification`. -/
  | checkFinished
  | waitForExit
  /-- `ThreadBody` has returned. -/
  | exiting
  /-- The kernel has called `task_dead`, and set `GHOST_SW_F_CANFREE`. -/
  | freed
  /-- A `CHECK` has failed. -/
  | failed
  deriving DecidableEq

/-- An `Agent`. -/
structure AgentState where
  pc : AgentPc
  ready : Bool
  enclaveReady : Bool
  finished : Bool
  doExit : Bool
  /-- The kernel has to make the agent run. -/
  pinged : Bool

def AgentState.unborn : AgentState := ⟨.unborn, false, false, false, false, false⟩

namespace AgentState

def setPc (agent : AgentState) (pc : AgentPc) : AgentState := { agent with pc := pc }

def setReady (agent : AgentState) : AgentState := { agent with ready := true }

def setEnclaveReady (agent : AgentState) : AgentState := { agent with enclaveReady := true }

def setFinished (agent : AgentState) : AgentState := { agent with finished := true }

def setDoExit (agent : AgentState) : AgentState := { agent with doExit := true }

def setPinged (agent : AgentState) (pinged : Bool) : AgentState := { agent with pinged := pinged }

def ping (agent : AgentState) (ran : Bool) : AgentState :=
  if ran then agent.setPinged true else agent

/-- `agent_online` has changed. -/
def onlineChanged (agent : AgentState) : AgentState :=
  match agent.pc with
  | .waitForOldAgent watch => agent.setPc (.waitForOldAgent watch.changed)
  | _ => agent

end AgentState

/-- Where a main thread stands. The lists are what a loop has yet to go through. -/
inductive MainPc (Cpu Eat : Type) where
  | startBegin (rest : List Cpu)
  | startComplete (rest : List Cpu)
  /-- `Enclave::Ready` waits for the agents, and keeps `mu_` until it has released them. -/
  | lockWhen
  | insertBpf (rest : List Eat)
  | discoverTasks
  | enclaveReady (rest : List Cpu)
  /-- `AdvertiseOnline`: the file, then `is_online_`. -/
  | openOnline
  | setOnline
  /-- `kill_agent_.WaitForNotification()`. -/
  | serving
  /-- `PrepareToExit`. -/
  | setOffline
  | closeOnline
  | destroyBpf (rest : List Eat)
  /-- The loop of `TerminateBegin` calls. -/
  | notifyFinished (rest : List Cpu)
  | ping (cpu : Cpu) (rest : List Cpu)
  | notifyExit (cpu : Cpu) (rest : List Cpu)
  /-- The loop of `TerminateComplete` calls. -/
  | join (rest : List Cpu)
  | waitFree (cpu : Cpu) (rest : List Cpu)
  /-- `agents_.clear()`: the `DetachAgent` of each. -/
  | detachRep (rest : List Cpu)
  | detachList (cpu : Cpu) (rest : List Cpu)
  | exited
  /-- A `CHECK` has failed. -/
  | failed

/-- One process, with its `LocalEnclave`. -/
structure Process (Cpu Eat : Type) where
  pc : MainPc Cpu Eat
  agent : Cpu → AgentState
  /-- The CPUs whose `CpuRep` has an agent. -/
  rep : Cpu → Bool
  /-- `agents_` of the enclave, each by its CPU. -/
  agents : List Cpu
  inserted : Eat → Bool
  isOnline : Bool
  killAgent : Bool

/-- What a step asks of the kernel, with the answer. -/
inductive KernelCall (Cpu Eat : Type) where
  | main
  | agent (cpu : Cpu)
  | watch (cpu : Cpu) (online : Bool)
  | enterGhost (cpu : Cpu) (entered : Bool)
  | message (cpu : Cpu)
  | taskDead (cpu : Cpu)
  | openOnline (opened : Bool)
  | closeOnline
  | insertBpf (eat : Eat) (inserted : Bool)
  | destroyBpf (eat : Eat)
  /-- The `Run` of `PingRunRequest`. It can fail if the CPU is unavailable. -/
  | ping (cpu : Cpu) (ran : Bool)
  /-- The parent process wants the agent to end. -/
  | kill

/-- The CPUs of an enclave. `ParseAgentConfig` checks that there is one. -/
structure EnclaveCpus (Cpu : Type) where
  cpus : List Cpu
  nodup : cpus.Nodup
  nonempty : cpus ≠ []

section Steps

variable {Cpu Eat : Type} [DecidableEq Cpu] [DecidableEq Eat]

namespace Process

variable (process : Process Cpu Eat)

def setPc (pc : MainPc Cpu Eat) : Process Cpu Eat := { process with pc := pc }

def setAgent (cpu : Cpu) (agent : AgentState) : Process Cpu Eat :=
  { process with agent := Function.update process.agent cpu agent }

/-- The thread of a CPU goes on. -/
def goTo (cpu : Cpu) (pc : AgentPc) : Process Cpu Eat :=
  process.setAgent cpu ((process.agent cpu).setPc pc)

def setRep (cpu : Cpu) (present : Bool) : Process Cpu Eat :=
  { process with rep := Function.update process.rep cpu present }

def setAgents (agents : List Cpu) : Process Cpu Eat := { process with agents := agents }

def setInserted (eat : Eat) (inserted : Bool) : Process Cpu Eat :=
  { process with inserted := Function.update process.inserted eat inserted }

def setIsOnline (isOnline : Bool) : Process Cpu Eat := { process with isOnline := isOnline }

def setKillAgent : Process Cpu Eat := { process with killAgent := true }

/-- `Notify` of one of the notifications of an agent, with its `CHECK`. -/
def notify (cpu : Cpu) (notified : Bool) (agent : AgentState) (pc : MainPc Cpu Eat) :
    Process Cpu Eat :=
  if notified then process.setPc .failed else (process.setAgent cpu agent).setPc pc

/-- The main thread holds `mu_`. -/
def holdsMu : Bool :=
  match process.pc with
  | .insertBpf _ | .discoverTasks | .enclaveReady _ => true
  | _ => false

variable (enclave : EnclaveCpus Cpu) (registry : List Eat)

/-- The accesses of an agent thread. Entering ghOSt fails with EBUSY as long as the old
agent has not left the CPU. -/
inductive AgentStep (cpu : Cpu) : AgentPc → KernelCall Cpu Eat → Process Cpu Eat → Prop
  | watch {watch after : Watch} {online : Bool} :
      watch.access false online = some after → after.pc ≠ .returned →
      AgentStep cpu (.waitForOldAgent watch) (.watch cpu online)
        (process.goTo cpu (.waitForOldAgent after))
  | oldAgentGone {watch after : Watch} {online : Bool} :
      watch.access false online = some after → after.pc = .returned →
      AgentStep cpu (.waitForOldAgent watch) (.watch cpu online) (process.goTo cpu .enterGhost)
  | enterGhost {entered : Bool} :
      AgentStep cpu .enterGhost (.enterGhost cpu entered)
        (process.goTo cpu (if entered then .attachRep else .enterGhost))
  | attachRep :
      AgentStep cpu .attachRep (.agent cpu)
        (if process.rep cpu then process.goTo cpu .failed
          else (process.setRep cpu true).goTo cpu .attachList)
  | attachList : process.holdsMu = false →
      AgentStep cpu .attachList (.agent cpu)
        ((process.setAgents (process.agents ++ [cpu])).goTo cpu .signalReady)
  | signalReady :
      AgentStep cpu .signalReady (.agent cpu)
        (process.setAgent cpu (if (process.agent cpu).ready then (process.agent cpu).setPc .failed
          else (process.agent cpu).setReady.setPc .waitForEnclaveReady))
  | waitForEnclaveReady : (process.agent cpu).enclaveReady = true →
      AgentStep cpu .waitForEnclaveReady (.agent cpu) (process.goTo cpu .loop)
  | schedule {finished : Bool} : (process.agent cpu).finished = finished →
      AgentStep cpu .loop (.agent cpu) (process.goTo cpu (.schedule finished))
  /-- The run queue is empty. -/
  | leave : (process.agent cpu).finished = true →
      AgentStep cpu .loop (.agent cpu) (process.goTo cpu .checkFinished)
  | scheduled {finished : Bool} :
      AgentStep cpu (.schedule finished) (.agent cpu) (process.goTo cpu .loop)
  | yield {finished : Bool} :
      AgentStep cpu (.schedule finished) (.agent cpu) (process.goTo cpu (.yielded finished))
  | pinged {finished : Bool} : (process.agent cpu).pinged = true →
      AgentStep cpu (.yielded finished) (.agent cpu)
        (process.setAgent cpu (((process.agent cpu).setPinged false).setPc .loop))
  | message {finished : Bool} :
      AgentStep cpu (.yielded finished) (.message cpu) (process.goTo cpu .loop)
  | checkFinished :
      AgentStep cpu .checkFinished (.agent cpu)
        (process.goTo cpu (if (process.agent cpu).finished then .waitForExit else .failed))
  | waitForExit : (process.agent cpu).doExit = true →
      AgentStep cpu .waitForExit (.agent cpu) (process.goTo cpu .exiting)
  | taskDead : AgentStep cpu .exiting (.taskDead cpu) (process.goTo cpu .freed)

/-- The accesses of the main thread. A program that cannot be inserted (EBUSY) starts
the loop again, where those that are inserted are passed over. -/
inductive MainStep : MainPc Cpu Eat → KernelCall Cpu Eat → Process Cpu Eat → Prop
  | startBegin {cpu : Cpu} {rest : List Cpu} :
      MainStep (.startBegin (cpu :: rest)) .main
        ((process.goTo cpu (.waitForOldAgent ⟨.open, false⟩)).setPc (.startBegin rest))
  | startedAll :
      MainStep (.startBegin []) .main (process.setPc (.startComplete enclave.cpus))
  | startComplete {cpu : Cpu} {rest : List Cpu} : (process.agent cpu).ready = true →
      MainStep (.startComplete (cpu :: rest)) .main (process.setPc (.startComplete rest))
  | completedAll : MainStep (.startComplete []) .main (process.setPc .lockWhen)
  | lockWhen : process.agents.length = enclave.cpus.length →
      MainStep .lockWhen .main (process.setPc (.insertBpf registry))
  | insertBpf {eat : Eat} {rest : List Eat} {inserted : Bool} : process.inserted eat = false →
      MainStep (.insertBpf (eat :: rest)) (.insertBpf eat inserted)
        (if inserted then (process.setInserted eat true).setPc (.insertBpf rest)
          else process.setPc (.insertBpf registry))
  | alreadyInserted {eat : Eat} {rest : List Eat} : process.inserted eat = true →
      MainStep (.insertBpf (eat :: rest)) .main (process.setPc (.insertBpf rest))
  | insertedAll : MainStep (.insertBpf []) .main (process.setPc .discoverTasks)
  | discoverTasks :
      MainStep .discoverTasks .main (process.setPc (.enclaveReady enclave.cpus))
  | enclaveReady {cpu : Cpu} {rest : List Cpu} :
      MainStep (.enclaveReady (cpu :: rest)) .main
        (if process.rep cpu then
          process.notify cpu (process.agent cpu).enclaveReady
            (process.agent cpu).setEnclaveReady (.enclaveReady rest)
        else process.setPc .failed)
  | releasedAll : MainStep (.enclaveReady []) .main (process.setPc .openOnline)
  | openOnline {opened : Bool} :
      MainStep .openOnline (.openOnline opened)
        (process.setPc (if opened then .setOnline else .failed))
  | setOnline : MainStep .setOnline .main ((process.setIsOnline true).setPc .serving)
  | killed : process.killAgent = true →
      MainStep .serving .main (process.setPc .setOffline)
  | setOffline : MainStep .setOffline .main ((process.setIsOnline false).setPc .closeOnline)
  | closeOnline :
      MainStep .closeOnline .closeOnline (process.setPc (.destroyBpf registry))
  | destroyBpf {eat : Eat} {rest : List Eat} : process.inserted eat = true →
      MainStep (.destroyBpf (eat :: rest)) (.destroyBpf eat)
        ((process.setInserted eat false).setPc (.destroyBpf rest))
  | notInserted {eat : Eat} {rest : List Eat} : process.inserted eat = false →
      MainStep (.destroyBpf (eat :: rest)) .main (process.setPc (.destroyBpf rest))
  | destroyedAll :
      MainStep (.destroyBpf []) .main (process.setPc (.notifyFinished enclave.cpus))
  | notifyFinished {cpu : Cpu} {rest : List Cpu} :
      MainStep (.notifyFinished (cpu :: rest)) .main
        (process.notify cpu (process.agent cpu).finished (process.agent cpu).setFinished
          (.ping cpu rest))
  /-- `TerminateBegin` does not look at the result. -/
  | ping {cpu : Cpu} {rest : List Cpu} {ran : Bool} :
      MainStep (.ping cpu rest) (.ping cpu ran)
        ((process.setAgent cpu ((process.agent cpu).ping ran)).setPc (.notifyExit cpu rest))
  | notifyExit {cpu : Cpu} {rest : List Cpu} :
      MainStep (.notifyExit cpu rest) .main
        (process.notify cpu (process.agent cpu).doExit (process.agent cpu).setDoExit
          (.notifyFinished rest))
  | terminatedAll :
      MainStep (.notifyFinished []) .main (process.setPc (.join enclave.cpus))
  | join {cpu : Cpu} {rest : List Cpu} :
      (process.agent cpu).pc = .exiting ∨ (process.agent cpu).pc = .freed →
      MainStep (.join (cpu :: rest)) .main (process.setPc (.waitFree cpu rest))
  | waitFree {cpu : Cpu} {rest : List Cpu} : (process.agent cpu).pc = .freed →
      MainStep (.waitFree cpu rest) .main (process.setPc (.join rest))
  | joinedAll : MainStep (.join []) .main (process.setPc (.detachRep enclave.cpus))
  | detachRep {cpu : Cpu} {rest : List Cpu} :
      MainStep (.detachRep (cpu :: rest)) .main
        ((process.setRep cpu false).setPc (.detachList cpu rest))
  | detachList {cpu : Cpu} {rest : List Cpu} :
      MainStep (.detachList cpu rest) .main
        ((process.setAgents (process.agents.filter (· ≠ cpu))).setPc (.detachRep rest))
  | detachedAll : MainStep (.detachRep []) .main (process.setPc .exited)

inductive Step (process : Process Cpu Eat) : KernelCall Cpu Eat → Process Cpu Eat → Prop
  | main {call : KernelCall Cpu Eat} {process' : Process Cpu Eat} :
      process.MainStep enclave registry process.pc call process' → Step process call process'
  | agent {cpu : Cpu} {call : KernelCall Cpu Eat} {process' : Process Cpu Eat} :
      process.AgentStep cpu (process.agent cpu).pc call process' → Step process call process'
  | kill : Step process .kill process.setKillAgent

def onlineChanged : Process Cpu Eat :=
  { process with agent := fun cpu => (process.agent cpu).onlineChanged }

/-- Before its constructor. -/
structure Initial : Prop where
  pc : process.pc = .startBegin enclave.cpus
  agent : ∀ cpu, process.agent cpu = .unborn
  rep : ∀ cpu, process.rep cpu = false
  agents : process.agents = []
  inserted : ∀ eat, process.inserted eat = false
  isOnline : process.isOnline = false

end Process

/-! ## The kernel -/

variable {Proc : Type} [DecidableEq Proc]

/-- The processes, and what the kernel gives to one of them: the place of the agent of each CPU,
`agent_online`, and each BPF attach point. -/
structure Host (Proc Cpu Eat : Type) where
  process : Proc → Process Cpu Eat
  agentOf : Cpu → Option Proc
  online : Option Proc
  links : Eat → Option Proc

namespace Host

variable (host : Host Proc Cpu Eat)

def setProcess (proc : Proc) (process : Process Cpu Eat) : Host Proc Cpu Eat :=
  { host with process := Function.update host.process proc process }

def setAgentOf (cpu : Cpu) (holder : Option Proc) : Host Proc Cpu Eat :=
  { host with agentOf := Function.update host.agentOf cpu holder }

/-- Every `epoll_wait` on the file hears of the change. -/
def setOnline (holder : Option Proc) : Host Proc Cpu Eat :=
  { host with
    process := fun proc => (host.process proc).onlineChanged
    online := holder }

def setLink (eat : Eat) (holder : Option Proc) : Host Proc Cpu Eat :=
  { host with links := Function.update host.links eat holder }

/-- What the kernel can answer. -/
def Answers : KernelCall Cpu Eat → Prop
  | .watch _ online => host.online.isSome = online
  | .enterGhost cpu entered => (host.agentOf cpu).isNone = entered
  | .openOnline opened => host.online.isNone = opened
  | .insertBpf eat inserted => (host.links eat).isNone = inserted
  | _ => True

def effect (proc : Proc) : KernelCall Cpu Eat → Host Proc Cpu Eat
  | .enterGhost cpu true => host.setAgentOf cpu (some proc)
  | .taskDead cpu => host.setAgentOf cpu none
  | .openOnline true => host.setOnline (some proc)
  | .closeOnline => host.setOnline none
  | .insertBpf eat true => host.setLink eat (some proc)
  | .destroyBpf eat => host.setLink eat none
  | _ => host

inductive Step (enclave : EnclaveCpus Cpu) (registry : Proc → List Eat)
    (host : Host Proc Cpu Eat) : Proc × KernelCall Cpu Eat → Host Proc Cpu Eat → Prop
  | intro {proc : Proc} {call : KernelCall Cpu Eat} {process' : Process Cpu Eat} :
      (host.process proc).Step enclave (registry proc) call process' → host.Answers call →
      Step enclave registry host (proc, call) ((host.setProcess proc process').effect proc call)

end Host

def lifeCycle (Proc : Type) {Cpu Eat : Type} [DecidableEq Proc] [DecidableEq Cpu]
    [DecidableEq Eat] (enclave : EnclaveCpus Cpu) (registry : Proc → List Eat) :
    Machine (Host Proc Cpu Eat) (Proc × KernelCall Cpu Eat) where
  initial host := (∀ proc, (host.process proc).Initial enclave) ∧
    (∀ cpu, host.agentOf cpu = none) ∧ host.online = none ∧ ∀ eat, host.links eat = none
  step host label next := Host.Step enclave registry host label next

/-! ## Schedules -/

/-- The next access of an agent thread, if it does not wait: with the value of `agent_online`,
whether its CPU is free, and what the scheduler has it do. -/
def Process.agentAccess (process : Process Cpu Eat) (cpu : Cpu) (online free choice : Bool) :
    AgentPc → Option (KernelCall Cpu Eat × Process Cpu Eat)
  | .waitForOldAgent watch =>
      (watch.access false online).map fun after =>
        (.watch cpu online, process.goTo cpu
          (if after.pc = .returned then .enterGhost else .waitForOldAgent after))
  | .enterGhost =>
      some (.enterGhost cpu free, process.goTo cpu (if free then .attachRep else .enterGhost))
  | .attachRep =>
      some (.agent cpu, if process.rep cpu then process.goTo cpu .failed
        else (process.setRep cpu true).goTo cpu .attachList)
  | .attachList =>
      if process.holdsMu then none
      else some (.agent cpu,
        (process.setAgents (process.agents ++ [cpu])).goTo cpu .signalReady)
  | .signalReady =>
      some (.agent cpu, process.setAgent cpu
        (if (process.agent cpu).ready then (process.agent cpu).setPc .failed
          else (process.agent cpu).setReady.setPc .waitForEnclaveReady))
  | .waitForEnclaveReady =>
      if (process.agent cpu).enclaveReady then some (.agent cpu, process.goTo cpu .loop) else none
  | .loop =>
      some (.agent cpu, process.goTo cpu
        (if (process.agent cpu).finished && choice then .checkFinished
          else .schedule (process.agent cpu).finished))
  | .schedule finished =>
      some (.agent cpu, process.goTo cpu (if choice then .yielded finished else .loop))
  | .yielded _ =>
      if choice then some (.message cpu, process.goTo cpu .loop)
      else if (process.agent cpu).pinged then
        some (.agent cpu, process.setAgent cpu (((process.agent cpu).setPinged false).setPc .loop))
      else none
  | .checkFinished =>
      some (.agent cpu, process.goTo cpu
        (if (process.agent cpu).finished then .waitForExit else .failed))
  | .waitForExit =>
      if (process.agent cpu).doExit then some (.agent cpu, process.goTo cpu .exiting) else none
  | .exiting => some (.taskDead cpu, process.goTo cpu .freed)
  | .unborn | .freed | .failed => none

omit [DecidableEq Eat] in
theorem Process.AgentStep.of_access {process process' : Process Cpu Eat} {cpu : Cpu}
    {online free choice : Bool} {pc : AgentPc} {call : KernelCall Cpu Eat}
    (accessed : process.agentAccess cpu online free choice pc = some (call, process')) :
    process.AgentStep cpu pc call process' := by
  cases pc with
  | waitForOldAgent watch =>
      obtain ⟨after, watched, same⟩ := Option.map_eq_some_iff.mp accessed
      cases same
      by_cases returned : after.pc = .returned
      · rw [if_pos returned]
        exact .oldAgentGone watched returned
      · rw [if_neg returned]
        exact .watch watched returned
  | attachList =>
      simp only [agentAccess] at accessed
      split at accessed
      · cases accessed
      · cases accessed
        exact .attachList (Bool.eq_false_of_not_eq_true ‹_›)
  | waitForEnclaveReady =>
      obtain ⟨isReady, same⟩ := Option.ite_none_right_eq_some.mp accessed
      cases same
      exact .waitForEnclaveReady isReady
  | loop =>
      cases accessed
      split
      · exact .leave (Bool.and_eq_true_iff.mp ‹_›).1
      · exact .schedule rfl
  | schedule finished =>
      cases accessed
      cases choice with
      | false => exact .scheduled
      | true => exact .yield
  | yielded finished =>
      simp only [agentAccess] at accessed
      split at accessed
      · cases accessed
        exact .message
      · obtain ⟨isPinged, same⟩ := Option.ite_none_right_eq_some.mp accessed
        cases same
        exact .pinged isPinged
  | waitForExit =>
      obtain ⟨exits, same⟩ := Option.ite_none_right_eq_some.mp accessed
      cases same
      exact .waitForExit exits
  | enterGhost =>
      cases accessed
      exact .enterGhost
  | attachRep =>
      cases accessed
      exact .attachRep
  | signalReady =>
      cases accessed
      exact .signalReady
  | checkFinished =>
      cases accessed
      exact .checkFinished
  | exiting =>
      cases accessed
      exact .taskDead
  | unborn => cases accessed
  | freed => cases accessed
  | failed => cases accessed

/-- The next access of the main thread, if it does not wait: with whether `agent_online` is closed,
which attach points are free, and whether a `Ping` succeeds. -/
def Process.mainAccess (process : Process Cpu Eat) (enclave : EnclaveCpus Cpu)
    (registry : List Eat) (closed : Bool) (free : Eat → Bool) (ran : Bool) :
    MainPc Cpu Eat → Option (KernelCall Cpu Eat × Process Cpu Eat)
  | .startBegin (cpu :: rest) =>
      some (.main,
        (process.goTo cpu (.waitForOldAgent ⟨.open, false⟩)).setPc (.startBegin rest))
  | .startBegin [] => some (.main, process.setPc (.startComplete enclave.cpus))
  | .startComplete (cpu :: rest) =>
      if (process.agent cpu).ready then some (.main, process.setPc (.startComplete rest)) else none
  | .startComplete [] => some (.main, process.setPc .lockWhen)
  | .lockWhen =>
      if process.agents.length = enclave.cpus.length then
        some (.main, process.setPc (.insertBpf registry))
      else none
  | .insertBpf (eat :: rest) =>
      if process.inserted eat then some (.main, process.setPc (.insertBpf rest))
      else some (.insertBpf eat (free eat),
        if free eat then (process.setInserted eat true).setPc (.insertBpf rest)
        else process.setPc (.insertBpf registry))
  | .insertBpf [] => some (.main, process.setPc .discoverTasks)
  | .discoverTasks => some (.main, process.setPc (.enclaveReady enclave.cpus))
  | .enclaveReady (cpu :: rest) =>
      some (.main, if process.rep cpu then
          process.notify cpu (process.agent cpu).enclaveReady
            (process.agent cpu).setEnclaveReady (.enclaveReady rest)
        else process.setPc .failed)
  | .enclaveReady [] => some (.main, process.setPc .openOnline)
  | .openOnline =>
      some (.openOnline closed, process.setPc (if closed then .setOnline else .failed))
  | .setOnline => some (.main, (process.setIsOnline true).setPc .serving)
  | .serving => if process.killAgent then some (.main, process.setPc .setOffline) else none
  | .setOffline => some (.main, (process.setIsOnline false).setPc .closeOnline)
  | .closeOnline => some (.closeOnline, process.setPc (.destroyBpf registry))
  | .destroyBpf (eat :: rest) =>
      if process.inserted eat then
        some (.destroyBpf eat, (process.setInserted eat false).setPc (.destroyBpf rest))
      else some (.main, process.setPc (.destroyBpf rest))
  | .destroyBpf [] => some (.main, process.setPc (.notifyFinished enclave.cpus))
  | .notifyFinished (cpu :: rest) =>
      some (.main, process.notify cpu (process.agent cpu).finished (process.agent cpu).setFinished
        (.ping cpu rest))
  | .ping cpu rest =>
      some (.ping cpu ran,
        (process.setAgent cpu ((process.agent cpu).ping ran)).setPc (.notifyExit cpu rest))
  | .notifyExit cpu rest =>
      some (.main, process.notify cpu (process.agent cpu).doExit (process.agent cpu).setDoExit
        (.notifyFinished rest))
  | .notifyFinished [] => some (.main, process.setPc (.join enclave.cpus))
  | .join (cpu :: rest) =>
      if (process.agent cpu).pc = .exiting ∨ (process.agent cpu).pc = .freed then
        some (.main, process.setPc (.waitFree cpu rest))
      else none
  | .waitFree cpu rest =>
      if (process.agent cpu).pc = .freed then some (.main, process.setPc (.join rest)) else none
  | .join [] => some (.main, process.setPc (.detachRep enclave.cpus))
  | .detachRep (cpu :: rest) =>
      some (.main, (process.setRep cpu false).setPc (.detachList cpu rest))
  | .detachList cpu rest =>
      some (.main,
        (process.setAgents (process.agents.filter (· ≠ cpu))).setPc (.detachRep rest))
  | .detachRep [] => some (.main, process.setPc .exited)
  | .exited | .failed => none

theorem Process.MainStep.of_access {process process' : Process Cpu Eat}
    {enclave : EnclaveCpus Cpu} {registry : List Eat} {closed ran : Bool} {free : Eat → Bool}
    {pc : MainPc Cpu Eat} {call : KernelCall Cpu Eat}
    (accessed : process.mainAccess enclave registry closed free ran pc = some (call, process')) :
    process.MainStep enclave registry pc call process' := by
  cases pc with
  | startComplete rest =>
      cases rest with
      | nil =>
          cases accessed
          exact .completedAll
      | cons cpu rest =>
          obtain ⟨isReady, same⟩ := Option.ite_none_right_eq_some.mp accessed
          cases same
          exact .startComplete isReady
  | lockWhen =>
      obtain ⟨all, same⟩ := Option.ite_none_right_eq_some.mp accessed
      cases same
      exact .lockWhen all
  | insertBpf rest =>
      cases rest with
      | nil =>
          cases accessed
          exact .insertedAll
      | cons eat rest =>
          simp only [mainAccess] at accessed
          split at accessed
          · cases accessed
            exact .alreadyInserted ‹_›
          · cases accessed
            exact .insertBpf (Bool.eq_false_of_not_eq_true ‹_›)
  | serving =>
      obtain ⟨isKilled, same⟩ := Option.ite_none_right_eq_some.mp accessed
      cases same
      exact .killed isKilled
  | destroyBpf rest =>
      cases rest with
      | nil =>
          cases accessed
          exact .destroyedAll
      | cons eat rest =>
          simp only [mainAccess] at accessed
          split at accessed
          · cases accessed
            exact .destroyBpf ‹_›
          · cases accessed
            exact .notInserted (Bool.eq_false_of_not_eq_true ‹_›)
  | join rest =>
      cases rest with
      | nil =>
          cases accessed
          exact .joinedAll
      | cons cpu rest =>
          obtain ⟨returned, same⟩ := Option.ite_none_right_eq_some.mp accessed
          cases same
          exact .join returned
  | waitFree cpu rest =>
      obtain ⟨canFree, same⟩ := Option.ite_none_right_eq_some.mp accessed
      cases same
      exact .waitFree canFree
  | startBegin rest => cases rest <;> cases accessed <;> constructor
  | discoverTasks =>
      cases accessed
      exact .discoverTasks
  | enclaveReady rest => cases rest <;> cases accessed <;> constructor
  | openOnline =>
      cases accessed
      exact .openOnline
  | setOnline =>
      cases accessed
      exact .setOnline
  | setOffline =>
      cases accessed
      exact .setOffline
  | closeOnline =>
      cases accessed
      exact .closeOnline
  | notifyFinished rest => cases rest <;> cases accessed <;> constructor
  | ping cpu rest =>
      cases accessed
      exact .ping
  | notifyExit cpu rest =>
      cases accessed
      exact .notifyExit
  | detachRep rest => cases rest <;> cases accessed <;> constructor
  | detachList cpu rest =>
      cases accessed
      exact .detachList
  | exited => cases accessed
  | failed => cases accessed

/-- Whose turn it is. -/
inductive Turn (Cpu : Type) where
  | main
  /-- The main thread, while a `Ping` fails. -/
  | unavailable
  | agent (cpu : Cpu) (choice : Bool)
  | kill

def Host.perform (enclave : EnclaveCpus Cpu) (registry : Proc → List Eat)
    (host : Host Proc Cpu Eat) : Proc × Turn Cpu → Option (Host Proc Cpu Eat)
  | (proc, .main) =>
      ((host.process proc).mainAccess enclave (registry proc) host.online.isNone
        (fun eat => (host.links eat).isNone) true (host.process proc).pc).map fun outcome =>
          (host.setProcess proc outcome.2).effect proc outcome.1
  | (proc, .unavailable) =>
      ((host.process proc).mainAccess enclave (registry proc) host.online.isNone
        (fun eat => (host.links eat).isNone) false (host.process proc).pc).map fun outcome =>
          (host.setProcess proc outcome.2).effect proc outcome.1
  | (proc, .agent cpu choice) =>
      ((host.process proc).agentAccess cpu host.online.isSome (host.agentOf cpu).isNone choice
        ((host.process proc).agent cpu).pc).map fun outcome =>
          (host.setProcess proc outcome.2).effect proc outcome.1
  | (proc, .kill) => some (host.setProcess proc (host.process proc).setKillAgent)

omit [DecidableEq Proc] in
theorem Host.answers_of_mainAccess {host : Host Proc Cpu Eat} {enclave : EnclaveCpus Cpu}
    {registry : List Eat} {process process' : Process Cpu Eat} {ran : Bool}
    {pc : MainPc Cpu Eat} {call : KernelCall Cpu Eat}
    (accessed : process.mainAccess enclave registry host.online.isNone
      (fun eat => (host.links eat).isNone) ran pc = some (call, process')) :
    host.Answers call := by
  unfold Process.mainAccess at accessed
  split at accessed <;> try split at accessed
  all_goals cases accessed <;> trivial

omit [DecidableEq Eat] [DecidableEq Proc] in
theorem Host.answers_of_agentAccess {host : Host Proc Cpu Eat}
    {process process' : Process Cpu Eat} {cpu : Cpu} {choice : Bool} {pc : AgentPc}
    {call : KernelCall Cpu Eat}
    (accessed : process.agentAccess cpu host.online.isSome (host.agentOf cpu).isNone choice
      pc = some (call, process')) :
    host.Answers call := by
  cases pc with
  | waitForOldAgent watch =>
      obtain ⟨after, watched, same⟩ := Option.map_eq_some_iff.mp accessed
      cases same
      exact rfl
  | enterGhost =>
      cases accessed
      exact rfl
  | yielded finished =>
      simp only [Process.agentAccess] at accessed
      split_ifs at accessed <;> cases accessed <;> trivial
  | attachList | waitForEnclaveReady | waitForExit =>
      obtain ⟨-, same⟩ | ⟨-, same⟩ := ite_eq_iff.mp accessed <;> cases same
      trivial
  | _ => cases accessed <;> trivial

theorem Host.run_of_perform {enclave : EnclaveCpus Cpu} {registry : Proc → List Eat}
    {host last : Host Proc Cpu Eat} {turns : List (Proc × Turn Cpu)}
    (performed : turns.foldlM (Host.perform enclave registry) host = some last) :
    ∃ labels, (lifeCycle Proc enclave registry).Run host labels last := by
  induction turns generalizing host with
  | nil =>
      cases performed
      exact ⟨[], .nil _⟩
  | cons turn turns ih =>
      rw [List.foldlM_cons, Option.bind_eq_bind, Option.bind_eq_some_iff] at performed
      obtain ⟨next, moved, later⟩ := performed
      obtain ⟨labels, run⟩ := ih later
      obtain ⟨proc, turn⟩ := turn
      cases turn with
      | main | unavailable =>
          obtain ⟨outcome, accessed, rfl⟩ := Option.map_eq_some_iff.mp moved
          obtain ⟨call, process'⟩ := outcome
          exact ⟨(proc, call) :: labels, .cons (.intro (.main (.of_access accessed))
            (Host.answers_of_mainAccess accessed)) run⟩
      | agent cpu choice =>
          obtain ⟨outcome, accessed, rfl⟩ := Option.map_eq_some_iff.mp moved
          obtain ⟨call, process'⟩ := outcome
          exact ⟨(proc, call) :: labels, .cons (.intro (.agent (.of_access accessed))
            (Host.answers_of_agentAccess accessed)) run⟩
      | kill =>
          cases moved
          exact ⟨(proc, .kill) :: labels, .cons (.intro .kill trivial) run⟩

def Host.fresh (Proc : Type) {Cpu Eat : Type} (enclave : EnclaveCpus Cpu) :
    Host Proc Cpu Eat where
  process _ := ⟨.startBegin enclave.cpus, fun _ => .unborn, fun _ => false, [], fun _ => false,
    false, false⟩
  agentOf _ := none
  online := none
  links _ := none

theorem Host.fresh_initial (enclave : EnclaveCpus Cpu) (registry : Proc → List Eat) :
    (lifeCycle Proc enclave registry).initial (Host.fresh Proc enclave) :=
  ⟨fun _ => ⟨rfl, fun _ => rfl, fun _ => rfl, rfl, fun _ => rfl, rfl⟩, fun _ => rfl, rfl,
    fun _ => rfl⟩

/-- A schedule whose end passes a test. -/
theorem Host.exists_of_any {enclave : EnclaveCpus Cpu} {registry : Proc → List Eat}
    {test : Host Proc Cpu Eat → Bool} {turns : List (Proc × Turn Cpu)}
    (passed : (turns.foldlM (Host.perform enclave registry) (Host.fresh Proc enclave)).any
      test = true) :
    ∃ host, (lifeCycle Proc enclave registry).Reachable host ∧ test host = true := by
  obtain ⟨host, performed, holds⟩ := (Option.any_eq_true _ _).mp passed
  obtain ⟨labels, run⟩ := Host.run_of_perform performed
  exact ⟨host, ⟨_, labels, Host.fresh_initial enclave registry, run⟩, holds⟩

end Steps

end Ghost.Agent
