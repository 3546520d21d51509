import Ghost.Agent.Upgrade

/-!
# Upgrades come to an end

A process that nobody rivals for the enclave can always come online, and one that is killed can
always exit. Two processes that share out the CPUs between them wait for each other for good.
-/

set_option autoImplicit false

namespace Ghost.Agent

open Lib

/-! ## Work -/

def WatchPc.work : WatchPc → Nat
  | .open => 14
  | .firstWait => 13
  | .read => 12
  | .secondWait | .returned => 11

def AgentPc.work : AgentPc → Nat
  | .unborn => 15
  | .waitForOldAgent watch => watch.pc.work
  | .enterGhost => 10
  | .attachRep => 9
  | .attachList => 8
  | .signalReady => 7
  | .waitForEnclaveReady | .schedule _ | .yielded _ => 6
  | .loop => 5
  | .checkFinished => 4
  | .waitForExit => 3
  | .exiting => 2
  | .freed | .failed => 0

private theorem AgentPc.eq_unborn {pc : AgentPc} (rank : pc.rank = 0) : pc = .unborn := by
  cases pc <;> first | rfl | cases rank

section Work

variable {Cpu Eat : Type}

/-- The accesses that are left to a main thread that finds no attach point taken, with so many CPUs
and programs. -/
def MainPc.work (cpus programs : Nat) : MainPc Cpu Eat → Nat
  | .startBegin rest => 16 + 9 * cpus + 2 * programs + rest.length
  | .startComplete rest => 15 + 8 * cpus + 2 * programs + rest.length
  | .lockWhen => 14 + 8 * cpus + 2 * programs
  | .insertBpf rest => 13 + 8 * cpus + programs + rest.length
  | .discoverTasks => 12 + 8 * cpus + programs
  | .enclaveReady rest => 11 + 7 * cpus + programs + rest.length
  | .openOnline => 10 + 7 * cpus + programs
  | .setOnline => 9 + 7 * cpus + programs
  | .serving => 8 + 7 * cpus + programs
  | .setOffline => 7 + 7 * cpus + programs
  | .closeOnline => 6 + 7 * cpus + programs
  | .destroyBpf rest => 5 + 7 * cpus + rest.length
  | .notifyFinished rest => 4 + 4 * cpus + 3 * rest.length
  | .ping _ rest => 6 + 4 * cpus + 3 * rest.length
  | .notifyExit _ rest => 5 + 4 * cpus + 3 * rest.length
  | .join rest => 3 + 2 * cpus + 2 * rest.length
  | .waitFree _ rest => 4 + 2 * cpus + 2 * rest.length
  | .detachRep rest => 1 + 2 * rest.length
  | .detachList _ rest => 2 + 2 * rest.length
  | .exited | .failed => 0

variable [DecidableEq Cpu] [DecidableEq Eat] {enclave : EnclaveCpus Cpu} {registry : List Eat}
  {process process' : Process Cpu Eat} {call : KernelCall Cpu Eat} {pc : MainPc Cpu Eat}

private theorem Process.MainStep.work_lt
    (stepped : process.MainStep enclave registry pc call process')
    (linked : ∀ eat, call ≠ .insertBpf eat false) :
    process'.pc.work enclave.cpus.length registry.length <
      pc.work enclave.cpus.length registry.length := by
  cases stepped with
  | @insertBpf eat rest inserted =>
      cases inserted with
      | false => exact absurd rfl (linked eat)
      | true => simp [Process.setPc, MainPc.work]
  | enclaveReady =>
      unfold Process.notify
      split_ifs <;> simp [Process.setPc, MainPc.work]
  | @openOnline opened => cases opened <;> simp [Process.setPc, MainPc.work]
  | notifyFinished =>
      unfold Process.notify
      split <;> simp [Process.setPc, MainPc.work]
      omega
  | notifyExit =>
      unfold Process.notify
      split <;> simp [Process.setPc, MainPc.work]
  | _ => simp [Process.setPc, MainPc.work] <;> omega

/-- What is left to all threads of a process. -/
def Process.work (enclave : EnclaveCpus Cpu) (registry : List Eat) (process : Process Cpu Eat) :
    Nat :=
  process.pc.work enclave.cpus.length registry.length +
    (enclave.cpus.map fun cpu => (process.agent cpu).pc.work).sum

omit [DecidableEq Eat] in
private theorem Process.AgentStep.total_lt {cpu : Cpu} {before : AgentPc}
    (stepped : process.AgentStep cpu before call process') (member : cpu ∈ enclave.cpus)
    (less : (process'.agent cpu).pc.work < (process.agent cpu).pc.work) :
    process'.work enclave registry < process.work enclave registry := by
  unfold Process.work
  rw [stepped.main.1]
  apply Nat.add_lt_add_left
  apply List.sum_lt_sum
  · intro other _
    by_cases isOther : other = cpu
    · exact isOther ▸ less.le
    · rw [stepped.agent_of_ne isOther]
  · exact ⟨cpu, member, less⟩

private theorem Process.MainStep.total_lt (sound : process.Sound enclave)
    (stepped : process.MainStep enclave registry process.pc call process')
    (linked : ∀ eat, call ≠ .insertBpf eat false) :
    process'.work enclave registry < process.work enclave registry := by
  refine Nat.add_lt_add_of_lt_of_le (stepped.work_lt linked) (List.sum_le_sum fun cpu _ => ?_)
  obtain same | ⟨stage, started⟩ := stepped.agent_pc cpu
  · rw [same]
  · rw [started, AgentPc.eq_unborn (sound.stage_zero stage)]
    decide

end Work

/-! ## Waiting for the old agent -/

/-- A wait that sleeps has read that there is an agent online, and there still is. -/
structure Watch.Heeds (online : Bool) (watch : Watch) : Prop where
  waits : watch.pc ≠ .returned
  first : watch.pc = .firstWait → watch.event = true
  second : watch.pc = .secondWait → watch.event = true ∨ online = true

private theorem Watch.heeds_of_access {online : Bool} {watch after : Watch}
    (accessed : watch.access false online = some after) (waits : after.pc ≠ .returned) :
    after.Heeds online := by
  obtain ⟨-, rfl⟩ | ⟨-, -, rfl⟩ | ⟨-, -, rfl⟩ | ⟨-, other, rfl⟩ | ⟨-, -, rfl⟩ :=
    Watch.access_cases accessed
  · refine ⟨waits, fun _ => rfl, fun second => ?_⟩
    cases second
  · refine ⟨waits, fun first => ?_, fun second => ?_⟩
    · cases first
    · cases second
  · exact absurd rfl waits
  · refine ⟨waits, fun first => ?_, fun _ => .inr (Bool.eq_true_of_not_eq_false other)⟩
    cases first
  · exact absurd rfl waits

def AgentState.Heeds (online : Bool) (agent : AgentState) : Prop :=
  ∀ watch, agent.pc = .waitForOldAgent watch → watch.Heeds online

private theorem AgentState.Heeds.onlineChanged {online online' : Bool} {agent : AgentState}
    (heeds : agent.Heeds online) : agent.onlineChanged.Heeds online' := by
  intro watch waits
  unfold AgentState.onlineChanged at waits
  cases at_ : agent.pc with
  | waitForOldAgent before =>
      rw [at_] at waits
      cases waits
      exact ⟨(heeds before at_).waits, fun _ => rfl, fun _ => .inl rfl⟩
  | _ =>
      rw [at_] at waits
      cases at_.symm.trans waits

section Heeding

variable {Proc Cpu Eat : Type} [DecidableEq Cpu] {enclave : EnclaveCpus Cpu}
  {process process' : Process Cpu Eat} {call : KernelCall Cpu Eat} {online : Bool}

private theorem Process.AgentStep.heeds {cpu : Cpu} {before : AgentPc}
    (stepped : process.AgentStep cpu before call process')
    (answers : ∀ value, call = .watch cpu value → value = online) :
    (process'.agent cpu).Heeds online := by
  cases stepped with
  | watch accessed waits =>
      cases answers _ rfl
      intro watch same
      rw [Process.goTo_agent] at same
      cases same
      exact Watch.heeds_of_access accessed waits
  | attachRep =>
      split <;> intro watch same <;> rw [Process.goTo_agent] at same <;> cases same
  | attachList =>
      intro watch same
      rw [Process.goTo_agent] at same
      cases same
  | signalReady =>
      intro watch same
      rw [Process.setAgent_agent] at same
      split at same <;> cases same
  | pinged =>
      intro watch same
      rw [Process.setAgent_agent] at same
      cases same
  | @enterGhost entered =>
      intro watch same
      rw [Process.goTo_agent] at same
      cases entered <;> cases same
  | checkFinished =>
      intro watch same
      rw [Process.goTo_agent] at same
      simp only [AgentState.setPc] at same
      split at same <;> cases same
  | _ =>
      intro watch same
      rw [Process.goTo_agent] at same
      cases same

variable [DecidableEq Eat] {programs : List Eat}

private theorem Process.Step.heeds (stepped : process.Step enclave programs call process')
    (heeds : ∀ cpu, (process.agent cpu).Heeds online)
    (answers : ∀ cpu value, call = .watch cpu value → value = online) (cpu : Cpu) :
    (process'.agent cpu).Heeds online := by
  cases stepped with
  | main moved =>
      intro watch waits
      obtain same | ⟨-, started⟩ := moved.agent_pc cpu
      · exact heeds cpu watch (same.symm.trans waits)
      · cases started.symm.trans waits
        refine ⟨by simp, fun first => ?_, fun second => ?_⟩
        · cases first
        · cases second
  | @agent head _ _ moved =>
      by_cases isHead : cpu = head
      · subst isHead
        exact moved.heeds (answers cpu)
      · rw [moved.agent_of_ne isHead]
        exact heeds cpu
  | kill => exact heeds cpu

variable [DecidableEq Proc] {registry : Proc → List Eat} {host next : Host Proc Cpu Eat}
  {label : Proc × KernelCall Cpu Eat}

def Host.Heeds (host : Host Proc Cpu Eat) : Prop :=
  ∀ proc cpu, ((host.process proc).agent cpu).Heeds host.online.isSome

theorem Host.Heeds.step (heeds : host.Heeds)
    (stepped : Host.Step enclave registry host label next) : next.Heeds := by
  cases stepped with
  | @intro proc call process' moved answers =>
      have middle : ∀ other cpu, (((host.setProcess proc process').process other).agent
          cpu).Heeds host.online.isSome := by
        intro other cpu
        by_cases isProc : other = proc
        · subst isProc
          rw [Host.setProcess_process]
          refine moved.heeds (heeds other) ?_ cpu
          intro head value same
          subst same
          exact answers.symm
        · rw [Host.setProcess_of_ne isProc]
          exact heeds other cpu
      intro other cpu
      by_cases stays : call.turns = false
      · rw [Host.effect_online stays]
        obtain same | changed := @Host.effect_process _ _ _ _ call _
          (host.setProcess proc process') proc other
        · rw [same]
          exact middle other cpu
        · rw [changed]
          exact (middle other cpu).onlineChanged
      · have changed : ((host.setProcess proc process').effect proc call).process other =
            ((host.setProcess proc process').process other).onlineChanged := by
          cases call with
          | openOnline opened =>
              cases opened with
              | false => exact absurd rfl stays
              | true => rfl
          | closeOnline => rfl
          | _ => exact absurd (by rfl) stays
        rw [changed]
        exact (middle other cpu).onlineChanged

theorem Host.Heeds.of_reachable
    (reachable : (lifeCycle Proc enclave registry).Reachable host) : host.Heeds := by
  apply reachable.invariant (fun state => state.Heeds)
  · intro state initial proc cpu watch waits
    rw [(initial.1 proc).agent cpu] at waits
    cases waits
  · exact fun state label next heeds stepped => heeds.step stepped

end Heeding

/-! ## Progress -/

section Progress

variable {Proc Cpu Eat : Type} [DecidableEq Cpu] {enclave : EnclaveCpus Cpu}
  {registry : Proc → List Eat} {host next : Host Proc Cpu Eat}
  {process process' : Process Cpu Eat} {proc : Proc}

/-- What an agent thread on its way relies on. -/
structure Unhindered (host : Host Proc Cpu Eat) (process : Process Cpu Eat) (cpu : Cpu) :
    Prop where
  born : 1 ≤ (process.agent cpu).pc.rank
  alive : (process.agent cpu).pc.rank ≤ 10
  offline : (process.agent cpu).pc.rank = 1 → host.online = none
  heeds : (process.agent cpu).Heeds host.online.isSome
  free : (process.agent cpu).pc = .enterGhost → host.agentOf cpu = none
  mu : process.holdsMu = false
  ends : 6 ≤ (process.agent cpu).pc.rank → (process.agent cpu).enclaveReady = true ∧
    (process.agent cpu).finished = true ∧ (process.agent cpu).doExit = true

/-- A wait goes on while nobody is online. -/
theorem Watch.access_of_heeds {watch : Watch} (heeds : watch.Heeds false) :
    ∃ after, watch.access false false = some after ∧
      (after.pc = .returned ∨ after.pc ≠ .returned ∧ after.pc.work < watch.pc.work) := by
  obtain ⟨pc, event⟩ := watch
  obtain ⟨waits, first, second⟩ := heeds
  cases pc with
  | «open» => exact ⟨_, rfl, .inr ⟨by simp, (by decide : 13 < 14)⟩⟩
  | firstWait =>
      cases first rfl
      exact ⟨_, rfl, .inr ⟨by simp, (by decide : 12 < 13)⟩⟩
  | read => exact ⟨_, rfl, .inl rfl⟩
  | secondWait =>
      cases (second rfl).resolve_right Bool.false_ne_true
      exact ⟨_, rfl, .inl rfl⟩
  | returned => exact absurd rfl waits

/-- Every `Ping` succeeds, and the kernel sends a message only to an agent that has no `Ping` to
come. -/
def Process.Responds (process : Process Cpu Eat) : KernelCall Cpu Eat → Prop
  | .ping _ ran => ran = true
  | .message cpu => (process.agent cpu).pinged = false
  | _ => True

theorem Unhindered.step {cpu : Cpu} (unhindered : Unhindered host process cpu) :
    ∃ call process', process.AgentStep cpu (process.agent cpu).pc call process' ∧
      host.Answers call ∧ process.Responds call ∧
      (process'.agent cpu).pc.work < (process.agent cpu).pc.work := by
  obtain ⟨born, alive, offline, heeds, free, mu, ends⟩ := unhindered
  generalize at_ : (process.agent cpu).pc = pc at *
  cases pc with
  | unborn => exact absurd born (by decide)
  | waitForOldAgent watch =>
      have closed : host.online.isSome = false := by
        rw [offline rfl]
        rfl
      have heeds := heeds watch at_
      rw [closed] at heeds
      obtain ⟨after, accessed, returned | ⟨waits, less⟩⟩ := Watch.access_of_heeds heeds
      · refine ⟨_, _, .oldAgentGone accessed returned, closed, trivial, ?_⟩
        rw [Process.goTo_agent]
        change 10 < watch.pc.work
        cases watch.pc <;> decide
      · refine ⟨_, _, .watch accessed waits, closed, trivial, ?_⟩
        rw [Process.goTo_agent]
        exact less
  | enterGhost =>
      refine ⟨_, _, @Process.AgentStep.enterGhost _ _ _ process cpu true, ?_, trivial, ?_⟩
      · exact Option.isNone_iff_eq_none.mpr (free rfl)
      · rw [Process.goTo_agent]
        simp [AgentState.setPc, AgentPc.work]
  | attachRep =>
      refine ⟨_, _, .attachRep, trivial, trivial, ?_⟩
      split <;> rw [Process.goTo_agent] <;> simp [AgentState.setPc, AgentPc.work]
  | attachList =>
      refine ⟨_, _, .attachList mu, trivial, trivial, ?_⟩
      rw [Process.goTo_agent]
      simp [AgentState.setPc, AgentPc.work]
  | signalReady =>
      refine ⟨_, _, .signalReady, trivial, trivial, ?_⟩
      rw [Process.setAgent_agent]
      split <;> simp [AgentState.setPc, AgentPc.work]
  | waitForEnclaveReady =>
      refine ⟨_, _, .waitForEnclaveReady (ends (by simp)).1, trivial, trivial, ?_⟩
      rw [Process.goTo_agent]
      simp [AgentState.setPc, AgentPc.work]
  | loop =>
      refine ⟨_, _, .leave (ends (by simp)).2.1, trivial, trivial, ?_⟩
      rw [Process.goTo_agent]
      simp [AgentState.setPc, AgentPc.work]
  | schedule finished =>
      refine ⟨_, _, .scheduled, trivial, trivial, ?_⟩
      rw [Process.goTo_agent]
      simp [AgentState.setPc, AgentPc.work]
  | yielded finished =>
      cases isPinged : (process.agent cpu).pinged with
      | true =>
          refine ⟨_, _, .pinged isPinged, trivial, trivial, ?_⟩
          rw [Process.setAgent_agent]
          simp [AgentState.setPc, AgentPc.work]
      | false =>
          refine ⟨_, _, .message, trivial, isPinged, ?_⟩
          rw [Process.goTo_agent]
          simp [AgentState.setPc, AgentPc.work]
  | checkFinished =>
      refine ⟨_, _, .checkFinished, trivial, trivial, ?_⟩
      rw [Process.goTo_agent]
      split <;> simp [AgentState.setPc, AgentPc.work]
  | waitForExit =>
      refine ⟨_, _, .waitForExit (ends (by simp)).2.2, trivial, trivial, ?_⟩
      rw [Process.goTo_agent]
      simp [AgentState.setPc, AgentPc.work]
  | exiting =>
      refine ⟨_, _, .taskDead, trivial, trivial, ?_⟩
      rw [Process.goTo_agent]
      simp [AgentState.setPc, AgentPc.work]
  | freed => exact absurd alive (by decide)
  | failed => exact absurd alive (by decide)

/-- The process comes online. -/
def MainPc.starting : MainPc Cpu Eat → Bool
  | .startBegin _ | .startComplete _ | .lockWhen | .insertBpf _ | .discoverTasks | .enclaveReady _
  | .openOnline | .setOnline => true
  | _ => false

/-- The process is on its way out. -/
def MainPc.ending : MainPc Cpu Eat → Bool
  | .setOffline | .closeOnline | .destroyBpf _ | .notifyFinished _ | .ping _ _ | .notifyExit _ _
  | .join _ | .waitFree _ _ | .detachRep _ | .detachList _ _ => true
  | _ => false

/-- The process has nothing that another one needs. -/
structure Process.Quiet (process : Process Cpu Eat) : Prop where
  agents : ∀ cpu, ¬(process.agent cpu).pc.InGhost
  online : process.pc.hasOnline = false
  inserted : ∀ eat, process.inserted eat = false

def Host.Unrivalled (host : Host Proc Cpu Eat) (proc : Proc) : Prop :=
  ∀ other, other ≠ proc → (host.process other).Quiet

/-- The process comes online without a rival, or it ends. -/
def Host.GoesOn (host : Host Proc Cpu Eat) (proc : Proc) : Prop :=
  (host.process proc).pc.starting = true ∧ host.Unrivalled proc ∨
    (host.process proc).pc.ending = true ∨
    (host.process proc).pc = .serving ∧ (host.process proc).killAgent = true

variable {cpu : Cpu}

private theorem Host.Unrivalled.free (unrivalled : host.Unrivalled proc)
    (sound : host.Sound enclave registry)
    (away : ¬((host.process proc).agent cpu).pc.InGhost) : host.agentOf cpu = none := by
  cases holder : host.agentOf cpu with
  | none => rfl
  | some other =>
      have inGhost : ((host.process other).agent cpu).pc.InGhost :=
        (sound.agentOf cpu other).mp holder
      by_cases same : other = proc
      · exact absurd (same ▸ inGhost) away
      · exact absurd inGhost ((unrivalled other same).agents cpu)

private theorem Host.Unrivalled.offline (unrivalled : host.Unrivalled proc)
    (sound : host.Sound enclave registry)
    (away : (host.process proc).pc.hasOnline = false) : host.online = none := by
  cases holder : host.online with
  | none => rfl
  | some other =>
      have hasOnline : (host.process other).pc.hasOnline = true := (sound.online other).mp holder
      by_cases same : other = proc
      · subst same
        cases away.symm.trans hasOnline
      · cases (unrivalled other same).online.symm.trans hasOnline

private theorem Host.Unrivalled.unlinked (unrivalled : host.Unrivalled proc)
    (sound : host.Sound enclave registry) {eat : Eat}
    (away : (host.process proc).inserted eat = false) : host.links eat = none := by
  cases holder : host.links eat with
  | none => rfl
  | some other =>
      have inserted : (host.process other).inserted eat = true := (sound.links eat other).mp holder
      by_cases same : other = proc
      · subst same
        cases away.symm.trans inserted
      · cases ((unrivalled other same).inserted eat).symm.trans inserted

private theorem Process.Sound.all_listed (sound : process.Sound enclave)
    (stage : ∀ cpu, process.pc.stage cpu = 2) :
    process.agents.length = enclave.cpus.length := by
  apply List.Perm.length_eq
  rw [List.perm_ext_iff_of_nodup sound.agentsUnique enclave.nodup]
  intro cpu
  refine ⟨fun isListed => sound.agentsInEnclave isListed, fun member => ?_⟩
  have paired := sound.paired cpu member
  rw [stage] at paired
  have signalled := paired.started le_rfl
  exact of_decide_eq_true (paired.listed.mpr ⟨by omega, by omega⟩)

/-- A thread of the process can go on. -/
def Host.Advances [DecidableEq Eat] (enclave : EnclaveCpus Cpu) (programs : List Eat)
    (host : Host Proc Cpu Eat) (process : Process Cpu Eat) : Prop :=
  ∃ call process', process.Step enclave programs call process' ∧ host.Answers call ∧
    process.Responds call ∧ process'.work enclave programs < process.work enclave programs

variable [DecidableEq Eat] {programs : List Eat}

private theorem Process.MainStep.advances {call : KernelCall Cpu Eat}
    (sound : process.Sound enclave)
    (stepped : process.MainStep enclave programs process.pc call process')
    (answers : host.Answers call) (responds : process.Responds call)
    (linked : ∀ eat, call ≠ .insertBpf eat false) : host.Advances enclave programs process :=
  ⟨call, process', .main stepped, answers, responds, stepped.total_lt sound linked⟩

private theorem Unhindered.advances (unhindered : Unhindered host process cpu)
    (member : cpu ∈ enclave.cpus) : host.Advances enclave programs process := by
  obtain ⟨call, process', stepped, answers, responds, less⟩ := unhindered.step
  exact ⟨call, process', .agent stepped, answers, responds, stepped.total_lt member less⟩

omit [DecidableEq Cpu] [DecidableEq Eat] in
/-- The thread of an agent that is to end. -/
theorem Unhindered.of_terminated {stage : Nat} {rep listed : Bool}
    (paired : Paired stage (process.agent cpu) rep listed) (terminated : 7 ≤ stage)
    (notFreed : (process.agent cpu).pc ≠ .freed) (heeds : (process.agent cpu).Heeds
      host.online.isSome) (mu : process.holdsMu = false) : Unhindered host process cpu := by
  have started := paired.started (by omega)
  have alive := paired.alive
  have rank : (process.agent cpu).pc.rank ≠ 11 := by
    intro isFreed
    generalize (process.agent cpu).pc = pc at isFreed notFreed
    cases pc <;> first | exact notFreed rfl | cases isFreed
  refine ⟨by omega, by omega, fun waits => by omega, heeds, fun enters => ?_, mu, fun _ => ?_⟩
  · rw [enters] at started
    exact absurd started (by decide)
  · exact ⟨paired.enclaveReady.mpr (by omega), paired.finished.mpr (by omega),
      paired.doExit.mpr terminated⟩

omit [DecidableEq Eat] in
/-- The thread of an agent that starts up without a rival. -/
private theorem Host.Unrivalled.unhindered (unrivalled : host.Unrivalled proc)
    (sound : host.Sound enclave registry) (heeds : host.Heeds) {rest : List Cpu}
    (at_ : (host.process proc).pc = .startComplete (cpu :: rest))
    (notReady : ¬((host.process proc).agent cpu).ready = true) :
    Unhindered host (host.process proc) cpu := by
  have own := sound.process proc
  have member : cpu ∈ enclave.cpus := own.inEnclave (by simp [at_])
  have paired := own.paired cpu member
  rw [at_] at paired
  have begun := paired.begun
  have early : ¬6 ≤ ((host.process proc).agent cpu).pc.rank :=
    fun after => notReady (paired.ready.mpr after)
  simp only [MainPc.stage, List.mem_cons_self, if_true] at begun
  constructor
  case born => omega
  case alive => omega
  case offline => exact fun _ => unrivalled.offline sound (by rw [at_]; rfl)
  case heeds => exact heeds proc cpu
  case free =>
    intro enters
    apply unrivalled.free sound
    rw [enters]
    exact fun inGhost => absurd inGhost.1 (by decide)
  case mu => rw [Process.holdsMu, at_]
  case ends => exact fun after => absurd after early

private theorem Host.advances (sound : host.Sound enclave registry) (heeds : host.Heeds)
    (goesOn : host.GoesOn proc) :
    host.Advances enclave (registry proc) (host.process proc) := by
  have own := sound.process proc
  generalize at_ : (host.process proc).pc = pc
  have main : ∀ {call process'}, (host.process proc).MainStep enclave (registry proc) pc call
      process' → host.Answers call → (host.process proc).Responds call →
      (∀ eat, call ≠ .insertBpf eat false) →
      host.Advances enclave (registry proc) (host.process proc) := by
    intro call process' stepped answers responds linked
    exact (at_ ▸ stepped).advances own answers responds linked
  cases pc with
  | startBegin rest =>
      cases rest with
      | nil => exact main .startedAll trivial trivial (by simp)
      | cons cpu rest => exact main .startBegin trivial trivial (by simp)
  | startComplete rest =>
      cases rest with
      | nil => exact main .completedAll trivial trivial (by simp)
      | cons cpu rest =>
          by_cases isReady : ((host.process proc).agent cpu).ready = true
          · exact main (.startComplete isReady) trivial trivial (by simp)
          · obtain ⟨-, unrivalled⟩ := (goesOn.resolve_right (by simp [at_, MainPc.ending]))
            exact (unrivalled.unhindered sound heeds at_ isReady).advances
              (own.inEnclave (by simp [at_]))
  | lockWhen =>
      refine main (.lockWhen (own.all_listed fun cpu => ?_)) trivial trivial (by simp)
      rw [at_]
      rfl
  | insertBpf rest =>
      cases rest with
      | nil => exact main .insertedAll trivial trivial (by simp)
      | cons eat rest =>
          obtain ⟨-, unrivalled⟩ := (goesOn.resolve_right (by simp [at_, MainPc.ending]))
          cases isInserted : (host.process proc).inserted eat with
          | true => exact main (.alreadyInserted isInserted) trivial trivial (by simp)
          | false =>
              refine main (@Process.MainStep.insertBpf _ _ _ _ _ _ _ eat rest true isInserted) ?_
                trivial (by simp)
              exact Option.isNone_iff_eq_none.mpr (unrivalled.unlinked sound isInserted)
  | discoverTasks => exact main .discoverTasks trivial trivial (by simp)
  | enclaveReady rest =>
      cases rest with
      | nil => exact main .releasedAll trivial trivial (by simp)
      | cons cpu rest => exact main .enclaveReady trivial trivial (by simp)
  | openOnline =>
      refine main (@Process.MainStep.openOnline _ _ _ _ _ _ _ true) ?_ trivial (by simp)
      exact Option.isNone_iff_eq_none.mpr (sound.opens at_)
  | setOnline => exact main .setOnline trivial trivial (by simp)
  | serving =>
      have isKilled : (host.process proc).killAgent = true := by
        simpa [Host.GoesOn, at_, MainPc.starting, MainPc.ending] using goesOn
      exact main (.killed isKilled) trivial trivial (by simp)
  | setOffline => exact main .setOffline trivial trivial (by simp)
  | closeOnline => exact main .closeOnline trivial trivial (by simp)
  | destroyBpf rest =>
      cases rest with
      | nil => exact main .destroyedAll trivial trivial (by simp)
      | cons eat rest =>
          cases isInserted : (host.process proc).inserted eat with
          | true => exact main (.destroyBpf isInserted) trivial trivial (by simp)
          | false => exact main (.notInserted isInserted) trivial trivial (by simp)
  | notifyFinished rest =>
      cases rest with
      | nil => exact main .terminatedAll trivial trivial (by simp)
      | cons cpu rest => exact main .notifyFinished trivial trivial (by simp)
  | ping cpu rest =>
      exact main (@Process.MainStep.ping _ _ _ _ _ _ _ cpu rest true) trivial rfl (by simp)
  | notifyExit cpu rest => exact main .notifyExit trivial trivial (by simp)
  | join rest =>
      cases rest with
      | nil => exact main .joinedAll trivial trivial (by simp)
      | cons cpu rest =>
          by_cases returned : ((host.process proc).agent cpu).pc = .exiting ∨
              ((host.process proc).agent cpu).pc = .freed
          · exact main (.join returned) trivial trivial (by simp)
          · have member : cpu ∈ enclave.cpus := own.inEnclave (by simp [at_])
            refine Unhindered.advances (.of_terminated (own.paired cpu member) (by simp [at_])
              (fun freed => returned (.inr freed)) (heeds proc cpu) ?_) member
            rw [Process.holdsMu, at_]
  | waitFree cpu rest =>
      by_cases canFree : ((host.process proc).agent cpu).pc = .freed
      · exact main (.waitFree canFree) trivial trivial (by simp)
      · have member : cpu ∈ enclave.cpus := own.inEnclave (by simp [at_])
        refine Unhindered.advances (.of_terminated (own.paired cpu member) (by simp [at_])
          canFree (heeds proc cpu) ?_) member
        rw [Process.holdsMu, at_]
  | detachRep rest =>
      cases rest with
      | nil => exact main .detachedAll trivial trivial (by simp)
      | cons cpu rest => exact main .detachRep trivial trivial (by simp)
  | detachList cpu rest => exact main .detachList trivial trivial (by simp)
  | exited => simp [Host.GoesOn, at_, MainPc.starting, MainPc.ending] at goesOn
  | failed => exact absurd at_ own.alive

variable [DecidableEq Proc] {label : Proc × KernelCall Cpu Eat}

omit [DecidableEq Cpu] [DecidableEq Eat] [DecidableEq Proc] in
private theorem Process.onlineChanged_work (programs : List Eat) :
    process.onlineChanged.work enclave programs = process.work enclave programs := by
  have same : ∀ agent : AgentState, agent.onlineChanged.pc.work = agent.pc.work := by
    intro agent
    unfold AgentState.onlineChanged
    cases at_ : agent.pc with
    | waitForOldAgent watch => rfl
    | _ => exact congrArg AgentPc.work at_
  exact congrArg (process.pc.work enclave.cpus.length programs.length + List.sum ·)
    (List.map_congr_left fun cpu _ => same (process.agent cpu))

omit [DecidableEq Cpu] [DecidableEq Eat] [DecidableEq Proc] in
private theorem Process.Quiet.onlineChanged (quiet : process.Quiet) :
    process.onlineChanged.Quiet := by
  refine ⟨fun cpu inGhost => quiet.agents cpu ?_, quiet.online, quiet.inserted⟩
  unfold AgentPc.InGhost at inGhost ⊢
  rwa [show (process.onlineChanged.agent cpu).pc.rank = (process.agent cpu).pc.rank from
    AgentState.onlineChanged_rank _] at inGhost

theorem Host.Unrivalled.step (unrivalled : host.Unrivalled proc)
    (stepped : Host.Step enclave registry host label next) (own : label.1 = proc) :
    next.Unrivalled proc := by
  obtain ⟨process', -, hears⟩ := stepped.hears
  intro other different
  obtain same | changed := hears.others other (own ▸ different)
  · exact same ▸ unrivalled other different
  · exact changed ▸ (unrivalled other different).onlineChanged

/-- A step of a process that goes on. -/
theorem Host.exists_step (sound : host.Sound enclave registry) (heeds : host.Heeds)
    (goesOn : host.GoesOn proc) : ∃ call next process',
      Host.Step enclave registry host (proc, call) next ∧
      (host.process proc).Step enclave (registry proc) call process' ∧
      Host.Hears proc process' host next ∧ (host.process proc).Responds call ∧
      (next.process proc).work enclave (registry proc) <
        (host.process proc).work enclave (registry proc) := by
  obtain ⟨call, process', moved, answers, responds, less⟩ := Host.advances sound heeds goesOn
  have stepped : Host.Step enclave registry host (proc, call)
      ((host.setProcess proc process').effect proc call) := .intro moved answers
  have hears : Host.Hears proc process' host
      ((host.setProcess proc process').effect proc call) := Host.effect_hears
  refine ⟨call, _, process', stepped, moved, hears, responds, ?_⟩
  obtain same | changed := hears.self
  · rwa [same]
  · rwa [changed, Process.onlineChanged_work]

private theorem Process.Step.killAgent {call : KernelCall Cpu Eat}
    (stepped : process.Step enclave programs call process') (isKilled : process.killAgent = true) :
    process'.killAgent = true := by
  cases stepped with
  | main moved =>
      generalize process.pc = pc at moved
      cases moved with
      | insertBpf => split <;> exact isKilled
      | enclaveReady =>
          unfold Process.notify
          split_ifs <;> exact isKilled
      | notifyFinished =>
          unfold Process.notify
          split <;> exact isKilled
      | notifyExit =>
          unfold Process.notify
          split <;> exact isKilled
      | _ => exact isKilled
  | agent moved =>
      generalize (process.agent _).pc = before at moved
      cases moved with
      | attachRep => split <;> exact isKilled
      | _ => exact isKilled
  | kill => rfl

/-- Where the main thread of a process gets to. -/
structure MainPc.Follows (pc pc' : MainPc Cpu Eat) : Prop where
  starting : pc.starting = true → pc'.starting = true ∨ pc' = .serving
  serving : pc = .serving → pc' = .serving ∨ pc'.ending = true
  ending : pc.ending = true → pc'.ending = true ∨ pc' = .exited

omit [DecidableEq Cpu] [DecidableEq Eat] [DecidableEq Proc] in
private theorem MainPc.Follows.refl (pc : MainPc Cpu Eat) : pc.Follows pc :=
  ⟨.inl, .inl, .inl⟩

private theorem Process.MainStep.follows {call : KernelCall Cpu Eat} {pc : MainPc Cpu Eat}
    (stepped : process.MainStep enclave programs pc call process') (alive : process'.pc ≠ .failed) :
    pc.Follows process'.pc := by
  cases stepped with
  | @insertBpf eat rest inserted =>
      cases inserted <;> constructor <;> simp [Process.setPc, MainPc.starting, MainPc.ending]
  | enclaveReady =>
      unfold Process.notify at alive ⊢
      split_ifs at alive ⊢
      · exact absurd rfl alive
      · constructor <;> simp [Process.setPc, MainPc.starting, MainPc.ending]
      · exact absurd rfl alive
  | @openOnline opened =>
      cases opened with
      | false => exact absurd rfl alive
      | true => constructor <;> simp [Process.setPc, MainPc.starting, MainPc.ending]
  | notifyFinished =>
      unfold Process.notify at alive ⊢
      split_ifs at alive ⊢
      · exact absurd rfl alive
      · constructor <;> simp [Process.setPc, MainPc.starting, MainPc.ending]
  | notifyExit =>
      unfold Process.notify at alive ⊢
      split_ifs at alive ⊢
      · exact absurd rfl alive
      · constructor <;> simp [Process.setPc, MainPc.starting, MainPc.ending]
  | _ => constructor <;> simp [Process.setPc, MainPc.starting, MainPc.ending]

omit [DecidableEq Eat] [DecidableEq Proc] in
private theorem Process.Sound.served (sound : process.Sound enclave)
    (started : process.pc.starting = false) :
    process.pc = .serving ∨ process.pc.ending = true ∨ process.pc = .exited := by
  have alive := sound.alive
  generalize process.pc = pc at started alive ⊢
  cases pc with
  | serving => exact .inl rfl
  | exited => exact .inr (.inr rfl)
  | failed => exact absurd rfl alive
  | _ => first | exact .inr (.inl rfl) | cases started

private theorem Process.Step.follows {call : KernelCall Cpu Eat}
    (stepped : process.Step enclave programs call process') (alive : process'.pc ≠ .failed) :
    process.pc.Follows process'.pc := by
  cases stepped with
  | main moved => exact moved.follows alive
  | agent moved => exact moved.main.1 ▸ .refl _
  | kill => exact .refl _

/-! ## Runs -/

/-- What runs of one process keep. -/
structure Host.Fine (enclave : EnclaveCpus Cpu) (registry : Proc → List Eat)
    (host : Host Proc Cpu Eat) : Prop where
  sound : host.Sound enclave registry
  heeds : host.Heeds

theorem Host.Fine.step (fine : host.Fine enclave registry)
    (stepped : Host.Step enclave registry host label next) : next.Fine enclave registry :=
  ⟨fine.sound.step stepped, fine.heeds.step stepped⟩

omit [DecidableEq Proc] in
private theorem Host.Hears.follows {call : KernelCall Cpu Eat}
    (hears : Host.Hears proc process' host next)
    (stepped : (host.process proc).Step enclave programs call process')
    (sound : next.Sound enclave registry) :
    (host.process proc).pc.Follows (next.process proc).pc ∧
      ((host.process proc).killAgent = true → (next.process proc).killAgent = true) := by
  have same : (next.process proc).pc = process'.pc ∧
      (next.process proc).killAgent = process'.killAgent := by
    obtain same | changed := hears.self
    · rw [same]
      exact ⟨rfl, rfl⟩
    · rw [changed]
      exact ⟨rfl, rfl⟩
  have alive := (sound.process proc).alive
  rw [same.1] at alive ⊢
  rw [same.2]
  exact ⟨stepped.follows alive, stepped.killAgent⟩

private theorem Host.Fine.startUp (fine : host.Fine enclave registry)
    (starting : (host.process proc).pc.starting = true) (unrivalled : host.Unrivalled proc) :
    ∃ labels last, ((lifeCycle Proc enclave registry).restrict
        fun state label => label.1 = proc ∧ (state.process label.1).Responds label.2).Run host
          labels last ∧
      last.Fine enclave registry ∧ (last.process proc).pc = .serving := by
  have reached := @Machine.Run.exists_of_work _ _ ((lifeCycle Proc enclave registry).restrict
      fun state label => label.1 = proc ∧ (state.process label.1).Responds label.2)
    (fun state => state.Fine enclave registry ∧ state.Unrivalled proc ∧
      ((state.process proc).pc.starting = true ∨ (state.process proc).pc = .serving))
    (fun state => (state.process proc).pc = .serving)
    (fun state => (state.process proc).work enclave (registry proc)) ?_ host
    ⟨fine, unrivalled, .inl starting⟩
  · obtain ⟨labels, last, run, good, serving⟩ := reached
    exact ⟨labels, last, run, good.1, serving⟩
  · intro state good notServing
    obtain ⟨fine, unrivalled, goes⟩ := good
    have starting := goes.resolve_right notServing
    obtain ⟨call, next, process', stepped, moved, hears, responds, less⟩ :=
      Host.exists_step fine.sound fine.heeds (.inl ⟨starting, unrivalled⟩)
    have fine' := fine.step stepped
    refine ⟨(proc, call), next, ⟨⟨rfl, responds⟩, stepped⟩, ⟨fine', unrivalled.step stepped rfl, ?_⟩, less⟩
    exact (hears.follows moved fine'.sound).1.starting starting

private theorem Host.Fine.shutDown (fine : host.Fine enclave registry)
    (isKilled : (host.process proc).killAgent = true)
    (online : (host.process proc).pc = .serving ∨ (host.process proc).pc.ending = true ∨
      (host.process proc).pc = .exited) :
    ∃ labels last, ((lifeCycle Proc enclave registry).restrict
        fun state label => label.1 = proc ∧ (state.process label.1).Responds label.2).Run host
          labels last ∧
      last.Fine enclave registry ∧ (last.process proc).pc = .exited := by
  have reached := @Machine.Run.exists_of_work _ _ ((lifeCycle Proc enclave registry).restrict
      fun state label => label.1 = proc ∧ (state.process label.1).Responds label.2)
    (fun state => state.Fine enclave registry ∧ (state.process proc).killAgent = true ∧
      ((state.process proc).pc = .serving ∨ (state.process proc).pc.ending = true ∨
        (state.process proc).pc = .exited))
    (fun state => (state.process proc).pc = .exited)
    (fun state => (state.process proc).work enclave (registry proc)) ?_ host
    ⟨fine, isKilled, online⟩
  · obtain ⟨labels, last, run, good, exited⟩ := reached
    exact ⟨labels, last, run, good.1, exited⟩
  · intro state good notExited
    obtain ⟨fine, isKilled, goes⟩ := good
    have goesOn : state.GoesOn proc := by
      obtain serving | ending | exited := goes
      · exact .inr (.inr ⟨serving, isKilled⟩)
      · exact .inr (.inl ending)
      · exact absurd exited notExited
    obtain ⟨call, next, process', stepped, moved, hears, responds, less⟩ :=
      Host.exists_step fine.sound fine.heeds goesOn
    have fine' := fine.step stepped
    obtain ⟨follows, stays⟩ := hears.follows moved fine'.sound
    refine ⟨(proc, call), next, ⟨⟨rfl, responds⟩, stepped⟩, ⟨fine', stays isKilled, ?_⟩, less⟩
    obtain serving | ending | exited := goes
    · exact (follows.serving serving).imp_right .inl
    · exact .inr (follows.ending ending)
    · exact absurd exited notExited

/-- A run of one process leaves the others where they are. -/
theorem Host.others_of_run {labels : List (Proc × KernelCall Cpu Eat)}
    (run : ((lifeCycle Proc enclave registry).restrict
      fun state label => label.1 = proc ∧ (state.process label.1).Responds label.2).Run host labels
        next) {other : Proc} (different : other ≠ proc) :
    (next.process other).pc = (host.process other).pc ∧
      ((host.process other).Quiet → (next.process other).Quiet) := by
  apply run.invariant (fun state => (state.process other).pc = (host.process other).pc ∧
    ((host.process other).Quiet → (state.process other).Quiet))
  · intro state label after kept stepped
    obtain ⟨⟨own, -⟩, stepped⟩ := stepped
    obtain ⟨process', -, hears⟩ := stepped.hears
    obtain same | changed := hears.others other (own ▸ different)
    · rwa [same]
    · rw [changed]
      exact ⟨kept.1, fun quiet => (kept.2 quiet).onlineChanged⟩
  · exact ⟨rfl, id⟩

omit [DecidableEq Proc] [DecidableEq Eat] in
private theorem Host.Sound.quiet_of_exited (sound : host.Sound enclave registry)
    (exited : (host.process proc).pc = .exited) : (host.process proc).Quiet := by
  refine ⟨fun cpu inGhost => ?_, ?_, ?_⟩
  · by_cases member : cpu ∈ enclave.cpus
    · have paired := (sound.process proc).paired cpu member
      rw [exited] at paired
      exact inGhost.2 (le_antisymm paired.alive (paired.freed (by simp)))
    · rw [AgentPc.InGhost, (sound.process proc).outside cpu member] at inGhost
      exact absurd inGhost.1 (by decide)
  · rw [exited]
    rfl
  · have links := (sound.tracked proc).links
    rw [exited] at links
    exact links

/-- An upgrade can always be completed: the old process, once it is past its start-up and killed,
exits, and the new one then comes online. Every `Ping` wakes its agent, and messages are needed only
by agents that have no `Ping` to come. -/
theorem upgrade_completes (reachable : (lifeCycle Proc enclave registry).Reachable host)
    {old new : Proc} (different : old ≠ new) (isKilled : (host.process old).killAgent = true)
    (started : (host.process old).pc.starting = false)
    (starting : (host.process new).pc.starting = true)
    (quiet : ∀ other, other ≠ old → other ≠ new → (host.process other).Quiet) :
    ∃ labels last, ((lifeCycle Proc enclave registry).restrict fun state label =>
        (label.1 = old ∨ label.1 = new) ∧ (state.process label.1).Responds label.2).Run host
          labels last ∧
      (last.process old).pc = .exited ∧ (last.process new).pc = .serving := by
  have fine : host.Fine enclave registry := ⟨.of_reachable reachable, .of_reachable reachable⟩
  obtain ⟨labels, middle, run, fine', exited⟩ :=
    fine.shutDown isKilled ((fine.sound.process old).served started)
  have starting' : (middle.process new).pc.starting = true := by
    rw [(Host.others_of_run run different.symm).1]
    exact starting
  have unrivalled : middle.Unrivalled new := by
    intro other isOther
    by_cases isOld : other = old
    · exact isOld ▸ fine'.sound.quiet_of_exited exited
    · exact (Host.others_of_run run isOld).2 (quiet other isOld isOther)
  obtain ⟨labels', last, run', -, serving⟩ := fine'.startUp starting' unrivalled
  refine ⟨labels ++ labels', last, ?_, ?_, serving⟩
  · exact (run.restrict_mono fun _ _ own => own.imp_left .inl).append
      (run'.restrict_mono fun _ _ own => own.imp_left .inr)
  · rw [(Host.others_of_run run' different).1]
    exact exited

/-- While the old process serves, and is killed, the new one starts up. -/
def succession : List (Bool × Turn Unit) :=
  startUp.map (fun turn => (false, turn.2)) ++ [(false, Turn.kill), (true, Turn.main)]

theorem upgrade_completes_succession :
    ∃ host : Host Bool Unit Unit,
      (lifeCycle Bool oneCpu fun _ => [()]).Reachable host ∧
      (host.process false).isOnline = true ∧
      ∃ labels last, ((lifeCycle Bool oneCpu fun _ => [()]).restrict fun state label =>
          (label.1 = false ∨ label.1 = true) ∧ (state.process label.1).Responds label.2).Run host
            labels last ∧
        (last.process false).pc = .exited ∧ (last.process true).pc = .serving := by
  obtain ⟨host, reachable, holds⟩ := @Host.exists_of_any Unit _ _ _ Bool _ oneCpu
    (fun _ => [()])
    (fun host => (host.process false).isOnline && (host.process false).killAgent &&
      !(host.process false).pc.starting && (host.process true).pc.starting)
    succession (by decide +kernel)
  simp only [Bool.and_eq_true, Bool.not_eq_true'] at holds
  refine ⟨host, reachable, holds.1.1.1, upgrade_completes reachable Bool.false_ne_true
    holds.1.1.2 holds.1.2 holds.2 fun other notOld notNew => ?_⟩
  cases other with
  | false => exact absurd rfl notOld
  | true => exact absurd rfl notNew

/-! ## Two upgrades at once -/

/-- The process waits for its agents to take their CPUs. -/
def MainPc.assembling : MainPc Cpu Eat → Bool
  | .startBegin _ | .startComplete _ => true
  | _ => false

omit [DecidableEq Eat] [DecidableEq Proc] in
private theorem MainPc.stage_of_assembling {pc : MainPc Cpu Eat}
    (assembling : pc.assembling = true) :
    pc.stage cpu ≤ 2 := by
  cases pc with
  | startBegin rest | startComplete rest => simp only [MainPc.stage]; split <;> decide
  | _ => cases assembling

/-- Two processes that start up, each with the agent of one CPU. -/
structure Host.Rivals (host : Host Proc Cpu Eat) (proc other : Proc) (cpu cpu' : Cpu) :
    Prop where
  different : proc ≠ other
  assembling : (host.process proc).pc.assembling = true
  assembling' : (host.process other).pc.assembling = true
  holds : host.agentOf cpu = some proc
  holds' : host.agentOf cpu' = some other

variable {other : Proc} {cpu' : Cpu}

omit [DecidableEq Cpu] [DecidableEq Eat] [DecidableEq Proc] in
private theorem Host.Rivals.symm (rivals : host.Rivals proc other cpu cpu') :
    host.Rivals other proc cpu' cpu :=
  ⟨rivals.different.symm, rivals.assembling', rivals.assembling, rivals.holds', rivals.holds⟩

omit [DecidableEq Eat] [DecidableEq Proc] in
/-- While another process has a CPU, not all agents of a process are in ghOSt. -/
theorem Host.Sound.stage_of_taken (sound : host.Sound enclave registry)
    (holds : host.agentOf cpu = some other) (different : proc ≠ other) :
    (host.process proc).pc.stage cpu < 2 ∨ 6 < (host.process proc).pc.stage cpu := by
  have inGhost : ((host.process other).agent cpu).pc.InGhost := (sound.agentOf cpu other).mp holds
  have member : cpu ∈ enclave.cpus := by
    by_contra isOutside
    rw [AgentPc.InGhost, (sound.process other).outside cpu isOutside] at inGhost
    exact absurd inGhost.1 (by decide)
  by_contra between
  have paired := (sound.process proc).paired cpu member
  exact different ((sound.agentOf cpu).unique (paired.inGhost (by omega) (by omega)) inGhost)

private theorem Host.Rivals.assembles (rivals : host.Rivals proc other cpu cpu')
    (sound : host.Sound enclave registry)
    (stepped : Host.Step enclave registry host label next) :
    (next.process proc).pc.assembling = true := by
  obtain ⟨mover, call⟩ := label
  obtain ⟨process', moved, hears⟩ := stepped.hears
  by_cases own : mover = proc
  · subst own
    have self : (next.process mover).pc = process'.pc := by
      obtain same | changed := hears.self
      · rw [same]
      · rw [changed]
        rfl
    rw [self]
    have assembling := rivals.assembling
    cases moved with
    | main moved =>
        have taken := sound.stage_of_taken rivals.holds' rivals.different
        generalize (host.process mover).pc = pc at moved assembling taken
        cases moved with
        | startBegin | startedAll | startComplete => rfl
        | completedAll => simp at taken
        | _ => cases assembling
    | agent moved => rwa [moved.main.1]
    | kill => exact assembling
  · obtain same | changed := hears.others proc (Ne.symm own)
    · rw [same]
      exact rivals.assembling
    · rw [changed]
      exact rivals.assembling

private theorem Host.Rivals.keeps (rivals : host.Rivals proc other cpu cpu')
    (sound : host.Sound enclave registry)
    (stepped : Host.Step enclave registry host label next) :
    next.agentOf cpu = some proc := by
  cases stepped with
  | @intro mover call process' moved answers =>
      by_cases stays : call.moves = some cpu
      · cases call with
        | enterGhost head entered =>
            cases entered with
            | false => cases stays
            | true =>
                cases stays
                have free : host.agentOf cpu = none := Option.isNone_iff_eq_none.mp answers
                cases free.symm.trans rivals.holds
        | taskDead head =>
            cases stays
            have rank := moved.taskDead.1
            have inGhost : ((host.process mover).agent cpu).pc.InGhost := by
              rw [rank]
              decide
            have same : mover = proc := (sound.agentOf cpu).unique inGhost
              ((sound.agentOf cpu proc).mp rivals.holds)
            subst same
            have member : cpu ∈ enclave.cpus := by
              by_contra isOutside
              rw [(sound.process mover).outside cpu isOutside] at rank
              cases rank
            have exits := ((sound.process mover).paired cpu member).exits (by simp [rank])
            have stage := @MainPc.stage_of_assembling _ _ _ cpu _ rivals.assembling
            omega
        | _ => cases stays
      · rw [Host.effect_agentOf stays]
        exact rivals.holds

theorem Host.Rivals.step (rivals : host.Rivals proc other cpu cpu')
    (sound : host.Sound enclave registry)
    (stepped : Host.Step enclave registry host label next) :
    next.Rivals proc other cpu cpu' :=
  ⟨rivals.different, rivals.assembles sound stepped, rivals.symm.assembles sound stepped,
    rivals.keeps sound stepped, rivals.symm.keeps sound stepped⟩

omit [DecidableEq Eat] [DecidableEq Proc] in
private theorem Host.Rivals.offline (rivals : host.Rivals proc other cpu cpu')
    (sound : host.Sound enclave registry) : host.online = none := by
  cases holder : host.online with
  | none => rfl
  | some server =>
      have hasOnline : (host.process server).pc.hasOnline = true :=
        (sound.online server).mp holder
      by_cases same : server = proc
      · subst same
        have taken := sound.stage_of_taken rivals.holds' rivals.different
        rw [MainPc.stage_of_hasOnline hasOnline] at taken
        omega
      · have taken := sound.stage_of_taken rivals.holds same
        rw [MainPc.stage_of_hasOnline hasOnline] at taken
        omega

/-- Two processes that start up at once, and take a CPU each, wait for each other for good, and
no process comes online any more. -/
theorem rival_upgrades_deadlock (reachable : (lifeCycle Proc enclave registry).Reachable host)
    (rivals : host.Rivals proc other cpu cpu') {labels : List (Proc × KernelCall Cpu Eat)}
    {last : Host Proc Cpu Eat}
    (run : (lifeCycle Proc enclave registry).Run host labels last) :
    last.Rivals proc other cpu cpu' ∧ last.online = none ∧
      ∀ server, (last.process server).isOnline = false := by
  have kept : last.Sound enclave registry ∧ last.Rivals proc other cpu cpu' := by
    apply run.invariant fun state => state.Sound enclave registry ∧
      state.Rivals proc other cpu cpu'
    · exact fun state label next kept stepped =>
        ⟨kept.1.step stepped, kept.2.step kept.1 stepped⟩
    · exact ⟨.of_reachable reachable, rivals⟩
  obtain ⟨sound, rivals'⟩ := kept
  have offline := rivals'.offline sound
  refine ⟨rivals', offline, fun server => ?_⟩
  apply Bool.eq_false_of_not_eq_true
  intro isOnline
  have tracked := (sound.tracked server).isOnline (sound.process server).alive
  have hasOnline := MainPc.hasOnline_of_isOnline (tracked.symm.trans isOnline)
  cases offline.symm.trans ((sound.online server).mpr hasOnline)

def rivalStarts : List (Bool × Turn Bool) :=
  List.replicate 3 (false, Turn.main) ++ List.replicate 3 (true, Turn.main) ++
    List.replicate 4 (false, Turn.agent false false) ++
      List.replicate 4 (true, Turn.agent true false)

theorem rival_upgrades_deadlock_assembling :
    ∃ host : Host Bool Bool Unit,
      (lifeCycle Bool bothCpus fun _ => [()]).Reachable host ∧
      host.Rivals false true false true ∧ host.online = none := by
  obtain ⟨host, reachable, holds⟩ := @Host.exists_of_any Bool _ _ _ Bool _ bothCpus
    (fun _ => [()])
    (fun host => (host.process false).pc.assembling && (host.process true).pc.assembling &&
      decide (host.agentOf false = some false) && decide (host.agentOf true = some true))
    rivalStarts (by decide +kernel)
  simp only [Bool.and_eq_true, decide_eq_true_eq] at holds
  have rivals : host.Rivals false true false true :=
    ⟨Bool.false_ne_true, holds.1.1.1, holds.1.1.2, holds.1.2, holds.2⟩
  exact ⟨host, reachable, rivals, (rival_upgrades_deadlock reachable rivals (.nil host)).2.1⟩

end Progress

end Ghost.Agent
