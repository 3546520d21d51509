import Ghost.Biff.Queueing

/-!
# Ticks

`current` of a CPU against the threads that the kernel has on it, and which CPUs
`handle_cpu_tick` reschedules.
-/

set_option autoImplicit false

namespace Ghost.Biff

open Lib

/-! ## What a message does to `current` -/

section Messages

variable {Core Gtid : Type} [DecidableEq Core] [DecidableEq Gtid] {maps : Maps Core Gtid}
  {gtid : Gtid} {cpu : Core} {now : BitVec 64} {seqnum : BitVec 32} {msg : Msg Core Gtid}

/-- A message whose handler takes the current task off a CPU, if the task is known. -/
def Msg.Vacates (gtid : Gtid) (cpu : Core) : Msg Core Gtid → Prop
  | .taskBlocked name on | .taskPreempt name on | .taskYield name on => name = gtid ∧ on = cpu
  | .taskDeparted name on wasCurrent => name = gtid ∧ on = cpu ∧ wasCurrent = true
  | _ => False

def Msg.Occupies (cpu : Core) : Msg Core Gtid → Prop
  | .taskOnCpu _ on _ => on = cpu
  | _ => False

omit [DecidableEq Core] [DecidableEq Gtid] in
private theorem Maps.enqueueTask_frame : (maps.enqueueTask gtid seqnum).cpuData = maps.cpuData ∧
    (maps.enqueueTask gtid seqnum).initialized = maps.initialized := by
  unfold Maps.enqueueTask
  split <;> exact ⟨rfl, rfl⟩

omit [DecidableEq Core] in
private theorem Maps.handleNew_frame {parent : Option Gtid} {runnable : Bool}
    {swInfo : TaskSwInfo} :
    (maps.handleNew now seqnum gtid parent runnable swInfo).cpuData = maps.cpuData ∧
      (maps.handleNew now seqnum gtid parent runnable swInfo).initialized = maps.initialized := by
  unfold Maps.handleNew
  cases inserted : maps.updateNoexist gtid swInfo with
  | none => exact ⟨rfl, rfl⟩
  | some known =>
      have same : known.cpuData = maps.cpuData ∧ known.initialized = maps.initialized := by
        unfold Maps.updateNoexist at inserted
        split at inserted
        · cases inserted
        · cases inserted
          exact ⟨rfl, rfl⟩
      rw [← same.1, ← same.2]
      dsimp only
      cases known.gtidToSwd gtid with
      | none => exact ⟨rfl, rfl⟩
      | some swd =>
          cases runnable with
          | true => exact Maps.enqueueTask_frame
          | false => exact ⟨rfl, rfl⟩

omit [DecidableEq Gtid] in
private theorem Maps.taskStopped_self : ((maps.taskStopped cpu).cpuData cpu).current = none := by
  unfold Maps.taskStopped Maps.setPcpu
  simp

omit [DecidableEq Gtid] in
private theorem Maps.taskStopped_current {on : Core}
    (current : ((maps.taskStopped on).cpuData cpu).current ≠ none) :
    (maps.cpuData cpu).current ≠ none := by
  by_cases same : cpu = on
  · subst same
    exact absurd Maps.taskStopped_self current
  · rwa [show (maps.taskStopped on).cpuData cpu = maps.cpuData cpu from
      Function.update_of_ne same _ _] at current

private theorem Maps.send_initialized :
    (maps.biffMsgSend now seqnum msg).initialized = maps.initialized := by
  cases msg with
  | taskNew => exact Maps.handleNew_frame.2
  | taskOnCpu name =>
      simp only [Maps.biffMsgSend, Maps.handleOnCpu]
      cases maps.gtidToSwd name <;> rfl
  | taskBlocked name =>
      simp only [Maps.biffMsgSend, Maps.handleBlocked]
      cases maps.gtidToSwd name <;> rfl
  | taskWakeup name =>
      simp only [Maps.biffMsgSend, Maps.handleWakeup]
      cases maps.gtidToSwd name with
      | none => rfl
      | some => exact Maps.enqueueTask_frame.2
  | taskPreempt name | taskYield name =>
      simp only [Maps.biffMsgSend, Maps.handlePreempt, Maps.handleYield, Maps.handleStopped]
      cases maps.gtidToSwd name with
      | none => rfl
      | some => exact Maps.enqueueTask_frame.2
  | taskSwitchto name =>
      simp only [Maps.biffMsgSend, Maps.handleSwitchto]
      cases maps.gtidToSwd name <;> rfl
  | taskDeparted name on wasCurrent => cases wasCurrent <;> rfl
  | _ => rfl

private theorem Maps.send_vacates (vacates : msg.Vacates gtid cpu) (known : maps.Known gtid) :
    ((maps.biffMsgSend now seqnum msg).cpuData cpu).current = none := by
  obtain ⟨swd, isSwd⟩ := Option.ne_none_iff_exists'.mp known
  cases msg with
  | taskBlocked name on =>
      obtain ⟨rfl, rfl⟩ := vacates
      simp only [Maps.biffMsgSend, Maps.handleBlocked, isSwd]
      exact Maps.taskStopped_self
  | taskPreempt name on | taskYield name on =>
      obtain ⟨rfl, rfl⟩ := vacates
      simp only [Maps.biffMsgSend, Maps.handlePreempt, Maps.handleYield, Maps.handleStopped, isSwd,
        Maps.enqueueTask_frame.1]
      exact Maps.taskStopped_self
  | taskDeparted name on wasCurrent =>
      obtain ⟨rfl, rfl, rfl⟩ := vacates
      exact Maps.taskStopped_self
  | _ => cases vacates

/-- Only `MSG_TASK_ON_CPU` gives a CPU a current task. -/
theorem Maps.send_current
    (current : ((maps.biffMsgSend now seqnum msg).cpuData cpu).current ≠ none) :
    (maps.cpuData cpu).current ≠ none ∨ msg.Occupies cpu := by
  cases msg with
  | taskNew =>
      left
      simp only [Maps.biffMsgSend, Maps.handleNew_frame.1] at current
      exact current
  | taskOnCpu name on =>
      simp only [Maps.biffMsgSend, Maps.handleOnCpu] at current
      by_cases same : on = cpu
      · exact .inr same
      · left
        cases found : maps.gtidToSwd name with
        | none => simpa only [found] using current
        | some swd =>
            simp only [found, Maps.taskStarted, Maps.setPcpu, Function.update_of_ne (Ne.symm same)]
              at current
            exact current
  | taskBlocked name on =>
      left
      simp only [Maps.biffMsgSend, Maps.handleBlocked] at current
      cases found : maps.gtidToSwd name with
      | none => simpa only [found] using current
      | some swd =>
          rw [found] at current
          exact Maps.taskStopped_current current
  | taskWakeup name =>
      left
      simp only [Maps.biffMsgSend, Maps.handleWakeup] at current
      cases found : maps.gtidToSwd name with
      | none => simpa only [found] using current
      | some swd =>
          simp only [found, Maps.enqueueTask_frame.1] at current
          exact current
  | taskPreempt name on | taskYield name on =>
      left
      simp only [Maps.biffMsgSend, Maps.handlePreempt, Maps.handleYield, Maps.handleStopped]
        at current
      cases found : maps.gtidToSwd name with
      | none => simpa only [found] using current
      | some swd =>
          simp only [found, Maps.enqueueTask_frame.1] at current
          exact Maps.taskStopped_current current
  | taskSwitchto name =>
      left
      simp only [Maps.biffMsgSend, Maps.handleSwitchto] at current
      cases found : maps.gtidToSwd name with
      | none => simpa only [found] using current
      | some swd =>
          rw [found] at current
          exact current
  | taskDeparted name on wasCurrent =>
      left
      cases wasCurrent with
      | true => exact Maps.taskStopped_current current
      | false => exact current
  | cpuAvailable on | cpuBusy on =>
      left
      by_cases same : cpu = on
      · subst same
        simpa [Maps.biffMsgSend, Maps.handleCpuAvailable, Maps.setPcpu] using current
      · simpa [Maps.biffMsgSend, Maps.handleCpuAvailable, Maps.setPcpu, same] using current
  | _ => exact .inl current

end Messages

/-! ## What a thread does to its CPU -/

section Phases

variable {Core Gtid : Type} {gtid : Gtid} {cpu : Core} {phase phase' : Phase Core} {event : Event}
  {msg : Msg Core Gtid}

private theorem Phase.after_seat (happens : phase.after gtid event = some (phase', msg))
    (vacant : phase.seat = none) : phase'.seat = none := by
  cases event with
  | unhandled => cases phase <;> cases happens <;> exact vacant
  | _ => cases phase <;> cases happens <;> first | rfl | cases vacant

private theorem Phase.after_running {fromSwitchto : Bool}
    (happens : (Phase.running cpu fromSwitchto).after gtid event = some (phase', msg)) :
    phase' = .running cpu fromSwitchto ∨ msg.Vacates gtid cpu := by
  cases event with
  | unhandled =>
      cases happens
      exact .inl rfl
  | blocks | preempted | yields =>
      cases happens
      exact .inr ⟨rfl, rfl⟩
  | _ => cases happens

private theorem Phase.after_occupies (happens : phase.after gtid event = some (phase', msg))
    (occupies : msg.Occupies cpu) : phase' = .running cpu false := by
  cases event with
  | getsOnCpu cpuSeqnum =>
      cases phase <;> cases happens
      obtain rfl := occupies
      rfl
  | _ => cases phase <;> cases happens <;> cases occupies

private theorem Phase.Leaves.vacates {fromSwitchto : Bool}
    (leaves : (Phase.running cpu fromSwitchto).Leaves gtid msg) : msg.Vacates gtid cpu := by
  cases leaves with
  | current => exact ⟨rfl, rfl, rfl⟩
  | departs on notRunning => exact absurd rfl (notRunning cpu fromSwitchto)

private theorem Phase.Leaves.not_occupies (leaves : phase.Leaves gtid msg) : ¬msg.Occupies cpu := by
  cases leaves <;> exact not_false

end Phases

/-! ## Current tasks -/

section Steps

variable {Core Gtid : Type} [DecidableEq Core] [DecidableEq Gtid] {system next : System Core Gtid}
  {action : Action Core Gtid} {gtid name : Gtid} {cpu : Core} {thread : Thread Core}

/-- A thread of the enclave runs on the CPU. -/
def System.Occupied (system : System Core Gtid) (cpu : Core) : Prop :=
  ∃ gtid thread fromSwitchto, system.threads gtid = some thread ∧
    thread.phase = .running cpu fromSwitchto

/-- A CPU with a current task is occupied. Before Discovery is complete `biff_pnt` does nothing. -/
structure System.Tracks (system : System Core Gtid) : Prop where
  known : system.maps.initialized = true → ∀ gtid, system.threads gtid ≠ none →
    system.maps.Known gtid
  idle : system.maps.initialized = false → ∀ cpu, system.pnts cpu = .idle
  vacant : system.maps.initialized = false → ∀ gtid thread, system.threads gtid = some thread →
    thread.phase.seat = none
  current : ∀ cpu, (system.maps.cpuData cpu).current ≠ none → system.Occupied cpu

omit [DecidableEq Core] in
private theorem System.Tracks.known_of_running (tracks : system.Tracks) {fromSwitchto : Bool}
    (isThread : system.threads name = some thread)
    (running : thread.phase = .running cpu fromSwitchto) : system.maps.Known name := by
  apply tracks.known _ name (by rw [isThread]; exact Option.some_ne_none _)
  rw [← Bool.not_eq_false]
  intro early
  have seat := tracks.vacant early name thread isThread
  rw [running] at seat
  cases seat

omit [DecidableEq Core] in
private theorem System.Occupied.update {other : Option (Thread Core)}
    (occupied : system.Occupied cpu)
    (threads : next.threads = Function.update system.threads name other)
    (stays : ∀ thread fromSwitchto, system.threads name = some thread →
      thread.phase = .running cpu fromSwitchto → next.Occupied cpu) : next.Occupied cpu := by
  obtain ⟨gtid, thread, fromSwitchto, isThread, running⟩ := occupied
  by_cases isTask : gtid = name
  · subst isTask
    exact stays thread fromSwitchto isThread running
  · refine ⟨gtid, thread, fromSwitchto, ?_, running⟩
    rw [threads, Function.update_of_ne isTask]
    exact isThread

omit [DecidableEq Core] in
/-- In a switch the CPU goes from one thread to the other. -/
theorem System.Occupied.switched {target : Gtid} {other after : Thread Core} {on : Core}
    {fromSwitchto : Bool} {barrier : BitVec 32} (occupied : system.Occupied cpu)
    (threads : next.threads = Function.update (Function.update system.threads name (some after))
      target (some ⟨.running on true, barrier⟩))
    (isThread : system.threads name = some thread)
    (running : thread.phase = .running on fromSwitchto)
    (isOther : system.threads target = some other) (blocked : other.phase = .blocked) :
    next.Occupied cpu := by
  obtain ⟨gtid, current, fromSwitchto', isCurrent, isRunning⟩ := occupied
  by_cases isTask : gtid = name
  · subst isTask
    cases isThread.symm.trans isCurrent
    cases running.symm.trans isRunning
    refine ⟨target, ⟨.running cpu true, barrier⟩, true, ?_, rfl⟩
    rw [threads, Function.update_self]
  · have notTarget : gtid ≠ target := by
      rintro rfl
      cases isOther.symm.trans isCurrent
      cases blocked.symm.trans isRunning
    refine ⟨gtid, current, fromSwitchto', ?_, isRunning⟩
    rw [threads, Function.update_of_ne notTarget, Function.update_of_ne isTask]
    exact isCurrent

omit [DecidableEq Core] in
private theorem System.Sends.knows {other : Option (Thread Core)} {isKnown : Bool}
    {extra : List (RqItem Gtid)} (sends : system.Sends next name other isKnown extra)
    (own : other ≠ none → isKnown = true)
    (known : ∀ gtid, system.threads gtid ≠ none → system.maps.Known gtid) :
    ∀ gtid, next.threads gtid ≠ none → next.maps.Known gtid := by
  intro gtid present
  by_cases isTask : gtid = name
  · subst isTask
    rw [sends.threads, Function.update_self] at present
    exact Option.isSome_iff_ne_none.mp (sends.known.trans (own present))
  · rw [sends.threads, Function.update_of_ne isTask] at present
    unfold Maps.Known
    rw [sends.others gtid isTask]
    exact known gtid present

omit [DecidableEq Core] in
private theorem System.setThread_knows (isThread : system.threads name = some thread)
    (after : Thread Core)
    (known : ∀ gtid, system.threads gtid ≠ none → system.maps.Known gtid) :
    ∀ gtid, (system.setThread name after).threads gtid ≠ none → system.maps.Known gtid := by
  intro gtid present
  apply known
  by_cases isTask : gtid = name
  · rw [isTask, isThread]
    exact Option.some_ne_none _
  · rwa [show (system.setThread name after).threads gtid = system.threads gtid from
      Function.update_of_ne isTask _ _] at present

/-- The handlers that know all threads go on to know them. -/
theorem System.Step.knows (stepped : system.Step action next) (sound : system.Sound)
    (roomy : system.Roomy) (known : ∀ gtid, system.threads gtid ≠ none → system.maps.Known gtid) :
    ∀ gtid, next.threads gtid ≠ none → next.maps.Known gtid := by
  have present : ∀ {gtid : Gtid} {thread : Thread Core}, system.threads gtid = some thread →
      (system.maps.gtidToSwd gtid).isSome = true := by
    intro gtid thread isThread
    apply Option.isSome_iff_ne_none.mpr (known gtid _)
    rw [isThread]
    exact Option.some_ne_none _
  cases stepped with
  | @joins name _ _ _ _ absent isValid =>
      have unknown : ¬system.maps.Known name := fun known => sound.present name known absent
      exact (System.sends_new sound.valid isValid roomy.swLookup roomy.globalRq unknown).knows
        (fun _ => rfl) known
  | @discovered _ _ _ _ _ isThread _ =>
      have isKnown := Option.isSome_iff_ne_none.mp (present isThread)
      exact (System.sends_new_known sound.valid isKnown).knows (fun _ => rfl) known
  | @event name _ _ _ _ isThread happens =>
      obtain ⟨-, -, rfl⟩ | ⟨-, -, wakes⟩ | ⟨-, -, quiet⟩ := Phase.after_cases happens
      · have quiet : (Msg.unhandled name : Msg Core Gtid).Quiet := trivial
        exact (System.sends_quiet quiet).knows (fun _ => present isThread) known
      · exact (System.sends_wakes wakes roomy.globalRq).knows (fun _ => present isThread) known
      · exact (System.sends_quiet quiet).knows (fun _ => present isThread) known
  | @switchesTo name target thread other cpu isThread running isOther blocked =>
      have quiet : (Msg.taskSwitchto name : Msg Core Gtid).Quiet := trivial
      have sends := @System.sends_quiet _ _ _ _ system name
        (some ⟨.blocked, thread.barrier + 1⟩) (thread.barrier + 1) _ quiet
      have apart := System.switched_apart isThread running isOther blocked
      have still : (system.send name (some ⟨.blocked, thread.barrier + 1⟩) (thread.barrier + 1)
          (.taskSwitchto name)).threads target = some other := by
        rw [sends.threads, Function.update_of_ne apart.symm, isOther]
      exact System.setThread_knows still _ (sends.knows (fun _ => present isThread) known)
  | @switchesOn name target thread other cpu isThread running isOther blocked =>
      have apart := System.switched_apart isThread running isOther blocked
      have still : (system.setThread name ⟨.blocked, thread.barrier⟩).threads target = some other :=
        (Function.update_of_ne apart.symm _ _).trans isOther
      exact System.setThread_knows still _ (System.setThread_knows isThread _ known)
  | getsOffCpu isThread _ => exact System.setThread_knows isThread _ known
  | leaves _ isLast =>
      exact (System.sends_forgets isLast.forgets).knows (fun some_ => absurd rfl some_) known
  | @cpuMessage cpu available => cases available <;> exact known
  | cpuTick => exact known
  | discoveryDone => exact known
  | pntPop => exact known
  | pntRuns _ isRunnable => exact System.setThread_knows isRunnable _ known
  | pntFails => exact known
  | @pntEnqueue _ pushed _ =>
      intro gtid there unknown
      have same : (system.maps.enqueueTask pushed.gtid pushed.taskBarrier).gtidToSwd gtid =
          system.maps.gtidToSwd gtid :=
        Maps.gtidToSwd_congr (congrArg _ Maps.enqueueTask_swLookup)
      exact known gtid there (same.symm.trans unknown)
  | tick => exact known

/-- Until Discovery is complete no thread gets a CPU. -/
theorem System.Step.vacant (stepped : system.Step action next)
    (early : next.maps.initialized = false)
    (idle : ∀ cpu, system.pnts cpu = .idle)
    (vacant : ∀ gtid thread, system.threads gtid = some thread → thread.phase.seat = none) :
    (∀ cpu, next.pnts cpu = .idle) ∧
      ∀ gtid thread, next.threads gtid = some thread → thread.phase.seat = none := by
  have updated : ∀ {name : Gtid} {other : Option (Thread Core)},
      (∀ thread, other = some thread → thread.phase.seat = none) →
      ∀ gtid thread, Function.update system.threads name other gtid = some thread →
        thread.phase.seat = none := by
    intro name other own gtid thread isThread
    by_cases isTask : gtid = name
    · subst isTask
      rw [Function.update_self] at isThread
      exact own thread isThread
    · rw [Function.update_of_ne isTask] at isThread
      exact vacant gtid thread isThread
  have off : ∀ {name : Gtid} {thread : Thread Core} {cpu : Core} {fromSwitchto : Bool},
      system.threads name = some thread → thread.phase ≠ .running cpu fromSwitchto := by
    intro name thread cpu fromSwitchto isThread running
    have seat := vacant name thread isThread
    rw [running] at seat
    cases seat
  cases stepped with
  | @joins _ _ runnable =>
      refine ⟨idle, updated ?_⟩
      intro thread isThread
      cases isThread
      cases runnable <;> rfl
  | @discovered name thread _ _ _ isThread =>
      refine ⟨idle, updated ?_⟩
      intro other isOther
      cases isOther
      exact vacant name thread isThread
  | event isThread happens =>
      refine ⟨idle, updated ?_⟩
      intro other isOther
      cases isOther
      exact Phase.after_seat happens (vacant _ _ isThread)
  | switchesTo isThread running => exact absurd running (off isThread)
  | switchesOn isThread running => exact absurd running (off isThread)
  | getsOffCpu isThread =>
      refine ⟨idle, updated ?_⟩
      intro other isOther
      cases isOther
      rfl
  | leaves =>
      refine ⟨idle, updated ?_⟩
      intro other isOther
      cases isOther
  | cpuMessage => exact ⟨idle, vacant⟩
  | cpuTick => exact ⟨idle, vacant⟩
  | discoveryDone => cases early
  | pntPop initialized => cases initialized.symm.trans early
  | @pntRuns cpu _ inHand => cases inHand.symm.trans (idle cpu)
  | @pntFails cpu _ _ inHand => cases inHand.symm.trans (idle cpu)
  | @pntEnqueue cpu _ inHand => cases inHand.symm.trans (idle cpu)
  | tick => exact ⟨idle, vacant⟩

/-- The thread that a CPU had at a current task goes on to run, gives the CPU to another, or
tells the handlers that it stops. -/
theorem System.Tracks.occupied (tracks : system.Tracks) (stepped : system.Step action next)
    (current : (next.maps.cpuData cpu).current ≠ none) : next.Occupied cpu := by
  have before : (system.maps.cpuData cpu).current ≠ none → system.Occupied cpu :=
    tracks.current cpu
  cases stepped with
  | joins absent =>
      refine ((before ?_).update rfl ?_)
      · exact (Maps.send_current current).resolve_right not_false
      · intro thread _ isThread
        cases absent.symm.trans isThread
  | @discovered name thread _ _ barrier isThread _ =>
      refine ((before ?_).update rfl ?_)
      · exact (Maps.send_current current).resolve_right not_false
      · intro other fromSwitchto isOther running
        cases isThread.symm.trans isOther
        exact ⟨name, _, fromSwitchto, Function.update_self .., running⟩
  | @event name thread event phase msg isThread happens =>
      cases Maps.send_current current with
      | inl still =>
          refine (before still).update rfl ?_
          intro other fromSwitchto isOther running
          cases isThread.symm.trans isOther
          rw [running] at happens
          cases Phase.after_running happens with
          | inl same => exact ⟨name, _, fromSwitchto, Function.update_self .., same⟩
          | inr vacates =>
              exact absurd (Maps.send_vacates vacates (tracks.known_of_running isThread running))
                current
      | inr occupies =>
          exact ⟨name, _, false, Function.update_self .., Phase.after_occupies happens occupies⟩
  | @switchesTo name target thread other on isThread running isOther blocked =>
      have still := (Maps.send_current current).resolve_right not_false
      exact (before still).switched rfl isThread running isOther blocked
  | @switchesOn name target thread other on isThread running isOther blocked =>
      exact (before current).switched rfl isThread running isOther blocked
  | @getsOffCpu name thread isThread onCpu =>
      refine (before current).update rfl ?_
      intro other fromSwitchto isOther running
      cases isThread.symm.trans isOther
      cases onCpu.symm.trans running
  | @leaves name thread msg isThread isLast =>
      cases Maps.send_current current with
      | inl still =>
          refine (before still).update rfl ?_
          intro other fromSwitchto isOther running
          cases isThread.symm.trans isOther
          rw [running] at isLast
          exact absurd (Maps.send_vacates isLast.vacates (tracks.known_of_running isThread running))
            current
      | inr occupies => exact absurd occupies isLast.not_occupies
  | @cpuMessage on available =>
      apply before
      cases available with
      | true =>
          have sent : ((system.maps.biffMsgSend system.now 0 (.cpuAvailable on)).cpuData cpu).current
            ≠ none := current
          exact (Maps.send_current sent).resolve_right not_false
      | false =>
          have sent : ((system.maps.biffMsgSend system.now 0 (.cpuBusy on)).cpuData cpu).current
            ≠ none := current
          exact (Maps.send_current sent).resolve_right not_false
  | cpuTick => exact before current
  | discoveryDone => exact before current
  | pntPop => exact before current
  | @pntRuns on latched _ isRunnable =>
      refine (before current).update rfl ?_
      intro other fromSwitchto isOther running
      cases isRunnable.symm.trans isOther
      cases running
  | pntFails => exact before current
  | @pntEnqueue on pushed _ =>
      apply before
      rw [← @Maps.enqueueTask_frame _ _ system.maps pushed.gtid pushed.taskBarrier |>.1]
      exact current
  | tick => exact before current

private theorem System.Step.initialized (stepped : system.Step action next) :
    next.maps.initialized = system.maps.initialized ∨ action = .discoveryDone := by
  cases stepped with
  | discoveryDone => exact .inr rfl
  | switchesOn | getsOffCpu | pntPop | pntRuns | pntFails | tick | cpuTick => exact .inl rfl
  | pntEnqueue => exact .inl Maps.enqueueTask_frame.2
  | _ => exact .inl Maps.send_initialized

theorem System.Tracks.step (tracks : system.Tracks) (sound : system.Sound) (roomy : system.Roomy)
    (stepped : system.Step action next) : next.Tracks := by
  have early : next.maps.initialized = false → (∀ cpu, next.pnts cpu = .idle) ∧
      ∀ gtid thread, next.threads gtid = some thread → thread.phase.seat = none := by
    intro isEarly
    have wasEarly : system.maps.initialized = false := by
      cases stepped.initialized with
      | inl same => exact same.symm.trans isEarly
      | inr isDone =>
          subst isDone
          cases stepped
          cases isEarly
    exact stepped.vacant isEarly (tracks.idle wasEarly) (tracks.vacant wasEarly)
  refine ⟨?_, fun isEarly => (early isEarly).1, fun isEarly => (early isEarly).2,
    fun cpu => tracks.occupied stepped⟩
  intro late
  cases stepped.initialized with
  | inl same => exact stepped.knows sound roomy (tracks.known (same.symm.trans late))
  | inr isDone =>
      subst isDone
      cases stepped with
      | discoveryDone known => exact known

omit [DecidableEq Core] in
private theorem System.Initial.tracks (initial : system.Initial) : system.Tracks where
  known late := by cases initial.notInitialized.symm.trans late
  idle _ := initial.pnts
  vacant _ := initial.threads
  current cpu current := absurd (initial.current cpu) current

variable [Fintype Core]

/-- While the maps have room, a CPU that has a current task for biff runs a thread of the
enclave. A tick reschedules only such a CPU, with its sibling, and only if the current task has
had it for 50 ms. -/
theorem tick_reschedules_running
    (reachable : ((biff Core Gtid).restrict fun state _ => state.Roomy).Reachable system) :
    (∀ cpu, (system.maps.cpuData cpu).current ≠ none → system.Occupied cpu) ∧
      ∀ cpu rescheduled next, (biff Core Gtid).step system (.cpuTick cpu rescheduled) next →
        rescheduled = [] ∨ system.Occupied cpu ∧ ∃ gtid swd sibling,
          (system.maps.cpuData cpu).current = some gtid ∧ system.maps.gtidToSwd gtid = some swd ∧
            50000 < system.now - (system.maps.swData swd).ranAt ∧
            rescheduled = [cpu, sibling] := by
  have tracks : system.Sound ∧ system.Tracks := by
    apply reachable.invariant (fun state => state.Sound ∧ state.Tracks)
    · exact fun state initial => ⟨initial.sound, initial.tracks⟩
    · intro state label next holds stepped
      exact ⟨holds.1.step stepped.1 stepped.2, holds.2.step holds.1 stepped.1 stepped.2⟩
  refine ⟨tracks.2.current, fun cpu rescheduled next ticked => ?_⟩
  cases ticked with
  | @cpuTick siblingOf _ _ handled =>
      subst handled
      unfold Maps.handleCpuTick Maps.getCurrent
      cases isCurrent : (system.maps.cpuData cpu).current with
      | none => exact .inl rfl
      | some gtid =>
          have occupied : system.Occupied cpu := by
            apply tracks.2.current cpu
            rw [isCurrent]
            exact Option.some_ne_none _
          dsimp only
          cases found : system.maps.gtidToSwd gtid with
          | none => exact .inl rfl
          | some swd =>
              dsimp only
              split
              · next late =>
                  exact .inr ⟨occupied, gtid, swd, siblingOf cpu, rfl, found, late, rfl⟩
              · exact .inl rfl

end Steps

/-- The task has been on its CPU since the clock was zero. -/
def ranSystem : System Unit Unit :=
  (((poppedSystem joinedSystem).setThread () ⟨.latched (), 7⟩).setPnt () .idle).send ()
    (some ⟨.running () false, 8⟩) 8 (.taskOnCpu () () 1)

def lateSystem : System Unit Unit := { ranSystem with now := 60000 }

theorem tick_reschedules_running_late :
    lateSystem.Step (.cpuTick () [(), ()]) lateSystem ∧ lateSystem.Occupied () := by
  have opened : joinedSystem.Step .discoveryDone (openedSystem joinedSystem) :=
    .discoveryDone fun _ _ => joinedSystem_known
  have popped : (openedSystem joinedSystem).Step (.pntPop ()) (poppedSystem joinedSystem) := by
    refine .pntPop rfl ?_ rfl rfl
    intro gtid thread isThread
    cases isThread
    decide
  have latched : (poppedSystem joinedSystem).Step (.pntRun () none)
      (((poppedSystem joinedSystem).setThread () ⟨.latched (), 7⟩).setPnt () .idle) :=
    @System.Step.pntRuns _ _ _ _ (poppedSystem joinedSystem) () ⟨(), 7⟩ rfl rfl
  have ran : (((poppedSystem joinedSystem).setThread () ⟨.latched (), 7⟩).setPnt () .idle).Step
      (.event () (.getsOnCpu 1)) ranSystem :=
    @System.Step.event _ _ _ _ _ () ⟨.latched (), 7⟩ (.getsOnCpu 1) _ _ rfl rfl
  have late : ranSystem.Step (.tick 60000) lateSystem := .tick
  have ticked : lateSystem.Step (.cpuTick () [(), ()]) lateSystem :=
    @System.Step.cpuTick _ _ _ _ lateSystem id () _ (by decide)
  have reachable : ((biff Unit Unit).restrict fun state _ => state.Roomy).Reachable lateSystem :=
    ⟨emptySystem, _, emptySystem_initial,
      .cons ⟨⟨by decide, by decide⟩, joinedSystem_joins⟩ (.cons ⟨⟨by decide, by decide⟩, opened⟩
        (.cons ⟨⟨by decide, by decide⟩, popped⟩ (.cons ⟨⟨by decide, by decide⟩, latched⟩
          (.cons ⟨⟨by decide, by decide⟩, ran⟩ (.cons ⟨⟨by decide, by decide⟩, late⟩ (.nil _))))))⟩
  cases (tick_reschedules_running reachable).2 () _ _ ticked with
  | inl nobody => cases nobody
  | inr running => exact ⟨ticked, running.1⟩

end Ghost.Biff
