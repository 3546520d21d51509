import Ghost.Biff.Views

/-!
# Tasks in the queue

While the maps have room, a runnable task that the handlers know is in the queue, or in the hands
of a `biff_pnt`, with its present barrier. A message without a handler strands it.
-/

set_option autoImplicit false

namespace Ghost.Biff

open Lib

/-! ## Views -/

section Views

variable {Core : Type} {view view' : View Core} {messages : Messages}

/-- A task that waits for a CPU has an entry that `bpf_ghost_run_gtid` accepts. -/
def View.Queued (view : View Core) : Prop :=
  view.known = true → ∀ thread, view.thread = some thread → thread.phase.isRunnable = true →
    0 < view.copies thread.barrier

/-- A task has no entry but the one that it waits for. -/
def View.Single (view : View Core) : Prop :=
  ∀ thread, view.thread = some thread →
    view.copies thread.barrier ≤ if thread.phase.isRunnable then 1 else 0

/-- A task that waits for a CPU has no entry. -/
def View.Lost (view : View Core) : Prop :=
  view.known = true ∧ ∃ thread, view.thread = some thread ∧ thread.phase.isRunnable = true ∧
    view.copies thread.barrier = 0

theorem View.Queued.step (queued : view.Queued) (stepped : view.Step messages view')
    (renumbers : ∀ barrier, messages.Renumbers barrier → view.known = true →
      ∀ thread, view.thread = some thread → thread.phase.isRunnable = true →
        thread.barrier = barrier) : view'.Queued := by
  cases stepped with
  | same => exact queued
  | moves isThread same =>
      intro known thread isAfter runnable
      cases isAfter
      have inQueue := queued known _ isThread (same.symm.trans runnable)
      exact inQueue
  | stops known stopped issued =>
      intro _ thread isAfter runnable
      cases isAfter
      exact absurd (stopped.symm.trans runnable) Bool.false_ne_true
  | enqueued runnable issued =>
      intro _ thread isAfter _
      cases isAfter
      simp only [Function.update_self]
      exact Nat.succ_pos _
  | unknown isUnknown issued =>
      intro known
      cases known
  | renumbers isThread renumbered =>
      intro known thread isAfter runnable
      cases isAfter
      have same := renumbers _ renumbered known _ isThread runnable
      exact same ▸ queued known _ isThread runnable
  | leaves gone =>
      intro known
      cases known
  | drops stale =>
      intro known thread isThread runnable
      simp only [Function.update_of_ne (stale thread isThread)]
      exact queued known thread isThread runnable
  | latched isThread inQueue =>
      intro _ thread isAfter runnable
      cases isAfter
      cases runnable

theorem View.Single.step (single : view.Single) (stepped : view.Step messages view')
    (issues : ∀ barrier, messages.Issues barrier → view.copies barrier = 0)
    (renumbers : ∀ barrier, messages.Renumbers barrier → view.copies barrier = 0 ∨
      ∃ thread, view.thread = some thread ∧ thread.barrier = barrier) : view'.Single := by
  cases stepped with
  | same => exact single
  | moves isThread same =>
      intro thread isAfter
      cases isAfter
      have atMost := single _ isThread
      rwa [← same] at atMost
  | stops known stopped issued =>
      intro thread isAfter
      cases isAfter
      simp only [issues _ issued]
      exact Nat.zero_le _
  | enqueued runnable issued =>
      intro thread isAfter
      cases isAfter
      simp only [Function.update_self, issues _ issued, runnable, if_true]
      exact le_rfl
  | unknown isUnknown issued =>
      intro thread isAfter
      cases isAfter
      simp only [issues _ issued]
      exact Nat.zero_le _
  | renumbers isThread renumbered =>
      intro thread isAfter
      cases isAfter
      obtain none | ⟨found, isFound, same⟩ := renumbers _ renumbered
      · simp only [none]
        exact Nat.zero_le _
      · rw [isThread] at isFound
        cases isFound
        subst same
        exact single _ isThread
  | leaves gone =>
      intro thread isAfter
      cases isAfter
  | drops stale =>
      intro thread isThread
      simp only [Function.update_of_ne (stale thread isThread)]
      exact single thread isThread
  | latched isThread inQueue =>
      intro thread isAfter
      cases isAfter
      have atMost := single _ isThread
      simp only [Phase.isRunnable, if_true, Function.update_self, Bool.false_eq_true, if_false]
        at atMost ⊢
      omega

/-- Nothing but leaving the enclave helps a lost task. -/
theorem View.Lost.step (lost : view.Lost) (stepped : view.Step messages view')
    (issues : ∀ barrier, ¬messages.Issues barrier)
    (renumbers : ∀ barrier, messages.Renumbers barrier → view.copies barrier = 0 ∨
      ∃ thread, view.thread = some thread ∧ thread.barrier = barrier)
    (stays : ¬messages.Leaves) : view'.Lost := by
  obtain ⟨known, thread, isThread, runnable, none⟩ := lost
  cases stepped with
  | same => exact ⟨known, thread, isThread, runnable, none⟩
  | moves isBefore same =>
      rw [isThread] at isBefore
      cases isBefore
      exact ⟨known, _, rfl, same.trans runnable, none⟩
  | stops _ _ issued => exact absurd issued (issues _)
  | enqueued _ issued => exact absurd issued (issues _)
  | unknown _ issued => exact absurd issued (issues _)
  | renumbers isBefore renumbered =>
      rw [isThread] at isBefore
      cases isBefore
      refine ⟨known, _, rfl, runnable, ?_⟩
      obtain noneAfter | ⟨found, isFound, same⟩ := renumbers _ renumbered
      · exact noneAfter
      · rw [isThread] at isFound
        cases isFound
        subst same
        exact none
  | leaves gone => exact absurd gone stays
  | drops stale =>
      refine ⟨known, thread, isThread, runnable, ?_⟩
      simp only [Function.update_of_ne (stale thread isThread)]
      exact none
  | latched isBefore inQueue =>
      rw [isThread] at isBefore
      cases isBefore
      exact absurd none (Nat.pos_iff_ne_zero.mp inQueue)

end Views

/-! ## Runs -/

section Samples

/-- One CPU and one task, which has yet to join. -/
def emptySystem : System Unit Unit where
  maps := ⟨false, fun _ => ⟨none, 0, false⟩, fun _ => ⟨0, 0, 0, none⟩, [], []⟩
  threads _ := none
  pnts _ := .idle
  now := 0

def joinedSystem : System Unit Unit :=
  emptySystem.send () (some ⟨.runnable false, 7⟩) 7 (.taskNew () none true ⟨1, 0⟩)

def openedSystem (system : System Unit Unit) : System Unit Unit :=
  system.setMaps system.maps.setInitialized

/-- `biff_pnt` has popped the entry of the task. -/
def poppedSystem (system : System Unit Unit) : System Unit Unit :=
  ((openedSystem system).setMaps ((openedSystem system).maps.setGlobalRq [])).setPnt ()
    (.run ⟨(), 7⟩)

def triedSystem (system : System Unit Unit) (err : RunError) : System Unit Unit :=
  (poppedSystem system).setPnt () (.afterRun ⟨(), 7⟩ (some err))

def renumberedSystem : System Unit Unit :=
  joinedSystem.send () (some ⟨.runnable false, 8⟩) 8 (.unhandled ())

theorem emptySystem_initial : emptySystem.Initial where
  threads _ _ found := by cases found
  notInitialized := rfl
  current _ := rfl
  swLookup := rfl
  globalRq := rfl
  pnts _ := rfl

theorem joinedSystem_joins : emptySystem.Step (.joins () true 7) joinedSystem :=
  .joins rfl (by decide)

theorem joinedSystem_known : joinedSystem.maps.Known () := by
  unfold Maps.Known
  decide

private theorem renumberedSystem_sent : joinedSystem.Step (.event () .unhandled) renumberedSystem :=
  @System.Step.event _ _ _ _ joinedSystem () ⟨.runnable false, 7⟩ .unhandled _ _ rfl rfl

/-- A `biff_pnt` whose `bpf_ghost_run_gtid` fails. -/
theorem triedSystem_run {Allowed : System Unit Unit → Action Unit Unit → Prop}
    {system : System Unit Unit} {err : RunError} (quiet : ∀ state action,
      action = .discoveryDone ∨ action = .pntPop () ∨ action = .pntRun () (some err) →
      state.maps.globalRq.length < 2 → state.maps.swLookup.length < 2 → Allowed state action)
    (known : system.maps.gtidToSwd () ≠ none) (vacant : (openedSystem system).Vacant ())
    (isIdle : system.pnts () = .idle) (globalRq : system.maps.globalRq = [⟨(), 7⟩])
    (swLookup : system.maps.swLookup.length < 2)
    (allowed : runAllowed (system.threads ()) 7 (some err)) :
    ((biff Unit Unit).restrict Allowed).Run system
      [.discoveryDone, .pntPop (), .pntRun () (some err)] (triedSystem system err) := by
  have short : system.maps.globalRq.length < 2 := by
    rw [globalRq]
    decide
  refine .cons ⟨quiet _ _ (.inl rfl) short swLookup, .discoveryDone fun _ _ => known⟩ ?_
  refine .cons ⟨quiet _ _ (.inr (.inl rfl)) short swLookup,
    .pntPop rfl vacant isIdle globalRq⟩ ?_
  exact .cons ⟨quiet _ _ (.inr (.inr rfl)) Nat.zero_lt_two swLookup, .pntFails rfl allowed⟩ (.nil _)

end Samples

section Runs

variable {Core Gtid : Type} [DecidableEq Core] [Fintype Core] [DecidableEq Gtid]
  {system next : System Core Gtid} {action : Action Core Gtid}

omit [Fintype Core] in
private theorem System.Step.valid (stepped : system.Step action next) (sound : system.Sound)
    (roomy : system.Roomy) : next.maps.Valid := by
  have valid := sound.valid
  have inserted : ∀ {gtid : Gtid} {thread : Option (Thread Core)} {seqnum : BitVec 32}
      {parent : Option Gtid} {runnable : Bool} {swInfo : TaskSwInfo},
      swInfo.index.toNat < biffMaxGtids →
      (system.send gtid thread seqnum (.taskNew gtid parent runnable swInfo)).maps.Valid := by
    intro gtid thread seqnum parent runnable swInfo isValid
    by_cases known : system.maps.Known gtid
    · exact Maps.valid_congr valid (congrArg Maps.swLookup (Maps.send_new_known valid known))
    · intro name swi found
      have swLookup := (@Maps.send_new _ _ _ _ system.maps gtid system.now seqnum parent runnable
        swInfo valid isValid roomy.swLookup known).1
      rw [show (system.send gtid thread seqnum (.taskNew gtid parent runnable swInfo)).maps.swLookup =
        (gtid, swInfo) :: system.maps.swLookup from swLookup, List.lookup_cons] at found
      split at found
      · cases found
        exact isValid
      · exact valid name swi found
  cases stepped with
  | joins _ isValid => exact inserted isValid
  | discovered _ isValid => exact inserted isValid
  | event _ happens =>
      obtain ⟨-, -, rfl⟩ | ⟨-, -, wakes⟩ | ⟨-, -, quiet⟩ := Phase.after_cases happens
      · exact valid
      · exact Maps.valid_congr valid (Maps.send_wakes wakes).1
      · exact Maps.valid_congr valid (Maps.send_quiet quiet).1
  | @switchesTo name target thread other cpu _ _ _ _ =>
      have quiet : (Msg.taskSwitchto name : Msg Core Gtid).Quiet := trivial
      have same := @Maps.send_quiet _ _ _ _ system.maps system.now (thread.barrier + 1) _ quiet
      exact Maps.valid_congr valid same.1
  | switchesOn => exact valid
  | getsOffCpu => exact valid
  | @leaves gtid thread msg _ isLast =>
      intro name swi found
      have lookup := (@Maps.send_forgets _ _ _ _ system.maps gtid system.now (thread.barrier + 1)
        msg isLast.forgets).1 name
      rw [show (system.send gtid none (thread.barrier + 1) msg).maps.swLookup.lookup name = _ from
        lookup] at found
      split at found
      · cases found
      · exact valid name swi found
  | @cpuMessage cpu available => cases available <;> exact valid
  | cpuTick => exact valid
  | discoveryDone => exact valid
  | pntPop => exact valid
  | pntRuns => exact valid
  | pntFails => exact valid
  | pntEnqueue => exact Maps.valid_congr valid Maps.enqueueTask_swLookup
  | tick => exact valid

theorem System.Sound.step (sound : system.Sound) (roomy : system.Roomy)
    (stepped : system.Step action next) : next.Sound := by
  refine ⟨stepped.valid sound roomy, fun gtid known => ?_⟩
  have present : (system.view gtid).known = true → (system.view gtid).thread ≠ none :=
    fun isKnown => sound.present gtid (Option.isSome_iff_ne_none.mp isKnown)
  have isKnown : (next.view gtid).known = true := Option.isSome_iff_ne_none.mpr known
  have changed := stepped.view sound roomy gtid
  show (next.view gtid).thread ≠ none
  generalize next.view gtid = after at changed isKnown
  cases changed with
  | same => exact present isKnown
  | leaves => cases isKnown
  | drops => exact present isKnown
  | _ => exact Option.some_ne_none _

omit [Fintype Core] [DecidableEq Core] in
theorem System.Initial.sound (initial : system.Initial) : system.Sound := by
  have unknown : ∀ gtid, system.maps.swLookup.lookup gtid = none := by
    intro gtid
    rw [initial.swLookup]
    rfl
  constructor
  · intro gtid swi found
    rw [unknown] at found
    cases found
  · intro gtid known
    apply absurd _ known
    unfold Maps.gtidToSwd
    rw [unknown]

/-- The maps have room, and a message without a handler does not change the barrier of a task that
waits for a CPU. -/
def Handled (system : System Core Gtid) (action : Action Core Gtid) : Prop :=
  system.Roomy ∧ ∀ gtid barrier, system.Renumbered gtid barrier action → system.maps.Known gtid →
    ∀ thread, system.threads gtid = some thread → thread.phase.isRunnable = true →
      thread.barrier = barrier

/-- The maps have room, and the kernel gives no task a barrier that an entry of the task still
has. -/
def Fresh (system : System Core Gtid) (action : Action Core Gtid) : Prop :=
  system.Roomy ∧
    (∀ gtid barrier, system.Issued gtid barrier action → system.copies ⟨gtid, barrier⟩ = 0) ∧
    ∀ gtid barrier, system.Renumbered gtid barrier action → system.copies ⟨gtid, barrier⟩ = 0 ∨
      ∃ thread, system.threads gtid = some thread ∧ thread.barrier = barrier

theorem joinedSystem_reachable :
    ((biff Unit Unit).restrict Fresh).Reachable joinedSystem := by
  refine ⟨emptySystem, _, emptySystem_initial, .cons ⟨⟨⟨by decide, by decide⟩, ?_, ?_⟩,
    joinedSystem_joins⟩ (.nil _)⟩
  · exact fun _ _ _ => rfl
  · exact fun _ _ renumbered => renumbered.elim

/-- No task is ever twice in the queue and the hands of the CPUs with its present barrier, and a
task that does not wait for a CPU is not there at all. -/
theorem tasks_queued_once (reachable : ((biff Core Gtid).restrict Fresh).Reachable system) :
    ∀ gtid thread, system.threads gtid = some thread →
      system.copies ⟨gtid, thread.barrier⟩ ≤ if thread.phase.isRunnable then 1 else 0 := by
  have holds := reachable.invariant
    (fun state => state.Sound ∧ ∀ gtid, (state.view gtid).Single) ?_ ?_
  · exact holds.2
  · intro state initial
    refine ⟨initial.sound, fun gtid thread _ => ?_⟩
    have empty : state.copies ⟨gtid, thread.barrier⟩ = 0 := by
      unfold System.copies
      rw [initial.globalRq, List.count_nil, tally_eq_zero.mpr]
      intro cpu inHand
      rw [initial.pnts] at inHand
      cases inHand
    exact empty.trans_le (Nat.zero_le _)
  · intro state label next holds stepped
    obtain ⟨sound, single⟩ := holds
    obtain ⟨⟨roomy, issues, renumbers⟩, moved⟩ := stepped
    refine ⟨sound.step roomy moved, fun gtid => ?_⟩
    exact (single gtid).step (System.Step.view moved sound roomy gtid) (issues gtid)
      (renumbers gtid)

theorem tasks_queued_once_joined :
    ∃ system, ((biff Unit Unit).restrict Fresh).Reachable system ∧
      system.maps.globalRq = [⟨(), 7⟩] ∧ system.copies ⟨(), 7⟩ ≤ 1 := by
  have reachable := joinedSystem_reachable
  exact ⟨_, reachable, rfl, tasks_queued_once reachable () ⟨.runnable false, 7⟩ rfl⟩

/-! ## A message without a handler -/

omit [Fintype Core] in
/-- The handlers hear nothing about a task that waits for a CPU, until it leaves. -/
theorem System.Step.not_issued {gtid : Gtid} {thread : Thread Core} {barrier : BitVec 32}
    (stepped : system.Step action next) (known : system.maps.Known gtid)
    (isThread : system.threads gtid = some thread) (runnable : thread.phase.isRunnable = true) :
    ¬system.Issued gtid barrier action := by
  cases stepped with
  | joins absent _ =>
      intro issued
      obtain ⟨rfl, -⟩ := issued
      rw [absent] at isThread
      cases isThread
  | discovered _ _ => exact fun issued => issued.2.2 known
  | @event name other event phase msg isOther happens =>
      intro issued
      obtain ⟨rfl, isHandled, -⟩ := issued
      rw [isOther] at isThread
      cases isThread
      obtain ⟨before, _⟩ := thread
      change before.isRunnable = true at runnable
      change before.after _ event = _ at happens
      cases before <;> cases runnable
      cases event <;> first | exact isHandled rfl | cases happens
  | switchesTo isOther running =>
      intro issued
      obtain ⟨rfl, -⟩ := issued
      rw [isOther] at isThread
      cases isThread
      rw [running] at runnable
      cases runnable
  | switchesOn isOther running =>
      intro issued
      obtain ⟨rfl, -⟩ := issued
      rw [isOther] at isThread
      cases isThread
      rw [running] at runnable
      cases runnable
  | _ => exact False.elim

private theorem System.Step.lost {gtid : Gtid} {thread : Thread Core}
    (stepped : system.Step (.event gtid .unhandled) next) (known : system.maps.Known gtid)
    (isThread : system.threads gtid = some thread) (runnable : thread.phase.isRunnable = true)
    (none : system.copies ⟨gtid, thread.barrier + 1⟩ = 0) : (next.view gtid).Lost := by
  cases stepped with
  | @event _ other _ phase msg isOther happens =>
      rw [isOther] at isThread
      cases isThread
      obtain ⟨-, rfl, rfl⟩ | ⟨isHandled, -⟩ | ⟨isHandled, -⟩ := Phase.after_cases happens
      · have quiet : (Msg.unhandled gtid : Msg Core Gtid).Quiet := trivial
        rw [(System.sends_quiet quiet).view_self]
        exact ⟨Option.isSome_iff_ne_none.mpr known, _, rfl, runnable, none⟩
      · exact absurd rfl isHandled
      · exact absurd rfl isHandled

/-- A task that waits for a CPU when the kernel sends a message that `biff_msg_send` has no case
for never runs again: `bpf_ghost_run_gtid` refuses its entry as stale, `biff_pnt` drops it, and no
message brings another. It has to leave the enclave. -/
theorem unhandled_message_strands {gtid : Gtid} {thread : Thread Core} {last : System Core Gtid}
    {actions : List (Action Core Gtid)}
    (reachable : ((biff Core Gtid).restrict Fresh).Reachable system)
    (known : system.maps.Known gtid) (isThread : system.threads gtid = some thread)
    (runnable : thread.phase.isRunnable = true)
    (sent : ((biff Core Gtid).restrict Fresh).step system (.event gtid .unhandled) next)
    (run : ((biff Core Gtid).restrict
      fun state action => Fresh state action ∧ action ≠ .leaves gtid).Run next actions last) :
    ∃ found, last.threads gtid = some found ∧ found.phase.isRunnable = true ∧
      last.copies ⟨gtid, found.barrier⟩ = 0 := by
  have sound : system.Sound := by
    apply reachable.invariant (fun state => state.Sound)
    · exact fun state initial => initial.sound
    · exact fun state label next sound stepped => sound.step stepped.1.1 stepped.2
  obtain ⟨⟨roomy, -, renumbers⟩, moved⟩ := sent
  have lost : (next.view gtid).Lost := by
    have noEntry := renumbers gtid (thread.barrier + 1) ⟨rfl, rfl, thread, isThread, rfl⟩
    obtain none | ⟨found, isFound, same⟩ := noEntry
    · exact moved.lost known isThread runnable none
    · rw [isThread] at isFound
      cases isFound
      exact absurd same (by bv_omega)
  have holds := run.invariant (fun state => state.Sound ∧ (state.view gtid).Lost) ?_
    ⟨sound.step roomy moved, lost⟩
  · obtain ⟨-, -, found, isFound, isRunnable, none⟩ := holds
    exact ⟨found, isFound, isRunnable, none⟩
  · intro state action next holds stepped
    obtain ⟨sound, lost⟩ := holds
    obtain ⟨⟨fresh, stays⟩, moved⟩ := stepped
    refine ⟨sound.step fresh.1 moved, ?_⟩
    apply lost.step (moved.view sound fresh.1 gtid)
    · intro barrier
      obtain ⟨known, found, isFound, isRunnable, -⟩ := lost
      exact moved.not_issued (Option.isSome_iff_ne_none.mp known) isFound isRunnable
    · exact fresh.2.2 gtid
    · exact stays

/-- `biff_pnt` has dropped the only entry, and has nothing left to run. -/
theorem unhandled_message_strands_dropped :
    ∃ last actions, ((biff Unit Unit).restrict fun state action => Fresh state action ∧
        action ≠ .leaves ()).Run renumberedSystem actions last ∧
      last.maps.globalRq = [] ∧ last.pnts () = .idle ∧
      ∃ found, last.threads () = some found ∧ found.phase.isRunnable = true ∧
        last.copies ⟨(), found.barrier⟩ = 0 := by
  have run : ((biff Unit Unit).restrict fun state action => Fresh state action ∧
      action ≠ .leaves ()).Run renumberedSystem
      [.discoveryDone, .pntPop (), .pntRun () (some .estale)]
      (triedSystem renumberedSystem .estale) := by
    refine triedSystem_run ?_ (by decide) ?_ rfl rfl (by decide) ⟨_, rfl, by decide⟩
    · intro state action isQuiet globalRq swLookup
      refine ⟨⟨⟨globalRq.trans (by decide), swLookup.trans (by decide)⟩, fun gtid barrier => ?_,
        fun gtid barrier => ?_⟩, ?_⟩ <;> obtain rfl | rfl | rfl := isQuiet
      all_goals first | exact False.elim | exact fun same => by cases same
    · intro gtid thread isThread
      cases isThread
      decide
  refine ⟨_, _, run, rfl, rfl, unhandled_message_strands joinedSystem_reachable
    joinedSystem_known rfl rfl ⟨⟨⟨by decide, by decide⟩,
      fun _ _ issued => absurd rfl issued.2.1, ?_⟩, renumberedSystem_sent⟩ run⟩
  intro gtid barrier renumbered
  obtain ⟨-, -, thread, isThread, rfl⟩ := renumbered
  cases isThread
  exact .inl rfl

end Runs

end Ghost.Biff
