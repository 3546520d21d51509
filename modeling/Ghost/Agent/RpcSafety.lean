import Ghost.Agent.Rpc

/-!
# Every call gets its own answer

The two notifications pass one turn back and forth between the caller and the
handler. A wake that comes late, from the notifier of the last round, finds the
waiter of this round in `Futex::Wait` with the word still `waiter`, and the waiter goes
back to sleep.
-/

set_option autoImplicit false

namespace Ghost.Agent

open Lib

variable {Thread Args Buffer : Type} {system next : System Thread Args Buffer}
  {call : Call Thread Args}

/-! ## The turns -/

/-- The handler waits for a request, or is about to wake the last caller. -/
def HandlerPc.idle : HandlerPc → Bool
  | .waiting _ | .notifying .wake => true
  | _ => false

/-- The handler works on a call. -/
def HandlerPc.Handling (call : Call Thread Args) : HandlerPc → Prop
  | .isOnline | .resetResponse | .loadReq => True
  | .running req => req = call.req.toInt64
  | _ => False

/-- The caller has not yet notified the handler. -/
def CallerPc.early : CallerPc → Bool
  | .storeReq | .storeArgs => true
  | .notifying pc => pc.before
  | _ => false

/-- The caller has notified the handler and waits for the answer. -/
def CallerPc.posted : CallerPc → Bool
  | .notifying .wake | .waiting _ => true
  | _ => false

/-- The answers that were returned are those of the handler, in the same order. -/
def Answers (returned : List (Call Thread Args × Result Buffer))
    (handled : List (Handled Args Buffer)) : Prop :=
  List.Forall₂ (fun answer run => run.req = answer.1.req.toInt64 ∧ run.args = answer.1.args ∧
    answer.2 = answer.1.result run.res) returned handled

/-- The call has been handled, and its response is in the blob. -/
def System.Answered (system : System Thread Args Buffer) (call : Call Thread Args) : Prop :=
  ∃ earlier, system.handled = earlier ++ [⟨call.req.toInt64, call.args, system.rpcRes⟩] ∧
    Answers system.returned earlier

/-- The handler has nothing to do. -/
def System.Resting (system : System Thread Args Buffer) : Prop :=
  system.handler.idle = true ∧ system.rpcPending ≠ .notified

/-- The request is in the blob, and no earlier one is unanswered. -/
def System.Requested (system : System Thread Args Buffer) (call : Call Thread Args) : Prop :=
  system.rpcReq = call.req.toInt64 ∧ system.rpcArgs = call.args ∧
    Answers system.returned system.handled

/-- How far the handler is with the call that has been posted. -/
inductive System.Posted (system : System Thread Args Buffer) (call : Call Thread Args) : Prop
  | requested (idle : system.handler.idle = true ∨ system.handler = .reset)
      (pending : system.rpcPending = .notified) (done : system.rpcDone ≠ .notified)
      (requested : system.Requested call)
  | handling (handling : system.handler.Handling call) (pending : system.rpcPending = .noWaiter)
      (done : system.rpcDone ≠ .notified) (requested : system.Requested call)
  | answering (pc : NotifyPc) (handler : system.handler = .notifying pc)
      (before : pc.before = true) (pending : system.rpcPending = .noWaiter)
      (done : system.rpcDone ≠ .notified) (answered : system.Answered call)
  | answered (resting : system.Resting) (done : system.rpcDone = .notified)
      (answered : system.Answered call)

/-- What the caller has stored so far. -/
def System.Storing (system : System Thread Args Buffer) (call : Call Thread Args)
    (pc : CallerPc) : Prop :=
  (pc ≠ .storeReq → system.rpcReq = call.req.toInt64) ∧
    (pc ≠ .storeReq → pc ≠ .storeArgs → system.rpcArgs = call.args) ∧
    Answers system.returned system.handled

/-- The calls that have taken the mutex are those that have returned and the given
one. -/
def System.Entered (system : System Thread Args Buffer) (call : Call Thread Args) : Prop :=
  system.entered = system.returned.map Prod.fst ++ [call]

/-- Whose turn it is. -/
inductive System.Turn (system : System Thread Args Buffer) : Prop
  | outside (inside : system.inside = none) (resting : system.Resting)
      (done : system.rpcDone = .noWaiter)
      (entered : system.entered = system.returned.map Prod.fst)
      (answers : Answers system.returned system.handled)
  | calling (call : Call Thread Args) (pc : CallerPc) (inside : system.inside = some ⟨call, pc⟩)
      (early : pc.early = true) (resting : system.Resting) (done : system.rpcDone = .noWaiter)
      (entered : system.Entered call) (storing : system.Storing call pc)
  | posted (call : Call Thread Args) (pc : CallerPc) (inside : system.inside = some ⟨call, pc⟩)
      (isPosted : pc.posted = true) (entered : system.Entered call)
      (posted : system.Posted call)
  | resetting (call : Call Thread Args) (inside : system.inside = some ⟨call, .reset⟩)
      (resting : system.Resting) (done : system.rpcDone = .notified)
      (entered : system.Entered call) (answered : system.Answered call)
  | copying (call : Call Thread Args) (inside : system.inside = some ⟨call, .copy⟩)
      (resting : system.Resting) (done : system.rpcDone = .noWaiter)
      (entered : system.Entered call) (answered : system.Answered call)

/-- What the waiter on a notification may rely on. -/
structure Waits (word : NotifiedState) (stands : WaitPc → Prop) (wakes : Prop) : Prop where
  running : ¬stands .returned
  armed : ∀ pc, stands pc → pc.inFutex = true → word ≠ .noWaiter
  /-- A sleeper that has been notified is going to be woken. -/
  due : stands .asleep → word = .notified → wakes

structure Consistent (system : System Thread Args Buffer) : Prop where
  turn : system.Turn
  handlerWaits : Waits system.rpcPending (fun pc => system.handler = .waiting pc)
    (∃ call, system.inside = some ⟨call, .notifying .wake⟩)
  callerWaits : Waits system.rpcDone (fun pc => ∃ call, system.inside = some ⟨call, .waiting pc⟩)
    (system.handler = .notifying .wake)

/-! ## Waiting -/

theorem Waits.spec {word : NotifiedState} {stands : WaitPc → Prop} {wakes : Prop}
    (waits : Waits word stands wakes) {pc : WaitPc} (isAt : stands pc) {spurious : Bool}
    {outcome : NotifiedState × WaitPc}
    (accessed : waitAccess word spurious pc = some outcome) : WaitOutcome word outcome := by
  apply waitAccess_spec _ (waits.armed pc isAt) accessed
  rintro rfl
  exact waits.running isAt

private theorem WaitOutcome.waits {word : NotifiedState} {outcome : NotifiedState × WaitPc}
    (spec : WaitOutcome word outcome) {stands : WaitPc → Prop} {wakes : Prop}
    (isAt : ∀ pc, stands pc → pc = outcome.2 ∧ pc ≠ .returned) :
    Waits outcome.1 stands wakes := by
  constructor
  · intro returned
    exact (isAt .returned returned).2 rfl
  · intro pc stands inFutex
    obtain ⟨rfl, _⟩ := isAt pc stands
    exact spec.inFutex inFutex
  · intro asleep notified
    exact absurd notified (spec.asleep (isAt .asleep asleep).1.symm)

private theorem Waits.roused {word : NotifiedState} {stands stands' : WaitPc → Prop}
    {wakes wakes' : Prop}
    (waits : Waits word stands wakes)
    (roused : ∀ pc, stands' pc → pc ≠ .asleep ∧ pc ≠ .returned ∧
      (pc.inFutex = true → ∃ pc', stands pc' ∧ pc'.inFutex = true)) :
    Waits word stands' wakes' := by
  constructor
  · intro returned
    exact (roused .returned returned).2.1 rfl
  · intro pc stands inFutex
    obtain ⟨pc', stands', inFutex'⟩ := (roused pc stands).2.2 inFutex
    exact waits.armed pc' stands' inFutex'
  · intro asleep _
    exact absurd rfl (roused .asleep asleep).1

private theorem Waits.mono {word : NotifiedState} {stands : WaitPc → Prop} {wakes wakes' : Prop}
    (waits : Waits word stands wakes)
    (still : stands .asleep → word = .notified → wakes → wakes') : Waits word stands wakes' :=
  ⟨waits.running, waits.armed, fun asleep notified =>
    still asleep notified (waits.due asleep notified)⟩

private theorem Waits.undue {word : NotifiedState} {stands : WaitPc → Prop} {wakes wakes' : Prop}
    (waits : Waits word stands wakes) (fresh : word ≠ .notified) : Waits word stands wakes' :=
  waits.mono fun _ notified _ => absurd notified fresh

private theorem Waits.vacuous {word : NotifiedState} {stands : WaitPc → Prop} {wakes : Prop}
    (nobody : ∀ pc, ¬stands pc) : Waits word stands wakes :=
  ⟨nobody .returned, fun pc stands => absurd stands (nobody pc),
    fun stands => absurd stands (nobody .asleep)⟩

private theorem Waits.notified {word : NotifiedState} {stands : WaitPc → Prop} {wakes wakes' : Prop}
    (waits : Waits word stands wakes) (wake : wakes' ∨ word = .noWaiter) :
    Waits .notified stands wakes' := by
  constructor
  · exact waits.running
  · intro pc _ _
    simp
  · intro asleep _
    rcases wake with wakes | noWaiter
    · exact wakes
    · exact absurd noWaiter (waits.armed .asleep asleep rfl)

/-! ## Where the caller stands -/

section Inversion

variable {pc : CallerPc} (turn : system.Turn) (inside : system.inside = some ⟨call, pc⟩)
include turn inside

private theorem System.Turn.of_early (early : pc.early = true) :
    system.Resting ∧ system.rpcDone = .noWaiter ∧ system.Entered call ∧
      system.Storing call pc := by
  cases turn with
  | outside none => simp [none] at inside
  | calling call' pc' inside' _ resting done entered storing =>
      cases inside'.symm.trans inside
      exact ⟨resting, done, entered, storing⟩
  | posted call' pc' inside' posted =>
      cases inside'.symm.trans inside
      cases pc with
      | notifying pc => cases pc <;> simp [CallerPc.early, CallerPc.posted, NotifyPc.before] at *
      | _ => simp [CallerPc.early, CallerPc.posted] at *
  | resetting call' inside' =>
      cases inside'.symm.trans inside
      cases early
  | copying call' inside' =>
      cases inside'.symm.trans inside
      cases early

private theorem System.Turn.of_posted (isPosted : pc.posted = true) :
    system.Entered call ∧ system.Posted call := by
  cases turn with
  | outside none => simp [none] at inside
  | calling call' pc' inside' early =>
      cases inside'.symm.trans inside
      cases pc with
      | notifying pc => cases pc <;> simp [CallerPc.early, CallerPc.posted, NotifyPc.before] at *
      | _ => simp [CallerPc.early, CallerPc.posted] at *
  | posted call' pc' inside' _ entered posted =>
      cases inside'.symm.trans inside
      exact ⟨entered, posted⟩
  | resetting call' inside' =>
      cases inside'.symm.trans inside
      cases isPosted
  | copying call' inside' =>
      cases inside'.symm.trans inside
      cases isPosted

private theorem System.Turn.of_reset (isReset : pc = .reset) :
    system.Resting ∧ system.rpcDone = .notified ∧ system.Entered call ∧
      system.Answered call := by
  subst isReset
  cases turn with
  | outside none => simp [none] at inside
  | calling call' pc' inside' early =>
      cases inside'.symm.trans inside
      cases early
  | posted call' pc' inside' posted =>
      cases inside'.symm.trans inside
      cases posted
  | resetting call' inside' resting done entered answered =>
      cases inside'.symm.trans inside
      exact ⟨resting, done, entered, answered⟩
  | copying call' inside' => cases inside'.symm.trans inside

private theorem System.Turn.of_copy (isCopy : pc = .copy) :
    system.Resting ∧ system.rpcDone = .noWaiter ∧ system.Entered call ∧
      system.Answered call := by
  subst isCopy
  cases turn with
  | outside none => simp [none] at inside
  | calling call' pc' inside' early =>
      cases inside'.symm.trans inside
      cases early
  | posted call' pc' inside' posted =>
      cases inside'.symm.trans inside
      cases posted
  | resetting call' inside' => cases inside'.symm.trans inside
  | copying call' inside' resting done entered answered =>
      cases inside'.symm.trans inside
      exact ⟨resting, done, entered, answered⟩

private theorem System.Turn.place :
    pc.early = true ∨ pc.posted = true ∨ pc = .reset ∨ pc = .copy := by
  cases turn with
  | outside none => simp [none] at inside
  | calling call' pc' inside' early =>
      cases inside'.symm.trans inside
      exact .inl early
  | posted call' pc' inside' posted =>
      cases inside'.symm.trans inside
      exact .inr (.inl posted)
  | resetting call' inside' =>
      cases inside'.symm.trans inside
      exact .inr (.inr (.inl rfl))
  | copying call' inside' =>
      cases inside'.symm.trans inside
      exact .inr (.inr (.inr rfl))

end Inversion

/-! ## The caller -/

private theorem HandlerPc.woken_waiting {handler : HandlerPc} {pc : WaitPc}
    (woken : handler.woken = .waiting pc) : pc ≠ .asleep ∧ ∃ pc', handler = .waiting pc' ∧
      (pc' = pc ∨ pc' = .asleep ∧ pc = .woken) := by
  cases handler with
  | waiting pc' =>
      cases pc' with
      | asleep =>
          cases woken
          exact ⟨by simp, .asleep, rfl, .inr ⟨rfl, rfl⟩⟩
      | _ =>
          cases woken
          exact ⟨by simp, _, rfl, .inl rfl⟩
  | _ => cases woken

private theorem HandlerPc.woken_of_not_idle {handler : HandlerPc} (busy : handler.idle = false) :
    handler.woken = handler := by
  cases handler with
  | waiting pc => cases busy
  | _ => rfl

private theorem HandlerPc.woken_idle {handler : HandlerPc} : handler.woken.idle = handler.idle := by
  cases handler with
  | waiting pc => cases pc <;> rfl
  | _ => rfl

private theorem HandlerPc.Handling.busy {handler : HandlerPc} (handling : handler.Handling call) :
    handler.idle = false := by
  cases handler with
  | waiting pc => cases handling
  | notifying pc => cases handling
  | _ => rfl

private theorem System.Posted.woken {pc : CallerPc} (posted : system.Posted call) :
    { system.at call pc with handler := system.handler.woken }.Posted call := by
  cases posted with
  | requested idle pending done requested =>
      refine .requested ?_ pending done requested
      rcases idle with idle | reset
      · exact .inl (HandlerPc.woken_idle.trans idle)
      · right
        show system.handler.woken = .reset
        rw [reset]
        rfl
  | handling handling pending done requested =>
      refine .handling ?_ pending done requested
      show system.handler.woken.Handling call
      rw [HandlerPc.woken_of_not_idle handling.busy]
      exact handling
  | answering pc handler before pending done answered =>
      refine .answering pc ?_ before pending done answered
      show system.handler.woken = .notifying pc
      rw [handler]
      rfl
  | answered resting done answered =>
      exact .answered ⟨HandlerPc.woken_idle.trans resting.1, resting.2⟩ done answered

private theorem System.Posted.waited {pc : CallerPc} {word : NotifiedState}
    (posted : system.Posted call)
    (same : word = .notified ↔ system.rpcDone = .notified) :
    { system.at call pc with rpcDone := word }.Posted call := by
  cases posted with
  | requested idle pending done requested =>
      exact .requested idle pending (fun notified => done (same.mp notified)) requested
  | handling handling pending done requested =>
      exact .handling handling pending (fun notified => done (same.mp notified)) requested
  | answering pc handler before pending done answered =>
      exact .answering pc handler before pending (fun notified => done (same.mp notified)) answered
  | answered resting done answered => exact .answered resting (same.mpr done) answered

private theorem System.Posted.of_done (posted : system.Posted call)
    (done : system.rpcDone = .notified) :
    system.Resting ∧ system.Answered call := by
  cases posted with
  | requested _ _ notDone => exact absurd done notDone
  | handling _ _ notDone => exact absurd done notDone
  | answering _ _ _ _ notDone => exact absurd done notDone
  | answered resting _ answered => exact ⟨resting, answered⟩

private theorem Consistent.callerNotifies {pc : NotifyPc} {spurious : Bool}
    (consistent : Consistent system) (early : pc.before = true)
    (inside : system.inside = some ⟨call, .notifying pc⟩) (resting : system.Resting)
    (done : system.rpcDone = .noWaiter) (entered : system.Entered call)
    (storing : system.Storing call (.notifying pc))
    (accessed : system.callerAccess spurious call (.notifying pc) = some next) :
    Consistent next := by
  have isNext : next =
      { system.at call (.afterNotify (notifyAccess system.rpcPending spurious pc).2) with
        rpcPending := (notifyAccess system.rpcPending spurious pc).1 } := by
    cases pc <;> first | exact (Option.some.inj accessed).symm | cases early
  subst isNext
  rcases notifyAccess_spec resting.2 spurious early with ⟨same, before⟩ | ⟨notified, woken⟩
  · rw [same]
    have on : CallerPc.afterNotify (notifyAccess system.rpcPending spurious pc).2 =
        .notifying (notifyAccess system.rpcPending spurious pc).2 := by
      cases isPc : (notifyAccess system.rpcPending spurious pc).2 <;>
        first | rfl | (rw [isPc] at before; cases before)
    rw [on]
    constructor
    · refine .calling call _ rfl before resting done entered ?_
      exact ⟨fun _ => storing.1 (by simp), fun _ _ => storing.2.1 (by simp) (by simp),
        storing.2.2⟩
    · exact consistent.handlerWaits.undue resting.2
    · apply Waits.vacuous
      simp [System.at]
  · rw [notified]
    have requested : system.Requested call :=
      ⟨storing.1 (by simp), storing.2.1 (by simp) (by simp), storing.2.2⟩
    constructor
    · refine .posted call _ rfl ?_ entered (.requested (.inl resting.1) rfl ?_ requested)
      · rcases woken with isWake | ⟨isReturned, _⟩
        · rw [isWake]
          rfl
        · rw [isReturned]
          rfl
      · show system.rpcDone ≠ .notified
        simp [done]
    · apply consistent.handlerWaits.notified
      rcases woken with isWake | ⟨_, noWaiter⟩
      · left
        refine ⟨call, ?_⟩
        rw [isWake]
        rfl
      · exact .inr noWaiter
    · constructor
      · rcases woken with isWake | ⟨isReturned, _⟩
        · simp [System.at, isWake, CallerPc.afterNotify]
        · simp [System.at, isReturned, CallerPc.afterNotify]
      · intro pc waiting inFutex
        obtain ⟨call', same⟩ := waiting
        rcases woken with isWake | ⟨isReturned, _⟩
        · rw [isWake] at same
          cases same
        · rw [isReturned] at same
          cases same
          cases inFutex
      · intro _ isDone
        exact absurd (done.symm.trans isDone) (by simp)

private theorem Consistent.callerAccess {pc : CallerPc} {spurious : Bool}
    (consistent : Consistent system) (inside : system.inside = some ⟨call, pc⟩)
    (accessed : system.callerAccess spurious call pc = some next) : Consistent next := by
  have handlerWaits := consistent.handlerWaits
  have callerWaits := consistent.callerWaits
  cases pc with
  | storeReq =>
      obtain ⟨resting, done, entered, storing⟩ := consistent.turn.of_early inside rfl
      cases accessed
      constructor
      · refine .calling call .storeArgs rfl rfl resting done entered ?_
        exact ⟨fun _ => rfl, fun _ other => absurd rfl other, storing.2.2⟩
      · exact handlerWaits.undue resting.2
      · apply Waits.vacuous
        simp [System.at]
  | storeArgs =>
      obtain ⟨resting, done, entered, storing⟩ := consistent.turn.of_early inside rfl
      cases accessed
      constructor
      · refine .calling call (.notifying .load) rfl rfl resting done entered ?_
        exact ⟨fun _ => storing.1 (by simp), fun _ _ => rfl, storing.2.2⟩
      · exact handlerWaits.undue resting.2
      · apply Waits.vacuous
        simp [System.at]
  | notifying pc =>
      rcases consistent.turn.place inside with early | posted | other | other
      · obtain ⟨resting, done, entered, storing⟩ := consistent.turn.of_early inside early
        exact consistent.callerNotifies early inside resting done entered storing accessed
      · have isWake : pc = .wake := by
          cases pc <;> first | rfl | cases posted
        subst isWake
        obtain ⟨entered, posted⟩ := consistent.turn.of_posted inside rfl
        cases accessed
        constructor
        · exact .posted call (.waiting .load) rfl rfl entered posted.woken
        · apply handlerWaits.roused
          intro pc woken
          obtain ⟨awake, pc', waiting, same⟩ := HandlerPc.woken_waiting woken
          refine ⟨awake, ?_, fun inFutex => ⟨pc', waiting, ?_⟩⟩
          · rintro rfl
            rcases same with rfl | ⟨_, other⟩
            · exact handlerWaits.running waiting
            · cases other
          · rcases same with rfl | ⟨rfl, _⟩
            · exact inFutex
            · rfl
        · constructor
          · simp [System.at]
          · intro pc waiting inFutex
            obtain ⟨call', same⟩ := waiting
            cases same
            cases inFutex
          · simp [System.at]
      · cases other
      · cases other
  | waiting pc =>
      obtain ⟨entered, posted⟩ := consistent.turn.of_posted inside rfl
      obtain ⟨outcome, waited, rfl⟩ := Option.map_eq_some_iff.mp accessed
      have spec := callerWaits.spec ⟨call, inside⟩ waited
      have handlerWaits' : ∀ wakes, Waits system.rpcPending
          (fun pc => system.handler = .waiting pc) wakes := by
        intro wakes
        apply handlerWaits.mono
        intro _ _ due
        obtain ⟨call', isWake⟩ := due
        cases isWake.symm.trans inside
      cases isReturned : outcome.2 with
      | returned =>
          have done := spec.returned isReturned
          obtain ⟨resting, answered⟩ := posted.of_done done
          constructor
          · exact .resetting call rfl resting (spec.notified.mpr done) entered answered
          · exact handlerWaits' _
          · apply Waits.vacuous
            simp [System.at, CallerPc.afterWait]
      | _ =>
          constructor
          · exact .posted call _ rfl rfl entered (posted.waited spec.notified)
          · exact handlerWaits' _
          · apply spec.waits
            intro pc stands
            obtain ⟨call', same⟩ := stands
            cases same
            exact ⟨isReturned.symm, by simp⟩
  | reset =>
      obtain ⟨resting, done, entered, answered⟩ := consistent.turn.of_reset inside rfl
      cases accessed
      constructor
      · exact .copying call rfl resting rfl entered answered
      · exact handlerWaits.undue resting.2
      · apply Waits.vacuous
        simp [System.at]
  | copy =>
      obtain ⟨resting, done, entered, earlier, handled, answers⟩ :=
        consistent.turn.of_copy inside rfl
      cases accessed
      constructor
      · refine .outside rfl resting done ?_ ?_
        · simpa [System.Entered] using entered
        · show Answers (system.returned ++ [(call, call.result system.rpcRes)]) system.handled
          rw [handled]
          exact List.rel_append answers (.cons ⟨rfl, rfl, rfl⟩ .nil)
      · exact handlerWaits.undue resting.2
      · apply Waits.vacuous
        simp

/-! ## The handler -/

private theorem System.Turn.of_busy (turn : system.Turn) (busy : system.handler.idle = false) :
    ∃ call pc, system.inside = some ⟨call, pc⟩ ∧ pc.posted = true ∧ system.Entered call ∧
      system.Posted call := by
  have notResting : ¬system.Resting := by
    intro resting
    exact absurd (busy.symm.trans resting.1) (by simp)
  cases turn with
  | outside _ resting => exact absurd resting notResting
  | calling _ _ _ _ resting => exact absurd resting notResting
  | posted call pc inside isPosted entered posted =>
      exact ⟨call, pc, inside, isPosted, entered, posted⟩
  | resetting _ _ resting => exact absurd resting notResting
  | copying _ _ resting => exact absurd resting notResting

private theorem System.Turn.of_pending (turn : system.Turn)
    (pending : system.rpcPending = .notified) :
    ∃ call pc, system.inside = some ⟨call, pc⟩ ∧ pc.posted = true ∧ system.Entered call ∧
      system.rpcDone ≠ .notified ∧ system.Requested call := by
  have notResting : ¬system.Resting := fun resting => resting.2 pending
  cases turn with
  | outside _ resting => exact absurd resting notResting
  | calling _ _ _ _ resting => exact absurd resting notResting
  | posted call pc inside isPosted entered posted =>
      cases posted with
      | requested _ _ done requested => exact ⟨call, pc, inside, isPosted, entered, done, requested⟩
      | handling _ noWaiter => exact absurd (noWaiter.symm.trans pending) (by simp)
      | answering _ _ _ noWaiter => exact absurd (noWaiter.symm.trans pending) (by simp)
      | answered resting => exact absurd resting notResting
  | resetting _ _ resting => exact absurd resting notResting
  | copying _ _ resting => exact absurd resting notResting

/-- An idle handler stays idle and makes no difference to the turn. The caller may
have been woken. -/
theorem System.Turn.idles (turn : system.Turn) (idle : system.handler.idle = true)
    {word : NotifiedState} (same : word = .notified ↔ system.rpcPending = .notified)
    {handler : HandlerPc} (idle' : handler.idle = true) {inside : Option (Inside Thread Args)}
    (outside : system.inside = none → inside = none)
    (stands : ∀ call pc, system.inside = some ⟨call, pc⟩ → inside = some ⟨call, pc⟩ ∨
      pc.posted = true ∧ ∃ pc', inside = some ⟨call, pc'⟩ ∧ pc'.posted = true) :
    { system with rpcPending := word, handler := handler, inside := inside }.Turn := by
  have rests : system.Resting →
      { system with rpcPending := word, handler := handler, inside := inside }.Resting :=
    fun resting => ⟨idle', fun notified => resting.2 (same.mp notified)⟩
  have stays : ∀ call pc, system.inside = some ⟨call, pc⟩ → pc.posted = false →
      inside = some ⟨call, pc⟩ := by
    intro call pc isInside notPosted
    rcases stands call pc isInside with same | ⟨posted, _⟩
    · exact same
    · rw [posted] at notPosted
      cases notPosted
  cases turn with
  | outside isOutside resting done entered answers =>
      exact .outside (outside isOutside) (rests resting) done entered answers
  | calling call pc isInside early resting done entered storing =>
      have notPosted : pc.posted = false := by
        cases pc with
        | notifying pc => cases pc <;> first | rfl | cases early
        | _ => first | rfl | cases early
      exact .calling call pc (stays call pc isInside notPosted) early (rests resting) done entered
        storing
  | posted call pc isInside isPosted entered posted =>
      have posted' :
          { system with rpcPending := word, handler := handler, inside := inside }.Posted call := by
        cases posted with
        | requested _ pending done requested =>
            exact .requested (.inl idle') (same.mpr pending) done requested
        | handling handling => exact absurd (handling.busy.symm.trans idle) (by simp)
        | answering pc isHandler before =>
            rw [isHandler] at idle
            cases pc <;> simp_all [HandlerPc.idle, NotifyPc.before]
        | answered resting done answered => exact .answered (rests resting) done answered
      rcases stands call pc isInside with same | ⟨_, pc', isInside', isPosted'⟩
      · exact .posted call pc same isPosted entered posted'
      · exact .posted call pc' isInside' isPosted' entered posted'
  | resetting call isInside resting done entered answered =>
      exact .resetting call (stays call _ isInside rfl) (rests resting) done entered answered
  | copying call isInside resting done entered answered =>
      exact .copying call (stays call _ isInside rfl) (rests resting) done entered answered

private theorem Consistent.handlerWaitAccess {pc : WaitPc} {spurious : Bool}
    {outcome : NotifiedState × WaitPc} (consistent : Consistent system)
    (waiting : system.handler = .waiting pc)
    (waited : waitAccess system.rpcPending spurious pc = some outcome) :
    Consistent { system with rpcPending := outcome.1, handler := .afterWait outcome.2 } := by
  have spec := consistent.handlerWaits.spec waiting waited
  have idle : system.handler.idle = true := by
    rw [waiting]
    rfl
  have callerWaits : ∀ wakes, Waits system.rpcDone
      (fun pc => ∃ call, system.inside = some ⟨call, .waiting pc⟩) wakes := by
    intro wakes
    apply consistent.callerWaits.mono
    intro _ _ due
    cases due.symm.trans waiting
  cases isReturned : outcome.2 with
  | returned =>
      have pending := spec.returned isReturned
      obtain ⟨call, pc, inside, isPosted, entered, done, requested⟩ :=
        consistent.turn.of_pending pending
      constructor
      · exact .posted call pc inside isPosted entered
          (.requested (.inr rfl) (spec.notified.mpr pending) done requested)
      · apply Waits.vacuous
        simp [HandlerPc.afterWait]
      · exact callerWaits _
  | _ =>
      constructor
      · exact consistent.turn.idles idle spec.notified rfl (fun same => same)
          (fun _ _ same => .inl same)
      · apply spec.waits
        intro pc stands
        cases stands
        exact ⟨isReturned.symm, by simp⟩
      · exact callerWaits _

theorem Consistent.works (consistent : Consistent system) {pc : CallerPc}
    (inside : system.inside = some ⟨call, pc⟩) (isPosted : pc.posted = true)
    (entered : system.Entered call) (done : system.rpcDone ≠ .notified)
    {next : System Thread Args Buffer} (sameInside : next.inside = system.inside)
    (sameDone : next.rpcDone = system.rpcDone) (sameEntered : next.entered = system.entered)
    (sameReturned : next.returned = system.returned) (awake : ∀ pc, next.handler ≠ .waiting pc)
    (posted : next.Posted call) : Consistent next := by
  constructor
  · refine .posted call pc (sameInside.trans inside) isPosted ?_ posted
    rw [System.Entered, sameEntered, sameReturned]
    exact entered
  · exact Waits.vacuous awake
  · rw [sameInside, sameDone]
    exact consistent.callerWaits.undue done

private theorem Consistent.handlerNotifies {pc : NotifyPc} {spurious : Bool}
    (consistent : Consistent system) (isHandler : system.handler = .notifying pc)
    (before : pc.before = true) :
    Consistent { system with
      rpcDone := (notifyAccess system.rpcDone spurious pc).1
      handler := .afterNotify (notifyAccess system.rpcDone spurious pc).2 } := by
  have busy : system.handler.idle = false := by
    rw [isHandler]
    cases pc <;> first | rfl | cases before
  obtain ⟨call, pc', inside, isPosted, entered, posted⟩ := consistent.turn.of_busy busy
  cases posted with
  | requested idle =>
      rcases idle with idle | reset
      · exact absurd (busy.symm.trans idle) (by simp)
      · cases reset.symm.trans isHandler
  | handling handling =>
      rw [isHandler] at handling
      cases handling
  | answered resting => exact absurd (busy.symm.trans resting.1) (by simp)
  | answering pc'' isHandler' _ pending done answered =>
      rcases notifyAccess_spec done spurious before with ⟨same, before'⟩ | ⟨notified, woken⟩
      · rw [same]
        have on : HandlerPc.afterNotify (notifyAccess system.rpcDone spurious pc).2 =
            .notifying (notifyAccess system.rpcDone spurious pc).2 := by
          cases isPc : (notifyAccess system.rpcDone spurious pc).2 <;>
            first | rfl | (rw [isPc] at before'; cases before')
        rw [on]
        exact consistent.works inside isPosted entered done rfl rfl rfl rfl (by simp)
          (.answering _ rfl before' pending done answered)
      · rw [notified]
        constructor
        · refine .posted call pc' inside isPosted entered (.answered ⟨?_, ?_⟩ rfl answered)
          · rcases woken with isWake | ⟨isReturned, _⟩
            · rw [isWake]
              rfl
            · rw [isReturned]
              rfl
          · show system.rpcPending ≠ .notified
            simp [pending]
        · constructor
          · rcases woken with isWake | ⟨isReturned, _⟩
            · simp [isWake, HandlerPc.afterNotify]
            · simp [isReturned, HandlerPc.afterNotify]
          · intro pc waiting inFutex
            rcases woken with isWake | ⟨isReturned, _⟩
            · rw [isWake] at waiting
              cases waiting
            · rw [isReturned] at waiting
              cases waiting
              cases inFutex
          · intro _ isPending
            exact absurd (pending.symm.trans isPending) (by simp)
        · apply consistent.callerWaits.notified
          rcases woken with isWake | ⟨_, noWaiter⟩
          · left
            rw [isWake]
            rfl
          · exact .inr noWaiter

private theorem CallerPc.woken_waiting {pc : CallerPc} {pc' : WaitPc}
    (woken : pc.woken = .waiting pc') :
    pc' ≠ .asleep ∧ ∃ pc'', pc = .waiting pc'' ∧ (pc'' = pc' ∨ pc'' = .asleep ∧ pc' = .woken) := by
  cases pc with
  | waiting pc'' =>
      cases pc'' with
      | asleep =>
          cases woken
          exact ⟨by simp, .asleep, rfl, .inr ⟨rfl, rfl⟩⟩
      | _ =>
          cases woken
          exact ⟨by simp, _, rfl, .inl rfl⟩
  | _ => cases woken

private theorem CallerPc.woken_cases (pc : CallerPc) :
    pc.woken = pc ∨ pc.posted = true ∧ pc.woken.posted = true := by
  cases pc with
  | waiting pc => cases pc <;> first | exact .inl rfl | exact .inr ⟨rfl, rfl⟩
  | _ => exact .inl rfl

private theorem Consistent.handlerWakes (consistent : Consistent system)
    (isHandler : system.handler = .notifying .wake) :
    Consistent { system with
      inside := system.inside.map Inside.wake, handler := .waiting .load } := by
  have idle : system.handler.idle = true := by
    rw [isHandler]
    rfl
  have callerWaits := consistent.callerWaits
  constructor
  · refine consistent.turn.idles idle Iff.rfl rfl ?_ ?_
    · intro outside
      rw [outside]
      rfl
    · intro call pc inside
      rw [inside]
      rcases pc.woken_cases with same | ⟨posted, posted'⟩
      · left
        simp [Inside.wake, same]
      · exact .inr ⟨posted, pc.woken, rfl, posted'⟩
  · constructor
    · simp
    · intro pc waiting inFutex
      cases waiting
      cases inFutex
    · simp
  · apply callerWaits.roused
    intro pc stands
    obtain ⟨call, woken⟩ := stands
    obtain ⟨inside, isInside, woken⟩ := Option.map_eq_some_iff.mp woken
    have isWaiting : inside.pc.woken = .waiting pc := congrArg Inside.pc woken
    obtain ⟨awake, pc', waiting, same⟩ := CallerPc.woken_waiting isWaiting
    have stood : system.inside = some ⟨inside.call, .waiting pc'⟩ := by
      rw [isInside, ← waiting]
    refine ⟨awake, ?_, fun inFutex => ⟨pc', ⟨inside.call, stood⟩, ?_⟩⟩
    · rintro rfl
      rcases same with rfl | ⟨_, other⟩
      · exact callerWaits.running ⟨inside.call, stood⟩
      · cases other
    · rcases same with rfl | ⟨rfl, _⟩
      · exact inFutex
      · rfl

/-- The handler is between the reset of `rpc_pending_` and the notification. -/
theorem System.Turn.of_working (turn : system.Turn) (busy : system.handler.idle = false)
    (notReset : system.handler ≠ .reset) (notNotifying : ∀ pc, system.handler ≠ .notifying pc) :
    ∃ call pc, system.inside = some ⟨call, pc⟩ ∧ pc.posted = true ∧ system.Entered call ∧
      system.handler.Handling call ∧ system.rpcPending = .noWaiter ∧
      system.rpcDone ≠ .notified ∧ system.Requested call := by
  obtain ⟨call, pc, inside, isPosted, entered, posted⟩ := turn.of_busy busy
  cases posted with
  | requested idle =>
      rcases idle with idle | reset
      · exact absurd (busy.symm.trans idle) (by simp)
      · exact absurd reset notReset
  | handling handling pending done requested =>
      exact ⟨call, pc, inside, isPosted, entered, handling, pending, done, requested⟩
  | answering pc isHandler => exact absurd isHandler (notNotifying pc)
  | answered resting => exact absurd (busy.symm.trans resting.1) (by simp)

private theorem System.Turn.notifying (turn : system.Turn) {pc : NotifyPc}
    (isHandler : system.handler = .notifying pc) : pc.before = true ∨ pc = .wake := by
  cases isIdle : system.handler.idle with
  | true =>
      rw [isHandler] at isIdle
      cases pc <;> first | exact .inr rfl | cases isIdle
  | false =>
      obtain ⟨call, pc', _, _, _, posted⟩ := turn.of_busy isIdle
      cases posted with
      | requested idle =>
          rcases idle with idle | reset
          · exact absurd (isIdle.symm.trans idle) (by simp)
          · cases reset.symm.trans isHandler
      | handling handling =>
          rw [isHandler] at handling
          cases handling
      | answering pc' isHandler' before =>
          cases isHandler'.symm.trans isHandler
          exact .inl before
      | answered resting => exact absurd (isIdle.symm.trans resting.1) (by simp)

private theorem Consistent.handlerAccess {spurious : Bool} {reset : AgentRpcResponse Buffer}
    (consistent : Consistent system)
    (accessed : system.handlerAccess spurious reset system.handler = some next) :
    Consistent next := by
  cases isHandler : system.handler with
  | waiting pc =>
      rw [isHandler] at accessed
      obtain ⟨outcome, waited, rfl⟩ := Option.map_eq_some_iff.mp accessed
      exact consistent.handlerWaitAccess isHandler waited
  | notifying pc =>
      rw [isHandler] at accessed
      rcases consistent.turn.notifying isHandler with before | rfl
      · have isNext : next = { system with
            rpcDone := (notifyAccess system.rpcDone spurious pc).1
            handler := .afterNotify (notifyAccess system.rpcDone spurious pc).2 } := by
          cases pc <;> first | exact (Option.some.inj accessed).symm | cases before
        subst isNext
        exact consistent.handlerNotifies isHandler before
      · cases accessed
        exact consistent.handlerWakes isHandler
  | reset =>
      rw [isHandler] at accessed
      cases accessed
      have busy : system.handler.idle = false := by rw [isHandler]; rfl
      obtain ⟨call, pc, inside, isPosted, entered, posted⟩ := consistent.turn.of_busy busy
      cases posted with
      | requested _ _ done requested =>
          exact consistent.works inside isPosted entered done rfl rfl rfl rfl (by simp)
            (.handling trivial rfl done requested)
      | handling handling =>
          rw [isHandler] at handling
          cases handling
      | answering pc isNotifying => cases isNotifying.symm.trans isHandler
      | answered resting => exact absurd (busy.symm.trans resting.1) (by simp)
  | resetResponse =>
      rw [isHandler] at accessed
      cases accessed
      obtain ⟨call, pc, inside, isPosted, entered, _, pending, done, requested⟩ :=
        consistent.turn.of_working (by rw [isHandler]; rfl) (by simp [isHandler])
          (by simp [isHandler])
      exact consistent.works inside isPosted entered done rfl rfl rfl rfl (by simp)
        (.handling trivial pending done requested)
  | loadReq =>
      rw [isHandler] at accessed
      cases accessed
      obtain ⟨call, pc, inside, isPosted, entered, _, pending, done, requested⟩ :=
        consistent.turn.of_working (by rw [isHandler]; rfl) (by simp [isHandler])
          (by simp [isHandler])
      exact consistent.works inside isPosted entered done rfl rfl rfl rfl (by simp)
        (.handling requested.1 pending done requested)
  | offline =>
      obtain ⟨call, pc, _, _, _, handling, _⟩ :=
        consistent.turn.of_working (by rw [isHandler]; rfl) (by simp [isHandler])
          (by simp [isHandler])
      rw [isHandler] at handling
      cases handling
  | isOnline =>
      rw [isHandler] at accessed
      cases accessed
  | running req =>
      rw [isHandler] at accessed
      cases accessed

/-! ## Runs -/

private theorem WaitPc.roused_eq_some {pc pc' : WaitPc} {interrupted : Bool}
    (roused : pc.roused interrupted = some pc') :
    pc = .asleep ∧ (pc' = .futex ∨ pc' = .woken) := by
  cases pc with
  | asleep =>
      cases interrupted with
      | false =>
          cases roused
          exact ⟨rfl, .inr rfl⟩
      | true =>
          cases roused
          exact ⟨rfl, .inl rfl⟩
  | _ => cases roused

private theorem Consistent.callerRouses (consistent : Consistent system)
    (inside : system.inside = some ⟨call, .waiting .asleep⟩) {pc : WaitPc}
    (roused : pc = .futex ∨ pc = .woken) : Consistent (system.at call (.waiting pc)) := by
  obtain ⟨entered, posted⟩ := consistent.turn.of_posted inside rfl
  constructor
  · exact .posted call (.waiting pc) rfl rfl entered (posted.waited Iff.rfl)
  · apply consistent.handlerWaits.mono
    intro _ _ due
    obtain ⟨call', isWake⟩ := due
    cases isWake.symm.trans inside
  · apply consistent.callerWaits.roused
    intro pc' stands
    obtain ⟨call', same⟩ := stands
    cases same
    refine ⟨?_, ?_, fun _ => ⟨.asleep, ⟨call, inside⟩, rfl⟩⟩
    · rcases roused with rfl | rfl <;> simp
    · rcases roused with rfl | rfl <;> simp

private theorem Consistent.handlerRouses (consistent : Consistent system)
    (waiting : system.handler = .waiting .asleep) {pc : WaitPc}
    (roused : pc = .futex ∨ pc = .woken) :
    Consistent { system with handler := .waiting pc } := by
  have idle : system.handler.idle = true := by
    rw [waiting]
    rfl
  constructor
  · exact consistent.turn.idles idle Iff.rfl rfl (fun same => same) (fun _ _ same => .inl same)
  · apply consistent.handlerWaits.roused
    intro pc' stands
    cases stands
    refine ⟨?_, ?_, fun _ => ⟨.asleep, waiting, rfl⟩⟩
    · rcases roused with rfl | rfl <;> simp
    · rcases roused with rfl | rfl <;> simp
  · apply consistent.callerWaits.mono
    intro _ _ due
    cases due.symm.trans waiting

/-! ## The steps -/

section Performed

variable {empty : Buffer}

theorem System.perform_enter (performed : system.perform empty (.enter call) = some next) :
    system.inside = none ∧
      next = { system.at call .storeReq with entered := system.entered ++ [call] } := by
  cases isInside : system.inside with
  | some inside => simp [System.perform, isInside] at performed
  | none =>
      simp only [System.perform, isInside, Option.some.injEq] at performed
      exact ⟨rfl, performed.symm⟩

theorem System.perform_isOnline {online : Bool}
    (performed : system.perform empty (.isOnline online) = some next) :
    system.handler = .isOnline ∧
      next = { system with handler := if online then .resetResponse else .offline } := by
  cases isHandler : system.handler with
  | isOnline =>
      simp only [System.perform, isHandler, Option.some.injEq] at performed
      exact ⟨rfl, performed.symm⟩
  | _ => simp [System.perform, isHandler] at performed

theorem System.perform_respond {res : AgentRpcResponse Buffer}
    (performed : system.perform empty (.respond res) = some next) :
    ∃ req, system.handler = .running req ∧ next = { system with rpcRes := res } := by
  cases isHandler : system.handler with
  | running req =>
      simp only [System.perform, isHandler, Option.some.injEq] at performed
      exact ⟨req, rfl, performed.symm⟩
  | _ => simp [System.perform, isHandler] at performed

theorem System.perform_finish (performed : system.perform empty .finish = some next) :
    ∃ req, system.handler = .running req ∧
      next = { system with
        handler := .notifying .load
        handled := system.handled ++ [⟨req, system.rpcArgs, system.rpcRes⟩] } := by
  cases isHandler : system.handler with
  | running req =>
      simp only [System.perform, isHandler, Option.some.injEq] at performed
      exact ⟨req, rfl, performed.symm⟩
  | _ => simp [System.perform, isHandler] at performed

theorem System.perform_rouse_caller {interrupted : Bool}
    (performed : system.perform empty (.rouse .caller interrupted) = some next) :
    ∃ call pc pc', system.inside = some ⟨call, .waiting pc⟩ ∧
      pc.roused interrupted = some pc' ∧ next = system.at call (.waiting pc') := by
  cases isInside : system.inside with
  | none => simp [System.perform, isInside] at performed
  | some inside =>
      obtain ⟨call, pc⟩ := inside
      cases pc with
      | waiting pc =>
          simp only [System.perform, isInside, Option.map_eq_some_iff] at performed
          obtain ⟨pc', isRoused, isNext⟩ := performed
          exact ⟨call, pc, pc', rfl, isRoused, isNext.symm⟩
      | _ => simp [System.perform, isInside] at performed

theorem System.perform_rouse_handler {interrupted : Bool}
    (performed : system.perform empty (.rouse .handler interrupted) = some next) :
    ∃ pc pc', system.handler = .waiting pc ∧ pc.roused interrupted = some pc' ∧
      next = { system with handler := .waiting pc' } := by
  cases isHandler : system.handler with
  | waiting pc =>
      simp only [System.perform, isHandler, Option.map_eq_some_iff] at performed
      obtain ⟨pc', isRoused, isNext⟩ := performed
      exact ⟨pc, pc', rfl, isRoused, isNext.symm⟩
  | _ => simp [System.perform, isHandler] at performed

theorem Consistent.perform {action : Action Thread Args Buffer}
    (consistent : Consistent system) (online : action ≠ .isOnline false)
    (performed : system.perform empty action = some next) : Consistent next := by
  cases action with
  | enter call =>
      obtain ⟨isInside, rfl⟩ := System.perform_enter performed
      cases consistent.turn with
      | outside _ resting done entered answers =>
          constructor
          · refine .calling call .storeReq rfl rfl resting done ?_ ?_
            · simp [System.Entered, System.at, entered]
            · exact ⟨fun other => absurd rfl other, fun other => absurd rfl other, answers⟩
          · exact consistent.handlerWaits.undue resting.2
          · apply Waits.vacuous
            simp [System.at]
      | calling _ _ inside => cases inside.symm.trans isInside
      | posted _ _ inside => cases inside.symm.trans isInside
      | resetting _ inside => cases inside.symm.trans isInside
      | copying _ inside => cases inside.symm.trans isInside
  | caller spurious =>
      obtain ⟨inside, isInside, accessed⟩ := Option.bind_eq_some_iff.mp performed
      exact consistent.callerAccess isInside accessed
  | handler spurious => exact consistent.handlerAccess performed
  | isOnline isOnline =>
      obtain ⟨isHandler, rfl⟩ := System.perform_isOnline performed
      cases isOnline with
      | false => exact absurd rfl online
      | true =>
          obtain ⟨call, pc, inside, isPosted, entered, _, pending, done, requested⟩ :=
            consistent.turn.of_working (by rw [isHandler]; rfl) (by simp [isHandler])
              (by simp [isHandler])
          exact consistent.works inside isPosted entered done rfl rfl rfl rfl (by simp)
            (.handling trivial pending done requested)
  | respond res =>
      obtain ⟨req, isHandler, rfl⟩ := System.perform_respond performed
      obtain ⟨call, pc, inside, isPosted, entered, handling, pending, done, requested⟩ :=
        consistent.turn.of_working (by rw [isHandler]; rfl) (by simp [isHandler])
          (by simp [isHandler])
      exact consistent.works inside isPosted entered done rfl rfl rfl rfl (by simp [isHandler])
        (.handling handling pending done requested)
  | finish =>
      obtain ⟨req, isHandler, rfl⟩ := System.perform_finish performed
      obtain ⟨call, pc, inside, isPosted, entered, handling, pending, done, requested⟩ :=
        consistent.turn.of_working (by rw [isHandler]; rfl) (by simp [isHandler])
          (by simp [isHandler])
      rw [isHandler] at handling
      obtain ⟨_, isArgs, answers⟩ := requested
      refine consistent.works inside isPosted entered done rfl rfl rfl rfl (by simp) ?_
      refine .answering .load rfl rfl pending done ⟨system.handled, ?_, answers⟩
      rw [← isArgs, ← show req = call.req.toInt64 from handling]
  | rouse party interrupted =>
      cases party with
      | caller =>
          obtain ⟨call, pc, pc', isInside, isRoused, rfl⟩ := System.perform_rouse_caller performed
          obtain ⟨rfl, roused⟩ := WaitPc.roused_eq_some isRoused
          exact consistent.callerRouses isInside roused
      | handler =>
          obtain ⟨pc, pc', isHandler, isRoused, rfl⟩ := System.perform_rouse_handler performed
          obtain ⟨rfl, roused⟩ := WaitPc.roused_eq_some isRoused
          exact consistent.handlerRouses isHandler roused

end Performed

theorem System.Initial.consistent (initial : system.Initial) : Consistent system := by
  obtain ⟨pending, done, inside, handler, entered, handled, returned⟩ := initial
  constructor
  · refine .outside inside ⟨?_, ?_⟩ done ?_ ?_
    · rw [handler]
      rfl
    · simp [pending]
    · simp [entered, returned]
    · rw [returned, handled]
      exact .nil
  · constructor
    · simp [handler]
    · intro pc waiting inFutex
      cases handler.symm.trans waiting
      cases inFutex
    · simp [handler]
  · apply Waits.vacuous
    simp [inside]

theorem consistent_of_reachable {empty : Buffer}
    (reachable : (onlineRpcs empty).Reachable system) : Consistent system := by
  apply reachable.invariant
  · intro state initial
    exact System.Initial.consistent initial
  · intro state action next consistent moved
    exact consistent.perform moved.1 moved.2

/-! ## The exchange -/

/-- The calls in the order of the mutex are those that have returned and the one
inside. -/
theorem System.Turn.entered (turn : system.Turn) : system.entered =
    system.returned.map Prod.fst ++ system.inside.toList.map Inside.call := by
  cases turn with
  | outside inside _ _ entered => simp [inside, entered]
  | calling call pc inside _ _ _ entered => simpa [inside, System.Entered] using entered
  | posted call pc inside _ entered => simpa [inside, System.Entered] using entered
  | resetting call inside _ _ entered => simpa [inside, System.Entered] using entered
  | copying call inside _ _ entered => simpa [inside, System.Entered] using entered

/-- The runs of `RpcHandler` are those of the answers that were returned, and one of
the call inside if it has been handled. -/
theorem System.Turn.handled (turn : system.Turn) : Answers system.returned system.handled ∨
    ∃ call pc, system.inside = some ⟨call, pc⟩ ∧ system.Answered call := by
  cases turn with
  | outside _ _ _ _ answers => exact .inl answers
  | calling _ _ _ _ _ _ _ storing => exact .inl storing.2.2
  | posted call pc inside _ _ posted =>
      cases posted with
      | requested _ _ _ requested => exact .inl requested.2.2
      | handling _ _ _ requested => exact .inl requested.2.2
      | answering _ _ _ _ _ answered => exact .inr ⟨call, pc, inside, answered⟩
      | answered _ _ answered => exact .inr ⟨call, pc, inside, answered⟩
  | resetting call inside _ _ _ answered => exact .inr ⟨call, _, inside, answered⟩
  | copying call inside _ _ _ answered => exact .inr ⟨call, _, inside, answered⟩

theorem Answers.getElem? {returned : List (Call Thread Args × Result Buffer)}
    {handled : List (Handled Args Buffer)} (answers : Answers returned handled) {n : Nat}
    {answer : Call Thread Args × Result Buffer} (isReturned : returned[n]? = some answer) :
    ∃ run, handled[n]? = some run ∧ run.req = answer.1.req.toInt64 ∧ run.args = answer.1.args ∧
      answer.2 = answer.1.result run.res := by
  induction answers generalizing n with
  | nil => simp at isReturned
  | cons matched _ ih =>
      cases n with
      | zero =>
          simp only [List.getElem?_cons_zero, Option.some.injEq] at isReturned
          subst isReturned
          exact ⟨_, rfl, matched⟩
      | succ n => exact ih isReturned

private theorem Answers.requests {returned : List (Call Thread Args × Result Buffer)}
    {handled : List (Handled Args Buffer)} (answers : Answers returned handled) :
    handled.map (fun run => (run.req, run.args)) =
      returned.map fun answer => (answer.1.req.toInt64, answer.1.args) := by
  induction answers with
  | nil => rfl
  | cons matched _ ih => simp [ih, matched.1, matched.2.1]

theorem System.Turn.answers (turn : system.Turn) :
    ∃ earlier later, system.handled = earlier ++ later ∧ Answers system.returned earlier ∧
      later.map (fun run => (run.req, run.args)) <+:
        system.inside.toList.map fun inside => (inside.call.req.toInt64, inside.call.args) := by
  rcases turn.handled with answers | ⟨call, pc, inside, earlier, handled, answers⟩
  · exact ⟨system.handled, [], by simp, answers, by simp⟩
  · exact ⟨earlier, _, handled, answers, by simp [inside]⟩

/-- The caller and the handler do not sleep at the same time during a call. -/
theorem Consistent.awake (consistent : Consistent system)
    (inside : system.inside = some ⟨call, .waiting .asleep⟩) :
    system.handler ≠ .waiting .asleep := by
  intro asleep
  obtain ⟨_, posted⟩ := consistent.turn.of_posted inside rfl
  cases posted with
  | requested _ pending =>
      obtain ⟨call', wakes⟩ := consistent.handlerWaits.due asleep pending
      cases wakes.symm.trans inside
  | handling handling =>
      rw [asleep] at handling
      cases handling
  | answering pc isHandler => cases isHandler.symm.trans asleep
  | answered _ done =>
      have wakes := consistent.callerWaits.due ⟨call, inside⟩ done
      cases wakes.symm.trans asleep

/-- While the enclave is online, for any callers and any interleaving with the
handler: the calls are handled and return in the order in which they took the mutex,
each handled once, with its own request and arguments for as long as `RpcHandler`
runs, and each returns the response of its own run, or the code in it; no `CHECK` fails;
and the caller and the handler are never both asleep. -/
theorem rpc_answers_own_call (empty : Buffer) (system : System Thread Args Buffer)
    (reachable : (onlineRpcs empty).Reachable system) :
    (system.handled.map (fun run => (run.req, run.args)) <+:
      system.entered.map fun call => (call.req.toInt64, call.args)) ∧
    system.returned.map Prod.fst <+: system.entered ∧
    system.entered.length ≤ system.returned.length + 1 ∧
    (∀ (n : Nat) call result, system.returned[n]? = some (call, result) → ∃ run,
      system.handled[n]? = some run ∧ run.req = call.req.toInt64 ∧ run.args = call.args ∧
        result = if call.withResponse then .response run.res else .code run.res.responseCode) ∧
    (∀ req, system.handler = .running req → ∃ inside, system.inside = some inside ∧
      req = inside.call.req.toInt64 ∧ system.rpcArgs = inside.call.args) ∧
    (∀ call, system.inside ≠ some ⟨call, .notifying .failed⟩) ∧
    system.handler ≠ .notifying .failed ∧
    ∀ call, system.inside = some ⟨call, .waiting .asleep⟩ →
      system.handler ≠ .waiting .asleep := by
  have consistent := consistent_of_reachable reachable
  have turn := consistent.turn
  have entered := turn.entered
  obtain ⟨earlier, later, handled, answers, isLater⟩ := turn.answers
  refine ⟨?_, ?_, ?_, ?_, ?_, ?_, ?_, fun call inside => consistent.awake inside⟩
  · rw [handled, entered, List.map_append, List.map_append, answers.requests, List.map_map]
    apply List.prefix_append_right_inj _ |>.mpr
    simpa [Function.comp_def] using isLater
  · rw [entered]
    exact List.prefix_append _ _
  · rw [entered]
    cases system.inside <;> simp
  · intro n call result isReturned
    obtain ⟨run, isRun, spec⟩ := answers.getElem? isReturned
    refine ⟨run, ?_, spec⟩
    rw [handled]
    exact List.getElem?_append_left (List.getElem?_eq_some_iff.mp isRun).1 |>.trans isRun
  · intro req isHandler
    obtain ⟨call, pc, inside, _, _, handling, _, _, requested⟩ :=
      turn.of_working (by rw [isHandler]; rfl) (by simp [isHandler]) (by simp [isHandler])
    rw [isHandler] at handling
    exact ⟨⟨call, pc⟩, inside, handling, requested.2.1⟩
  · intro call inside
    rcases turn.place inside with early | posted | other | other
    · cases early
    · cases posted
    · cases other
    · cases other
  · intro isFailed
    rcases turn.notifying isFailed with before | isWake
    · cases before
    · cases isWake

/-! ## A run -/

def quiet : System Unit Unit Nat where
  rpcPending := .noWaiter
  rpcDone := .noWaiter
  rpcReq := 0
  rpcArgs := ()
  rpcRes := ⟨-1, 0⟩
  inside := none
  handler := .waiting .load
  entered := []
  handled := []
  returned := []

def handlerSteps (n : Nat) : List (Action Unit Unit Nat) := List.replicate n (.handler false)

def callerSteps (n : Nat) : List (Action Unit Unit Nat) := List.replicate n (.caller false)

/-- A call of `Rpc`. The handler sleeps, wakes up on its own before the caller wakes it, answers,
and sleeps again when the wake comes. -/
def lateWake : List (Action Unit Unit Nat) :=
  List.flatten [handlerSteps 4, [.enter ⟨(), false, 3, ()⟩], callerSteps 5,
    [.rouse .handler false], handlerSteps 2, [.isOnline true], handlerSteps 2,
    [.respond ⟨7, 0⟩, .finish], handlerSteps 7, callerSteps 4]

/-- A call of `RpcWithResponse`, which sleeps until the handler wakes it. -/
def copiedResponse : List (Action Unit Unit Nat) :=
  List.flatten [[.enter ⟨(), true, 5, ()⟩], callerSteps 10, handlerSteps 2, [.isOnline true],
    handlerSteps 2, [.respond ⟨9, 42⟩, .finish], handlerSteps 4, callerSteps 3]

def afterLateWake : System Unit Unit Nat :=
  ((lateWake ++ copiedResponse).foldlM (System.perform 0) quiet).getD quiet

theorem rpc_answers_own_call_lateWake :
    afterLateWake.returned =
        [(⟨(), false, 3, ()⟩, .code 7), (⟨(), true, 5, ()⟩, .response ⟨9, 42⟩)] ∧
      (∃ run, afterLateWake.handled[0]? = some run ∧ run.req = 3 ∧ run.res.responseCode = 7) ∧
      ∃ run, afterLateWake.handled[1]? = some run ∧ run.req = 5 ∧ run.res = ⟨9, 42⟩ := by
  have run : (rpcs 0).Run quiet (lateWake ++ copiedResponse) afterLateWake :=
    Machine.Run.of_foldlM_some (fun _ _ _ performed => performed) rfl
  have reachable : (onlineRpcs 0).Reachable afterLateWake := by
    refine ⟨quiet, lateWake ++ copiedResponse, ⟨rfl, rfl, rfl, rfl, rfl, rfl, rfl⟩, run.restrict ?_⟩
    intro action member _ isOffline
    subst isOffline
    simp [lateWake, copiedResponse, handlerSteps, callerSteps] at member
  obtain ⟨_, _, _, own, _⟩ := rpc_answers_own_call 0 afterLateWake reachable
  obtain ⟨first, isFirst, isReq, _, isCode⟩ := own 0 ⟨(), false, 3, ()⟩ (.code 7) rfl
  obtain ⟨second, isSecond, isReq', _, isResponse⟩ :=
    own 1 ⟨(), true, 5, ()⟩ (.response ⟨9, 42⟩) rfl
  have isCode' : (7 : Int64) = first.res.responseCode := Result.code.inj isCode
  have isResponse' : (⟨9, 42⟩ : AgentRpcResponse Nat) = second.res := Result.response.inj isResponse
  exact ⟨rfl, ⟨first, isFirst, isReq, isCode'.symm⟩, second, isSecond, isReq', isResponse'.symm⟩

end Ghost.Agent
