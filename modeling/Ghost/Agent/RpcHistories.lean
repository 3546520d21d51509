import Ghost.Agent.RpcSafety

/-!
# What earlier calls leave behind

Calls to an enclave that may go offline. A log keeps every round of the handler with the
response that `RpcHandler` was given. While a handler that found the enclave offline
passes for one that has yet to ask, the turns are those of an enclave that stays online.
-/

set_option autoImplicit false

namespace Ghost.Agent

open Lib

variable {Thread Args Buffer : Type}

/-- One round of the handler thread. -/
structure Round (Args Buffer : Type) where
  online : Bool
  /-- The response that `RpcHandler` was called with, or whose code was replaced. -/
  given : AgentRpcResponse Buffer
  handled : Handled Args Buffer

structure Logged (Thread Args Buffer : Type) where
  system : System Thread Args Buffer
  /-- The response that `RpcHandler` was last called with. -/
  given : AgentRpcResponse Buffer
  rounds : List (Round Args Buffer)

/-- The log after an action that leads to the system `next`. -/
def Logged.after (logged : Logged Thread Args Buffer) (next : System Thread Args Buffer) :
    Action Thread Args Buffer → HandlerPc → Logged Thread Args Buffer
  | .handler _, .loadReq => { logged with system := next, given := logged.system.rpcRes }
  | .handler _, .offline =>
      { logged with
        system := next
        rounds := logged.rounds ++
          [⟨false, logged.system.rpcRes, logged.system.rpcReq, logged.system.rpcArgs,
            next.rpcRes⟩] }
  | .finish, .running req =>
      { logged with
        system := next
        rounds := logged.rounds ++
          [⟨true, logged.given, req, logged.system.rpcArgs, logged.system.rpcRes⟩] }
  | _, _ => { logged with system := next }

def Logged.perform (empty : Buffer) (logged : Logged Thread Args Buffer)
    (action : Action Thread Args Buffer) : Option (Logged Thread Args Buffer) :=
  (logged.system.perform empty action).map fun next =>
    logged.after next action logged.system.handler

/-- All interleavings, with the log. -/
def loggedRpcs (empty : Buffer) (initial : AgentRpcResponse Buffer) :
    Machine (Logged Thread Args Buffer) (Action Thread Args Buffer) where
  initial logged := logged.system.Initial ∧ logged.system.rpcRes = initial ∧ logged.rounds = []
  step logged action next := logged.perform empty action = some next

variable {empty : Buffer} {initial : AgentRpcResponse Buffer}
  {logged next : Logged Thread Args Buffer} {system system' : System Thread Args Buffer}
  {action : Action Thread Args Buffer}

@[simp] theorem Logged.after_system {handler : HandlerPc} :
    (logged.after system action handler).system = system := by
  unfold Logged.after
  split <;> rfl

private theorem Logged.perform_eq_some : logged.perform empty action = some next ↔
    ∃ system, logged.system.perform empty action = some system ∧
      logged.after system action logged.system.handler = next := by
  simp [Logged.perform]

/-- The log records and does not disturb. -/
theorem rpcs_logged {labels : List (Action Thread Args Buffer)} (initially : system.Initial)
    (run : (rpcs empty).Run system labels system') :
    ∃ logged, (loggedRpcs empty system.rpcRes).Reachable logged ∧ logged.system = system' := by
  have matched : ∀ state action next (logged : Logged Thread Args Buffer), logged.system = state →
      (rpcs empty).step state action next →
      ∃ next', (loggedRpcs empty system.rpcRes).step logged action next' ∧ next'.system = next := by
    intro state action next logged related moved
    subst related
    exact ⟨_, Logged.perform_eq_some.mpr ⟨next, moved, rfl⟩, Logged.after_system⟩
  obtain ⟨logged, isRun, related⟩ := run.simulate matched
    (show Logged.system ⟨system, system.rpcRes, []⟩ = system from rfl)
  exact ⟨logged, ⟨_, labels, ⟨initially, rfl, rfl⟩, isRun⟩, related⟩

/-! ## Hiding that the enclave is offline -/

/-- A handler that has found the enclave offline passes for one that has yet to ask. -/
def HandlerPc.masked : HandlerPc → HandlerPc
  | .offline => .isOnline
  | pc => pc

def System.masked (system : System Thread Args Buffer) (handled : List (Handled Args Buffer)) :
    System Thread Args Buffer :=
  { system with handler := system.handler.masked, handled := handled }

def Logged.masked (logged : Logged Thread Args Buffer) : System Thread Args Buffer :=
  logged.system.masked (logged.rounds.map Round.handled)

private theorem HandlerPc.masked_of_ne {handler : HandlerPc} (online : handler ≠ .offline) :
    handler.masked = handler := by
  cases handler with
  | offline => exact absurd rfl online
  | _ => rfl

private theorem HandlerPc.masked_woken {handler : HandlerPc} :
    handler.masked.woken = handler.woken.masked := by
  cases handler with
  | waiting pc => cases pc <;> rfl
  | _ => rfl

@[simp] theorem HandlerPc.masked_afterWait {pc : WaitPc} :
    (HandlerPc.afterWait pc).masked = .afterWait pc := by
  cases pc <;> rfl

@[simp] theorem HandlerPc.masked_afterNotify {pc : NotifyPc} :
    (HandlerPc.afterNotify pc).masked = .afterNotify pc := by
  cases pc <;> rfl

section Masked

variable {handled : List (Handled Args Buffer)}

private theorem System.callerAccess_masked {spurious : Bool} {call : Call Thread Args}
    {pc : CallerPc} :
    (system.masked handled).callerAccess spurious call pc =
      (system.callerAccess spurious call pc).map fun next => next.masked handled := by
  cases pc with
  | notifying pc =>
      cases pc with
      | wake =>
          simp only [System.callerAccess, System.masked, System.at, HandlerPc.masked_woken,
            Option.map_some]
      | _ => rfl
  | waiting pc =>
      simp only [System.callerAccess, Option.map_map]
      rfl
  | _ => rfl

private theorem System.handlerAccess_masked {spurious : Bool} {reset : AgentRpcResponse Buffer}
    {pc : HandlerPc} (online : pc ≠ .offline) :
    (system.masked handled).handlerAccess spurious reset pc =
      (system.handlerAccess spurious reset pc).map fun next => next.masked handled := by
  cases pc with
  | waiting pc =>
      simp only [System.handlerAccess, Option.map_map]
      congr 1
      funext outcome
      simp [System.masked]
  | notifying pc =>
      cases pc with
      | wake => rfl
      | failed => rfl
      | _ => simp [System.handlerAccess, System.masked]
  | offline => exact absurd rfl online
  | _ => rfl

/-- Every other action is the same for the masked system. -/
theorem System.perform_masked (performed : system.perform empty action = some system')
    (online : ∀ isOnline, action ≠ .isOnline isOnline) (unfinished : action ≠ .finish)
    (found : system.handler = .offline → ∀ spurious, action ≠ .handler spurious) :
    (system.masked handled).perform empty action = some (system'.masked handled) := by
  cases action with
  | enter call =>
      obtain ⟨isInside, rfl⟩ := System.perform_enter performed
      simp [System.perform, System.masked, System.at, isInside]
  | caller spurious =>
      obtain ⟨inside, isInside, accessed⟩ := Option.bind_eq_some_iff.mp performed
      apply Option.bind_eq_some_iff.mpr
      exact ⟨inside, isInside, by rw [System.callerAccess_masked, accessed, Option.map_some]⟩
  | handler spurious =>
      have isOnline : system.handler ≠ .offline := fun offline => found offline spurious rfl
      have accessed : system.handlerAccess spurious ⟨-1, empty⟩ system.handler = some system' :=
        performed
      show (system.masked handled).handlerAccess spurious ⟨-1, empty⟩ system.handler.masked =
        some (system'.masked handled)
      rw [HandlerPc.masked_of_ne isOnline, System.handlerAccess_masked isOnline, accessed,
        Option.map_some]
  | isOnline isOnline => exact absurd rfl (online isOnline)
  | respond res =>
      obtain ⟨req, isHandler, rfl⟩ := System.perform_respond performed
      simp [System.perform, System.masked, HandlerPc.masked, isHandler]
  | finish => exact absurd rfl unfinished
  | rouse party interrupted =>
      cases party with
      | caller =>
          obtain ⟨call, pc, pc', isInside, isRoused, rfl⟩ := System.perform_rouse_caller performed
          simp [System.perform, System.masked, System.at, isInside, isRoused]
      | handler =>
          obtain ⟨pc, pc', isHandler, isRoused, rfl⟩ := System.perform_rouse_handler performed
          simp [System.perform, System.masked, HandlerPc.masked, isHandler, isRoused]

end Masked

/-- A round ends only where `RpcHandler` returns or the enclave was found offline. -/
theorem Logged.after_rounds {handler : HandlerPc} (unfinished : action ≠ .finish)
    (found : handler = .offline → ∀ spurious, action ≠ .handler spurious) :
    (logged.after system action handler).rounds = logged.rounds := by
  unfold Logged.after
  split
  · rfl
  · exact absurd rfl (found rfl _)
  · exact absurd rfl unfinished
  · rfl

/-- The round of a call that found the enclave offline answers that call. -/
theorem Consistent.refuses (consistent : Consistent system) (isHandler : system.handler = .isOnline)
    (res : AgentRpcResponse Buffer) :
    Consistent { system with
      rpcRes := res
      handler := .notifying .load
      handled := system.handled ++ [⟨system.rpcReq, system.rpcArgs, res⟩] } := by
  obtain ⟨call, pc, inside, isPosted, entered, _, pending, done, isReq, isArgs, answers⟩ :=
    consistent.turn.of_working (by rw [isHandler]; rfl) (by simp [isHandler])
      (by simp [isHandler])
  refine consistent.works inside isPosted entered done rfl rfl rfl rfl (by simp) ?_
  refine .answering .load rfl rfl pending done ⟨system.handled, ?_, answers⟩
  rw [isReq, isArgs]

private theorem Logged.masked_after (performed : logged.system.perform empty action = some system)
    (online : ∀ isOnline, action ≠ .isOnline isOnline) (unfinished : action ≠ .finish)
    (found : logged.system.handler = .offline → ∀ spurious, action ≠ .handler spurious) :
    logged.masked.perform empty action =
      some (logged.after system action logged.system.handler).masked := by
  rw [Logged.masked, Logged.masked, Logged.after_system, Logged.after_rounds unfinished found]
  exact System.perform_masked performed online unfinished found

theorem Logged.masked_step (consistent : Consistent logged.masked)
    (moved : logged.perform empty action = some next) : Consistent next.masked := by
  obtain ⟨system, performed, rfl⟩ := Logged.perform_eq_some.mp moved
  cases action with
  | finish =>
      obtain ⟨req, isHandler, rfl⟩ := System.perform_finish performed
      have kept : ∀ next, logged.masked.perform empty .finish = some next → Consistent next :=
        fun _ => consistent.perform (by simp)
      apply kept
      simp [System.perform, Logged.masked, Logged.after, System.masked, HandlerPc.masked, isHandler]
  | isOnline isOnline =>
      obtain ⟨isHandler, rfl⟩ := System.perform_isOnline performed
      cases isOnline with
      | true =>
          have kept : ∀ next, logged.masked.perform empty (.isOnline true) = some next →
              Consistent next := fun _ => consistent.perform (by simp)
          apply kept
          simp [System.perform, Logged.masked, Logged.after, System.masked, HandlerPc.masked,
            isHandler]
      | false =>
          simpa [Logged.masked, Logged.after, System.masked, HandlerPc.masked, isHandler]
            using consistent
  | handler spurious =>
      by_cases offline : logged.system.handler = .offline
      · have accessed : logged.system.handlerAccess spurious ⟨-1, empty⟩ logged.system.handler =
          some system := performed
        rw [offline] at accessed
        cases accessed
        have isHandler : logged.masked.handler = .isOnline := by
          simp [Logged.masked, System.masked, HandlerPc.masked, offline]
        have refused := consistent.refuses isHandler
          { logged.system.rpcRes with responseCode := -19 }
        simpa [Logged.masked, Logged.after, System.masked, HandlerPc.masked, offline] using refused
      · have found : logged.system.handler = .offline → ∀ spurious', .handler spurious ≠
            (.handler spurious' : Action Thread Args Buffer) :=
          fun isOffline => absurd isOffline offline
        exact consistent.perform (by simp)
          (Logged.masked_after performed (by simp) (by simp) found)
  | enter call =>
      exact consistent.perform (by simp)
        (Logged.masked_after performed (by simp) (by simp) (by simp))
  | caller spurious =>
      exact consistent.perform (by simp)
        (Logged.masked_after performed (by simp) (by simp) (by simp))
  | respond res =>
      exact consistent.perform (by simp)
        (Logged.masked_after performed (by simp) (by simp) (by simp))
  | rouse party interrupted =>
      exact consistent.perform (by simp)
        (Logged.masked_after performed (by simp) (by simp) (by simp))

/-- Whatever the enclave says, the masked system is in order. -/
theorem Logged.masked_consistent (reachable : (loggedRpcs empty initial).Reachable logged) :
    Consistent logged.masked := by
  apply reachable.invariant fun logged => Consistent logged.masked
  · intro logged starts
    obtain ⟨initially, _, noRounds⟩ := starts
    have masked : logged.masked.Initial := by
      obtain ⟨pending, done, inside, handler, entered, handled, returned⟩ := initially
      refine ⟨pending, done, inside, ?_, entered, ?_, returned⟩
      · simp [Logged.masked, System.masked, HandlerPc.masked, handler]
      · simp [Logged.masked, System.masked, noRounds]
    exact masked.consistent
  · intro logged action next consistent moved
    exact Logged.masked_step consistent moved

/-! ## What a round finds in the blob -/

/-- The response that the rounds leave in the blob. -/
def lastResponse (initial : AgentRpcResponse Buffer) (rounds : List (Round Args Buffer)) :
    AgentRpcResponse Buffer :=
  (rounds.getLast?.map fun round => round.handled.res).getD initial

/-- Online, `RpcHandler` gets a fresh response; offline, only the code is replaced. -/
def Round.Follows (empty : Buffer) (found : AgentRpcResponse Buffer) (round : Round Args Buffer) :
    Prop :=
  if round.online then round.given = ⟨-1, empty⟩
  else round.handled.res = { found with responseCode := -19 }

def Linked (empty : Buffer) (initial : AgentRpcResponse Buffer)
    (rounds : List (Round Args Buffer)) : Prop :=
  ∀ (n : Nat) round, rounds[n]? = some round →
    round.Follows empty (lastResponse initial (rounds.take n))

/-- What the blob and the handler hold of the response, by where the handler stands. -/
def Logged.Holds (empty : Buffer) (initial : AgentRpcResponse Buffer)
    (logged : Logged Thread Args Buffer) : HandlerPc → Prop
  | .loadReq => logged.system.rpcRes = ⟨-1, empty⟩
  | .running _ => logged.given = ⟨-1, empty⟩
  | _ => logged.system.rpcRes = lastResponse initial logged.rounds

@[simp] theorem lastResponse_append {rounds : List (Round Args Buffer)}
    {round : Round Args Buffer} : lastResponse initial (rounds ++ [round]) = round.handled.res := by
  simp [lastResponse]

private theorem Linked.append {rounds : List (Round Args Buffer)} {round : Round Args Buffer}
    (linked : Linked empty initial rounds)
    (follows : round.Follows empty (lastResponse initial rounds)) :
    Linked empty initial (rounds ++ [round]) := by
  intro n round' isRound
  rcases Nat.lt_or_ge n rounds.length with inside | last
  · rw [List.getElem?_append_left inside] at isRound
    rw [List.take_append_of_le_length inside.le]
    exact linked n round' isRound
  · rw [List.getElem?_append_right last, List.getElem?_singleton] at isRound
    split at isRound
    · cases isRound
      have isLast : n = rounds.length := by omega
      rw [isLast, List.take_left]
      exact follows
    · cases isRound

private theorem Logged.Holds.woken {handler : HandlerPc}
    (holds : logged.Holds empty initial handler) :
    logged.Holds empty initial handler.woken := by
  cases handler with
  | waiting pc => cases pc <;> exact holds
  | _ => exact holds

private theorem System.callerAccess_response {spurious : Bool} {call : Call Thread Args}
    {pc : CallerPc}
    (accessed : system.callerAccess spurious call pc = some system') :
    system'.rpcRes = system.rpcRes ∧
      (system'.handler = system.handler ∨ system'.handler = system.handler.woken) := by
  cases pc with
  | notifying pc =>
      cases pc with
      | wake =>
          cases accessed
          exact ⟨rfl, .inr rfl⟩
      | failed => cases accessed
      | _ =>
          cases accessed
          exact ⟨rfl, .inl rfl⟩
  | waiting pc =>
      obtain ⟨outcome, _, rfl⟩ := Option.map_eq_some_iff.mp accessed
      exact ⟨rfl, .inl rfl⟩
  | _ =>
      cases accessed
      exact ⟨rfl, .inl rfl⟩

structure Chained (empty : Buffer) (initial : AgentRpcResponse Buffer)
    (logged : Logged Thread Args Buffer) : Prop where
  linked : Linked empty initial logged.rounds
  holds : logged.Holds empty initial logged.system.handler

/-- An action that leaves the response and the log alone. -/
theorem Chained.stays (chained : Chained empty initial logged)
    (sameRes : next.system.rpcRes = logged.system.rpcRes) (sameGiven : next.given = logged.given)
    (sameRounds : next.rounds = logged.rounds)
    (holds : logged.Holds empty initial next.system.handler) : Chained empty initial next := by
  constructor
  · rw [sameRounds]
    exact chained.linked
  · cases isHandler : next.system.handler <;>
      simpa [isHandler, Logged.Holds, sameRes, sameGiven, sameRounds] using holds

private theorem Chained.handlerAccess {spurious : Bool} (chained : Chained empty initial logged)
    (accessed : logged.system.handlerAccess spurious ⟨-1, empty⟩ logged.system.handler =
      some system) :
    Chained empty initial (logged.after system (.handler spurious) logged.system.handler) := by
  have holds := chained.holds
  cases isHandler : logged.system.handler with
  | waiting pc =>
      rw [isHandler] at accessed holds
      obtain ⟨outcome, _, rfl⟩ := Option.map_eq_some_iff.mp accessed
      refine chained.stays rfl rfl rfl ?_
      cases isPc : outcome.2 <;>
        simpa [Logged.after, HandlerPc.afterWait, Logged.Holds, isPc] using holds
  | reset =>
      rw [isHandler] at accessed holds
      cases accessed
      exact chained.stays rfl rfl rfl holds
  | isOnline =>
      rw [isHandler] at accessed
      cases accessed
  | resetResponse =>
      rw [isHandler] at accessed
      cases accessed
      exact ⟨chained.linked, rfl⟩
  | loadReq =>
      rw [isHandler] at accessed holds
      cases accessed
      exact ⟨chained.linked, holds⟩
  | running req =>
      rw [isHandler] at accessed
      cases accessed
  | offline =>
      rw [isHandler] at accessed holds
      cases accessed
      constructor
      · apply chained.linked.append
        rw [← show logged.system.rpcRes = lastResponse initial logged.rounds from holds]
        rfl
      · simp [Logged.after, Logged.Holds]
  | notifying pc =>
      rw [isHandler] at accessed holds
      cases pc with
      | failed => cases accessed
      | wake =>
          cases accessed
          exact chained.stays rfl rfl rfl holds
      | _ =>
          cases accessed
          refine chained.stays rfl rfl rfl ?_
          simp only [Logged.after]
          unfold HandlerPc.afterNotify
          split <;> exact holds

theorem Chained.step (chained : Chained empty initial logged)
    (moved : logged.perform empty action = some next) : Chained empty initial next := by
  obtain ⟨system, performed, rfl⟩ := Logged.perform_eq_some.mp moved
  have holds := chained.holds
  cases action with
  | enter call =>
      obtain ⟨_, rfl⟩ := System.perform_enter performed
      exact chained.stays rfl rfl rfl holds
  | caller spurious =>
      obtain ⟨inside, _, accessed⟩ := Option.bind_eq_some_iff.mp performed
      obtain ⟨sameRes, same | woken⟩ := System.callerAccess_response accessed
      · exact chained.stays sameRes rfl rfl (show logged.Holds _ _ system.handler from same ▸ holds)
      · exact chained.stays sameRes rfl rfl
          (show logged.Holds _ _ system.handler from woken ▸ holds.woken)
  | handler spurious => exact chained.handlerAccess performed
  | isOnline isOnline =>
      obtain ⟨isHandler, rfl⟩ := System.perform_isOnline performed
      rw [isHandler] at holds
      refine chained.stays rfl rfl rfl ?_
      cases isOnline with
      | true => exact holds
      | false => exact holds
  | respond res =>
      obtain ⟨req, isHandler, rfl⟩ := System.perform_respond performed
      rw [isHandler] at holds
      constructor
      · exact chained.linked
      · simpa [Logged.after, Logged.Holds, isHandler] using holds
  | finish =>
      obtain ⟨req, isHandler, rfl⟩ := System.perform_finish performed
      rw [isHandler] at holds ⊢
      constructor
      · apply chained.linked.append
        exact holds
      · simp [Logged.after, Logged.Holds]
  | rouse party interrupted =>
      cases party with
      | caller =>
          obtain ⟨call, pc, pc', _, _, rfl⟩ := System.perform_rouse_caller performed
          exact chained.stays rfl rfl rfl holds
      | handler =>
          obtain ⟨pc, pc', isHandler, _, rfl⟩ := System.perform_rouse_handler performed
          rw [isHandler] at holds
          exact chained.stays rfl rfl rfl holds

theorem chained_of_reachable (reachable : (loggedRpcs empty initial).Reachable logged) :
    Chained empty initial logged := by
  apply reachable.invariant
  · intro logged starts
    obtain ⟨⟨_, _, _, isHandler, _⟩, isInitial, noRounds⟩ := starts
    constructor
    · rw [noRounds]
      intro n round isRound
      simp at isRound
    · simp [isHandler, Logged.Holds, isInitial, noRounds, lastResponse]
  · intro logged action next chained moved
    exact chained.step moved

/-! ## Two histories -/

/-- The round that answered the call that returned after the earlier ones. -/
structure Logged.Answering (logged : Logged Thread Args Buffer)
    (earlier : List (Call Thread Args × Result Buffer)) (call : Call Thread Args)
    (round : Round Args Buffer) : Prop where
  isRound : logged.rounds[earlier.length]? = some round
  isReq : round.handled.req = call.req.toInt64
  isArgs : round.handled.args = call.args

/-- The response that round `n` found in the blob. -/
def Logged.found (initial : AgentRpcResponse Buffer) (logged : Logged Thread Args Buffer)
    (n : Nat) : AgentRpcResponse Buffer :=
  lastResponse initial (logged.rounds.take n)

/-- `RpcHandler` is a function of what it is called with, in this round. -/
def Round.Behaves
    (behaviour : Int64 → Args → AgentRpcResponse Buffer → AgentRpcResponse Buffer)
    (round : Round Args Buffer) : Prop :=
  round.online = true →
    round.handled.res = behaviour round.handled.req round.handled.args round.given

/-- The enclave has the same status and `RpcHandler` behaves the same. -/
structure SameCircumstances
    (behaviour : Int64 → Args → AgentRpcResponse Buffer → AgentRpcResponse Buffer)
    (round round' : Round Args Buffer) : Prop where
  online : round.online = round'.online
  behaves : round.Behaves behaviour
  behaves' : round'.Behaves behaviour

private theorem Call.result_response {call : Call Thread Args} {res res' : AgentRpcResponse Buffer}
    (returned : .response res = call.result res') : res = res' := by
  unfold Call.result at returned
  split at returned
  · exact Result.response.inj returned
  · cases returned

/-- Every call that has returned was answered by a round of its own, online or not. -/
theorem Logged.answering {earlier : List (Call Thread Args × Result Buffer)}
    {call : Call Thread Args} {res : AgentRpcResponse Buffer}
    (reachable : (loggedRpcs empty initial).Reachable logged)
    (returned : logged.system.returned = earlier ++ [(call, .response res)]) :
    ∃ round, logged.Answering earlier call round ∧ round.handled.res = res := by
  have turn := (Logged.masked_consistent reachable).turn
  obtain ⟨done, later, handled, answers, _⟩ := turn.answers
  have isReturned : logged.masked.returned[earlier.length]? = some (call, .response res) := by
    show logged.system.returned[earlier.length]? = _
    simp [returned]
  obtain ⟨run, isRun, isReq, isArgs, isResult⟩ := answers.getElem? isReturned
  have isHandled : (logged.rounds.map Round.handled)[earlier.length]? = some run := by
    show logged.masked.handled[earlier.length]? = _
    rw [handled]
    exact (List.getElem?_append_left (List.getElem?_eq_some_iff.mp isRun).1).trans isRun
  rw [List.getElem?_map] at isHandled
  obtain ⟨round, isRound, rfl⟩ := Option.map_eq_some_iff.mp isHandled
  exact ⟨round, ⟨isRound, isReq, isArgs⟩, (Call.result_response isResult).symm⟩

/-- A round that finds the enclave online answers from its own request alone. -/
theorem Linked.online {rounds : List (Round Args Buffer)} {n : Nat} {round : Round Args Buffer}
    {behaviour : Int64 → Args → AgentRpcResponse Buffer → AgentRpcResponse Buffer}
    (linked : Linked empty initial rounds) (isRound : rounds[n]? = some round)
    (online : round.online = true) (behaves : round.Behaves behaviour) :
    round.handled.res = behaviour round.handled.req round.handled.args ⟨-1, empty⟩ := by
  have follows := linked n round isRound
  rw [Round.Follows, if_pos online] at follows
  rw [behaves online, follows]

private theorem Linked.offline {rounds : List (Round Args Buffer)} {n : Nat}
    {round : Round Args Buffer}
    (linked : Linked empty initial rounds) (isRound : rounds[n]? = some round)
    (offline : round.online = false) :
    round.handled.res =
      { lastResponse initial (rounds.take n) with responseCode := -19 } := by
  have follows := linked n round isRound
  rw [Round.Follows, if_neg (by simp [offline])] at follows
  exact follows

/-- Two histories of one agent process, each ending with the return of the same request: in
the same circumstances the responses are equal exactly if the enclave was online for it or
the histories had left the same buffer in the blob. -/
theorem rpc_response_leaks_iff
    (behaviour : Int64 → Args → AgentRpcResponse Buffer → AgentRpcResponse Buffer)
    {logged logged' : Logged Thread Args Buffer}
    (reachable : (loggedRpcs empty initial).Reachable logged)
    (reachable' : (loggedRpcs empty initial).Reachable logged')
    {earlier earlier' : List (Call Thread Args × Result Buffer)} {call call' : Call Thread Args}
    {res res' : AgentRpcResponse Buffer}
    (returned : logged.system.returned = earlier ++ [(call, .response res)])
    (returned' : logged'.system.returned = earlier' ++ [(call', .response res')])
    (sameReq : call.req = call'.req) (sameArgs : call.args = call'.args) :
    ∃ round round', logged.Answering earlier call round ∧
      logged'.Answering earlier' call' round' ∧
      (SameCircumstances behaviour round round' →
        (res = res' ↔ round.online = true ∨
          (logged.found initial earlier.length).buffer =
            (logged'.found initial earlier'.length).buffer)) := by
  obtain ⟨round, answering, rfl⟩ := Logged.answering reachable returned
  obtain ⟨round', answering', rfl⟩ := Logged.answering reachable' returned'
  have linked := (chained_of_reachable reachable).linked
  have linked' := (chained_of_reachable reachable').linked
  refine ⟨round, round', answering, answering', fun same => ?_⟩
  cases isOnline : round.online with
  | true =>
      have isRes := linked.online answering.isRound isOnline same.behaves
      have isRes' := linked'.online answering'.isRound (same.online ▸ isOnline) same.behaves'
      have isEqual : round.handled.res = round'.handled.res := by
        rw [isRes, isRes', answering.isReq, answering.isArgs, answering'.isReq, answering'.isArgs,
          sameReq, sameArgs]
      simp [isEqual]
  | false =>
      have isRes := linked.offline answering.isRound isOnline
      have isRes' := linked'.offline answering'.isRound (same.online ▸ isOnline)
      rw [isRes, isRes']
      simp [Logged.found]

/-! ## A buffer that outlives its call -/

def blank : Logged Unit Unit Bool where
  system :=
    { rpcPending := .noWaiter
      rpcDone := .noWaiter
      rpcReq := 0
      rpcArgs := ()
      rpcRes := ⟨-1, false⟩
      inside := none
      handler := .waiting .load
      entered := []
      handled := []
      returned := [] }
  given := ⟨-1, false⟩
  rounds := []

def query : Call Unit Unit := ⟨(), true, 3, ()⟩

/-- A query that finds the enclave offline, from its start to its return. -/
def offlineQuery : List (Action Unit Unit Bool) :=
  List.flatten [[.enter query], List.replicate 5 (.caller false), List.replicate 2 (.handler false),
    [.isOnline false], List.replicate 4 (.handler false), List.replicate 3 (.caller false)]

/-- A query that `RpcHandler` answers with the given buffer. -/
def onlineQuery (buffer : Bool) : List (Action Unit Unit Bool) :=
  List.flatten [[.enter query], List.replicate 5 (.caller false), List.replicate 2 (.handler false),
    [.isOnline true], List.replicate 2 (.handler false), [.respond ⟨0, buffer⟩, .finish],
    List.replicate 3 (.handler false), List.replicate 3 (.caller false)]

def replay (actions : List (Action Unit Unit Bool)) : Logged Unit Unit Bool :=
  (actions.foldlM (Logged.perform false) blank).getD blank

theorem replay_reachable {actions : List (Action Unit Unit Bool)}
    (performed : actions.foldlM (Logged.perform false) blank = some (replay actions)) :
    (loggedRpcs false ⟨-1, false⟩).Reachable (replay actions) :=
  ⟨blank, actions, ⟨⟨rfl, rfl, rfl, rfl, rfl, rfl, rfl⟩, rfl, rfl⟩,
    Machine.Run.of_foldlM_some (fun _ _ _ performed => performed) performed⟩

/-- The same buffer left behind: the responses agree. -/
theorem rpc_response_leaks_iff_offline :
    ∃ round round', (replay offlineQuery).Answering [] query round ∧
      (replay (onlineQuery false ++ offlineQuery)).Answering
        [(query, .response ⟨0, false⟩)] query round' ∧
      SameCircumstances (fun _ _ res => res) round round' ∧
      (round.online = true ∨
        ((replay offlineQuery).found ⟨-1, false⟩ 0).buffer =
          ((replay (onlineQuery false ++ offlineQuery)).found ⟨-1, false⟩ 1).buffer) := by
  have isReturned : (replay offlineQuery).system.returned =
      [] ++ [(query, .response ⟨-19, false⟩)] := rfl
  have isReturned' : (replay (onlineQuery false ++ offlineQuery)).system.returned =
      [(query, .response ⟨0, false⟩)] ++ [(query, .response ⟨-19, false⟩)] := rfl
  obtain ⟨round, round', answering, answering', spec⟩ :=
    rpc_response_leaks_iff (fun _ _ res => res) (replay_reachable rfl) (replay_reachable rfl)
      isReturned isReturned' rfl rfl
  have isRound : round = ⟨false, ⟨-1, false⟩, 3, (), ⟨-19, false⟩⟩ :=
    Option.some.inj (answering.isRound.symm.trans rfl)
  have isRound' : round' = ⟨false, ⟨0, false⟩, 3, (), ⟨-19, false⟩⟩ :=
    Option.some.inj (answering'.isRound.symm.trans rfl)
  have same : SameCircumstances (fun _ _ res => res) round round' := by
    subst isRound isRound'
    exact ⟨rfl, by simp [Round.Behaves], by simp [Round.Behaves]⟩
  exact ⟨round, round', answering, answering', same, (spec same).mp rfl⟩

/-- The buffer that `RpcHandler` gave to an earlier call comes back with `-ENODEV`. -/
theorem rpc_response_leaks :
    (loggedRpcs false ⟨-1, false⟩).Reachable (replay offlineQuery) ∧
    (loggedRpcs false ⟨-1, false⟩).Reachable (replay (onlineQuery true ++ offlineQuery)) ∧
    (replay offlineQuery).system.returned = [] ++ [(query, .response ⟨-19, false⟩)] ∧
    (replay (onlineQuery true ++ offlineQuery)).system.returned =
      [(query, .response ⟨0, true⟩)] ++ [(query, .response ⟨-19, true⟩)] ∧
    (⟨-19, false⟩ : AgentRpcResponse Bool) ≠ ⟨-19, true⟩ ∧
    ∃ round round', (replay offlineQuery).Answering [] query round ∧
      (replay (onlineQuery true ++ offlineQuery)).Answering
        [(query, .response ⟨0, true⟩)] query round' ∧
      ∀ behaviour, SameCircumstances behaviour round round' := by
  refine ⟨replay_reachable rfl, replay_reachable rfl, rfl, rfl, by simp,
    ⟨false, ⟨-1, false⟩, 3, (), ⟨-19, false⟩⟩, ⟨false, ⟨0, true⟩, 3, (), ⟨-19, true⟩⟩,
    ⟨rfl, rfl, rfl⟩, ⟨rfl, rfl, rfl⟩, ?_⟩
  intro behaviour
  exact ⟨rfl, by simp [Round.Behaves], by simp [Round.Behaves]⟩

end Ghost.Agent
