import Ghost.Txn.RunRequest

/-!
# The life of a transaction

One agent calls the operations of a run request in any order, while the kernel may
at any time claim a transaction that is ready and commit one that it has claimed.
-/

set_option autoImplicit false

namespace Ghost.Txn

open Lib

inductive Call where
  | open_ (options : RunRequestOptions)
  | abort
  | submit
  | complete
  | commit

/-- What the last call returned. -/
inductive Returned where
  | nothing
  | aborted (result : Bool)
  | completed (result : Bool)
  deriving DecidableEq

inductive Agent where
  | idle (last : Returned)
  | opening (options : RunRequestOptions) (pc : OpenPc)
  | aborting (pc : AbortPc)
  | submitting (pc : SubmitPc) (thenComplete : Bool)
  | completing (pc : CompletePc)
  | dead

/-- What has happened to a transaction since `Open` stored `GHOST_TXN_READY`. -/
structure Opened where
  fields : Fields
  /-- The negative states that it has reached. -/
  negatives : List Int
  /-- How often the kernel has claimed it. -/
  claims : Nat
  /-- How many calls of `Abort` have returned true. -/
  aborts : Nat

structure System where
  req : RunRequest
  agent : Agent
  /-- The kernel has claimed the transaction and not yet stored a result. -/
  claimed : Bool
  /-- The transaction that was opened last. -/
  opened : Option Opened

/-- What the environment answers: whether a weak CAS fails spuriously, whether
`GhostHelper()->Commit` returns 0, and `IsOnline`. -/
structure Answers where
  spurious : Bool
  committed : Bool
  online : Bool

inductive Action where
  | call (call : Call)
  | access (answers : Answers)
  | claim (cpu : Int)
  | commit (result : Int)

namespace System

variable (system : System)

/-- A store to the transaction, with a note of a negative state. -/
def store (req : RunRequest) : Option Opened :=
  if req.state ≠ system.req.state ∧ isCommitted req.state then
    system.opened.map fun opened => { opened with negatives := req.state :: opened.negatives }
  else system.opened

def begin (call : Call) : Agent :=
  match call with
  | .open_ options => .opening options options.begin
  | .abort => .aborting .loadState
  | .submit => .submitting .loadState false
  | .complete => .completing .wait
  | .commit => .submitting .loadState true

/-- The next access of the agent's call. -/
def access (answers : Answers) : Option System :=
  match system.agent with
  | .idle _ => none
  | .opening options pc =>
      let outcome := openAccess options system.req answers.spurious pc
      let system := { system with req := outcome.1 }
      some (outcome.2.elim
        (fun pc => { system with agent := .opening options pc })
        (fun _ => { system with
          agent := .idle .nothing
          opened := some ⟨system.req.fields, [], 0, 0⟩ })
        { system with agent := .dead }
        { system with agent := .dead })
  | .aborting pc =>
      let outcome := abortAccess system.req pc
      let system := { system with req := outcome.1, opened := system.store outcome.1 }
      some (outcome.2.elim
        (fun pc => { system with agent := .aborting pc })
        (fun result => { system with
          agent := .idle (.aborted result)
          opened := system.opened.map fun opened =>
            if result then { opened with aborts := opened.aborts + 1 } else opened })
        { system with agent := .dead }
        { system with agent := .dead })
  | .submitting pc thenComplete =>
      some ((submitAccess system.req answers.committed pc).elim
        (fun pc => { system with agent := .submitting pc thenComplete })
        (fun _ => { system with
          agent := if thenComplete then .completing .wait else .idle .nothing })
        { system with agent := .dead }
        { system with agent := .dead })
  | .completing pc =>
      some ((completeAccess system.req answers.online pc).elim
        (fun pc => { system with agent := .completing pc })
        (fun result => { system with agent := .idle (.completed result) })
        { system with agent := .dead }
        { system with agent := .dead })
  | .dead => none

def perform : Action → Option System
  | .call call =>
      match system.agent with
      | .idle _ => some { system with agent := begin call }
      | _ => none
  | .access answers => system.access answers
  | .claim cpu =>
      if system.req.state = State.ready ∧ isClaimed cpu then
        some { system with
          req := { system.req with state := cpu }
          claimed := true
          opened := system.opened.map fun opened => { opened with claims := opened.claims + 1 } }
      else none
  | .commit result =>
      if system.claimed = true ∧ isCommitted result then
        let req := { system.req with state := result }
        some { system with req := req, claimed := false, opened := system.store req }
      else none

/-- Before the first `Open` the transaction is committed. -/
def Initial : Prop :=
  isCommitted system.req.state ∧ system.agent = .idle .nothing ∧ system.claimed = false ∧
    system.opened = none

end System

def lifeCycles : Machine System Action where
  initial := System.Initial
  step system action next := system.perform action = some next

/-! ## The invariant -/

/-- The agent is about to store into the transaction. -/
def OpenPc.stores : OpenPc → Bool
  | .getOwner | .takeOwnership | .checkOwned | .checkNotOwned | .checkCommitted => false
  | _ => true

/-- `Abort` has changed the state and not yet returned. -/
def Agent.hasAborted : Agent → Bool
  | .aborting .getOwner | .aborting .release => true
  | _ => false

structure Consistent (system : System) : Prop where
  /-- The three meanings of a state. -/
  meaning : isCommitted system.req.state ∧ system.claimed = false ∨
    system.req.state = State.ready ∧ system.claimed = false ∨
    isClaimed system.req.state ∧ system.claimed = true
  /-- A transaction is only filled in after it is committed. -/
  filling : ∀ options pc, system.agent = .opening options pc → pc.stores = true →
    isCommitted system.req.state
  aborting : system.agent.hasAborted = true → system.req.state = State.aborted
  completing : system.agent = .completing .loadState → isCommitted system.req.state
  completed : ∀ result, system.agent = .idle (.completed result) →
    isCommitted system.req.state ∧ (result = true ↔ system.req.state = State.complete)
  aborted : system.agent = .idle (.aborted true) → system.req.state = State.aborted
  unopened : system.opened = none → isCommitted system.req.state

/-- The record of the opened transaction against its state. The kernel may report
`GHOST_TXN_ABORTED` as well, for a transaction that it has claimed. -/
structure Recorded (system : System) (opened : Opened) : Prop where
  pending : ¬isCommitted system.req.state →
    opened.negatives = [] ∧ opened.fields = system.req.fields ∧ opened.aborts = 0
  unclaimed : system.req.state = State.ready → opened.claims = 0
  claimed : isClaimed system.req.state → 0 < opened.claims
  committed : isCommitted system.req.state → opened.negatives = [system.req.state]
  aborts : opened.aborts + (if system.agent.hasAborted then 1 else 0) =
    if system.req.state = State.aborted ∧ opened.claims = 0 then 1 else 0

def Good (system : System) : Prop :=
  Consistent system ∧ ∀ opened, system.opened = some opened → Recorded system opened

theorem System.Initial.good {system : System} (initial : system.Initial) : Good system := by
  obtain ⟨committed, idle, unclaimed, unopened⟩ := initial
  constructor
  · constructor
    · exact .inl ⟨committed, unclaimed⟩
    · simp [idle]
    · simp [idle, Agent.hasAborted]
    · simp [idle]
    · simp [idle]
    · simp [idle]
    · exact fun _ => committed
  · intro opened isOpened
    cases unopened.symm.trans isOpened

/-- What the invariant asks of where the agent stands. -/
structure Stands (agent : Agent) (state : Int) : Prop where
  filling : ∀ options pc, agent = .opening options pc → pc.stores = true → isCommitted state
  completing : agent = .completing .loadState → isCommitted state
  completed : ∀ result, agent = .idle (.completed result) →
    isCommitted state ∧ (result = true ↔ state = State.complete)
  aborted : agent = .idle (.aborted true) → state = State.aborted

/-- A step of the agent that leaves the state alone, and the fields unless the
transaction is committed. -/
theorem Good.keeps {system : System} (good : Good system) {req : RunRequest} {agent : Agent}
    (sameState : req.state = system.req.state)
    (sameFields : ¬isCommitted system.req.state → req.fields = system.req.fields)
    (sameFlag : agent.hasAborted = system.agent.hasAborted)
    (stands : Stands agent system.req.state) :
    Good { system with req := req, agent := agent } := by
  obtain ⟨consistent, recorded⟩ := good
  constructor
  · constructor
    · simpa [sameState] using consistent.meaning
    · simpa [sameState] using stands.filling
    · simpa [sameState, sameFlag] using consistent.aborting
    · simpa [sameState] using stands.completing
    · simpa [sameState] using stands.completed
    · simpa [sameState] using stands.aborted
    · simpa [sameState] using consistent.unopened
  · intro opened isOpened
    have record := recorded opened isOpened
    constructor
    · intro pending
      dsimp only at pending ⊢
      rw [sameState] at pending
      rw [sameFields pending]
      exact record.pending pending
    · simpa [sameState] using record.unclaimed
    · simpa [sameState] using record.claimed
    · simpa [sameState] using record.committed
    · simpa [sameState, sameFlag] using record.aborts

theorem Stands.free {agent : Agent} {state : Int}
    (filling : ∀ options pc, agent = .opening options pc → pc.stores = false)
    (completing : agent ≠ .completing .loadState)
    (idle : ∀ last, agent = .idle last → last = .nothing ∨ last = .aborted false) :
    Stands agent state := by
  constructor
  · intro options pc isAgent stores
    cases (filling options pc isAgent).symm.trans stores
  · intro isAgent
    exact absurd isAgent completing
  · intro result isAgent
    rcases idle _ isAgent with same | same <;> cases same
  · intro isAgent
    rcases idle _ isAgent with same | same <;> cases same

theorem Stands.opening {options : RunRequestOptions} {pc : OpenPc} {state : Int}
    (committed : pc.stores = true → isCommitted state) :
    Stands (.opening options pc) state := by
  constructor
  · intro _ _ same stores
    cases same
    exact committed stores
  · intro same
    cases same
  · intro _ same
    cases same
  · intro same
    cases same

theorem Good.call {system : System} (good : Good system) {last : Returned}
    (idle : system.agent = .idle last) (call : Call) :
    Good { system with agent := System.begin call } := by
  apply good.keeps rfl fun _ => rfl
  · rw [idle]
    cases call <;> rfl
  · cases call with
    | open_ options =>
        apply Stands.opening
        unfold RunRequestOptions.begin
        split <;> simp [OpenPc.stores]
    | _ => apply Stands.free <;> simp [System.begin]

theorem Good.ready {system : System} (good : Good system)
    (committed : isCommitted system.req.state) :
    Good { system with
      req := { system.req with state := State.ready }
      agent := .idle .nothing
      opened := some ⟨system.req.fields, [], 0, 0⟩ } := by
  have unclaimed : system.claimed = false := by
    rcases good.1.meaning with ⟨_, unclaimed⟩ | ⟨_, unclaimed⟩ | ⟨claimed, _⟩
    · exact unclaimed
    · exact unclaimed
    · exact absurd committed (not_lt.mpr claimed.1)
  constructor
  · constructor
    · exact .inr (.inl ⟨rfl, unclaimed⟩)
    · simp
    · simp [Agent.hasAborted]
    · simp
    · simp
    · simp
    · simp
  · intro opened isOpened
    cases isOpened
    constructor
    · exact fun _ => ⟨rfl, rfl, rfl⟩
    · exact fun _ => rfl
    · intro isCpu
      exact absurd (show isClaimed State.ready from isCpu) (by decide)
    · intro isReady
      exact absurd (show isCommitted State.ready from isReady) (by decide)
    · rfl

theorem Good.opens {system : System} (good : Good system) {options : RunRequestOptions}
    {pc : OpenPc} (opening : system.agent = .opening options pc) {answers : Answers}
    {next : System} (accessed : system.access answers = some next) : Good next := by
  have flag : system.agent.hasAborted = false := by rw [opening]; rfl
  have dies : Stands .dead system.req.state := by apply Stands.free <;> simp
  have filling := good.1.filling options pc opening
  have kept : ∀ (req : RunRequest) (agent : Agent), req.state = system.req.state →
      (¬isCommitted system.req.state → req.fields = system.req.fields) →
      agent.hasAborted = false → Stands agent system.req.state →
      Good { system with req := req, agent := agent } := by
    intro req agent sameState sameFields noFlag stands
    exact good.keeps sameState sameFields (noFlag.trans flag.symm) stands
  simp only [System.access, opening, Option.some.injEq] at accessed
  subst accessed
  cases pc with
  | getOwner =>
      simp only [openAccess]
      split_ifs <;> exact kept _ _ rfl (fun _ => rfl) rfl (.opening (by simp [OpenPc.stores]))
  | takeOwnership =>
      simp only [openAccess]
      split_ifs <;> exact kept _ _ rfl (fun _ => rfl) rfl (.opening (by simp [OpenPc.stores]))
  | checkOwned =>
      simp only [openAccess]
      split_ifs
      · exact kept _ _ rfl (fun _ => rfl) rfl (.opening (by simp [OpenPc.stores]))
      · exact kept _ _ rfl (fun _ => rfl) rfl dies
  | checkNotOwned =>
      simp only [openAccess]
      split_ifs
      · exact kept _ _ rfl (fun _ => rfl) rfl dies
      · exact kept _ _ rfl (fun _ => rfl) rfl (.opening (by simp [OpenPc.stores]))
  | checkCommitted =>
      simp only [openAccess]
      split_ifs with committed
      · exact kept _ _ rfl (fun _ => rfl) rfl (.opening fun _ => committed)
      · exact kept _ _ rfl (fun _ => rfl) rfl dies
  | storeAllowTxnTargetOnCpu =>
      exact kept _ _ rfl (fun _ => rfl) rfl (.opening fun _ => filling rfl)
  | checkAllowed =>
      simp only [openAccess]
      split_ifs
      · exact kept _ _ rfl (fun _ => rfl) rfl (.opening fun _ => filling rfl)
      · exact kept _ _ rfl (fun _ => rfl) rfl dies
  | storeReady => exact good.ready (filling rfl)
  | _ =>
      exact kept _ _ rfl (fun pending => absurd (filling rfl) pending) rfl
        (.opening fun _ => filling rfl)

theorem System.store_self (system : System) : system.store system.req = system.opened :=
  if_neg fun changed => changed.1 rfl

theorem aborted_facts : State.aborted ≠ State.ready ∧ isCommitted State.aborted := by decide

theorem Good.exchange {system : System} (good : Good system)
    (isReady : system.req.state = State.ready) :
    Good { system with
      req := { system.req with state := State.aborted }
      agent := .aborting .getOwner
      opened := system.store { system.req with state := State.aborted } } := by
  obtain ⟨consistent, recorded⟩ := good
  have pending : ¬isCommitted system.req.state := by
    rw [isReady]
    decide
  have unclaimed : system.claimed = false := by
    rcases consistent.meaning with ⟨committed, _⟩ | ⟨_, unclaimed⟩ | ⟨claimed, _⟩
    · exact absurd committed pending
    · exact unclaimed
    · rw [isReady] at claimed
      exact absurd claimed (by decide)
  have noted : system.store { system.req with state := State.aborted } =
      system.opened.map fun opened =>
        { opened with negatives := State.aborted :: opened.negatives } := by
    apply if_pos
    rw [isReady]
    exact aborted_facts
  constructor
  · constructor
    · exact .inl ⟨aborted_facts.2, unclaimed⟩
    · simp
    · exact fun _ => rfl
    · simp
    · simp
    · simp
    · exact fun _ => aborted_facts.2
  · intro opened isOpened
    dsimp only at isOpened
    rw [noted, Option.map_eq_some_iff] at isOpened
    obtain ⟨before, isBefore, rfl⟩ := isOpened
    have record := recorded before isBefore
    obtain ⟨negatives, _, aborts⟩ := record.pending pending
    constructor
    · intro pending'
      exact absurd aborted_facts.2 pending'
    · intro isReady'
      exact absurd isReady' aborted_facts.1
    · intro isCpu
      exact absurd aborted_facts.2 (not_lt.mpr isCpu.1)
    · intro _
      simp [negatives]
    · simp [aborts, record.unclaimed isReady, Agent.hasAborted]

theorem Good.returnsTrue {system : System} (good : Good system)
    (flag : system.agent.hasAborted = true) {req : RunRequest}
    (sameState : req.state = system.req.state) :
    Good { system with
      req := req
      agent := .idle (.aborted true)
      opened := system.opened.map fun opened => { opened with aborts := opened.aborts + 1 } } := by
  obtain ⟨consistent, recorded⟩ := good
  have isAborted := consistent.aborting flag
  constructor
  · constructor
    · simpa [sameState] using consistent.meaning
    · simp
    · simp [Agent.hasAborted]
    · simp
    · simp
    · exact fun _ => sameState.trans isAborted
    · simpa [sameState] using consistent.unopened
  · intro opened isOpened
    obtain ⟨before, isBefore, rfl⟩ := Option.map_eq_some_iff.mp isOpened
    have record := recorded before isBefore
    have aborts := record.aborts
    rw [flag] at aborts
    constructor
    · intro pending
      dsimp only at pending
      rw [sameState, isAborted] at pending
      exact absurd aborted_facts.2 pending
    · simpa [sameState] using record.unclaimed
    · simpa [sameState] using record.claimed
    · simpa [sameState] using record.committed
    · simpa [sameState, Agent.hasAborted] using aborts

theorem Good.aborts {system : System} (good : Good system) {pc : AbortPc}
    (aborting : system.agent = .aborting pc) {answers : Answers} {next : System}
    (accessed : system.access answers = some next) : Good next := by
  simp only [System.access, aborting, Option.some.injEq] at accessed
  subst accessed
  have returnsFalse : system.agent.hasAborted = false →
      Good { system with agent := .idle (.aborted false) } := by
    intro flag
    apply good.keeps rfl fun _ => rfl
    · exact flag.symm
    · apply Stands.free <;> simp
  cases pc with
  | loadState =>
      have flag : system.agent.hasAborted = false := by rw [aborting]; rfl
      by_cases isReady : system.req.state = State.ready
      · simp only [abortAccess, if_pos isReady, System.store_self]
        apply good.keeps rfl fun _ => rfl
        · exact flag.symm
        · apply Stands.free <;> simp
      · simp only [abortAccess, if_neg isReady, System.store_self]
        simpa [Goes.elim] using returnsFalse flag
  | exchange =>
      have flag : system.agent.hasAborted = false := by rw [aborting]; rfl
      by_cases isReady : system.req.state = State.ready
      · simp only [abortAccess, if_pos isReady]
        exact good.exchange isReady
      · simp only [abortAccess, if_neg isReady, System.store_self]
        simpa [Goes.elim] using returnsFalse flag
  | getOwner =>
      have flag : system.agent.hasAborted = true := by rw [aborting]; rfl
      by_cases owned : system.req.syncGroupOwned
      · simp only [abortAccess, if_pos owned, System.store_self]
        apply good.keeps rfl fun _ => rfl
        · exact flag.symm
        · apply Stands.free <;> simp
      · simp only [abortAccess, if_neg owned, System.store_self]
        simpa [Goes.elim] using good.returnsTrue flag rfl
  | release =>
      have flag : system.agent.hasAborted = true := by rw [aborting]; rfl
      have returned : Good { system with
          req := { system.req with syncGroupOwner := kSyncGroupNotOwned }
          agent := .idle (.aborted true)
          opened := system.opened.map fun opened =>
            { opened with aborts := opened.aborts + 1 } } :=
        good.returnsTrue flag rfl
      have unchanged : system.store { system.req with syncGroupOwner := kSyncGroupNotOwned } =
          system.opened := if_neg fun changed => changed.1 rfl
      simp only [abortAccess, unchanged]
      simpa [Goes.elim] using returned

theorem Good.submits {system : System} (good : Good system) {pc : SubmitPc} {thenComplete : Bool}
    (submitting : system.agent = .submitting pc thenComplete) {answers : Answers} {next : System}
    (accessed : system.access answers = some next) : Good next := by
  have flag : system.agent.hasAborted = false := by rw [submitting]; rfl
  have kept : ∀ agent : Agent, agent.hasAborted = false →
      (∀ options pc, agent = .opening options pc → pc.stores = false) →
      agent ≠ .completing .loadState →
      (∀ last, agent = .idle last → last = .nothing ∨ last = .aborted false) →
      Good { system with agent := agent } := by
    intro agent noFlag filling completing idle
    exact good.keeps rfl (fun _ => rfl) (noFlag.trans flag.symm) (.free filling completing idle)
  simp only [System.access, submitting, Option.some.injEq] at accessed
  subst accessed
  have returned : Good { system with
      agent := if thenComplete then .completing .wait else .idle .nothing } := by
    cases thenComplete <;> apply kept <;> simp [Agent.hasAborted]
  cases pc with
  | loadState =>
      by_cases ready : isOpen system.req.state
      · simp only [submitAccess, if_pos ready]
        apply kept <;> simp [Agent.hasAborted]
      · simp only [submitAccess, if_neg ready]
        exact returned
  | commit =>
      cases committed : answers.committed
      · simp only [submitAccess]
        apply kept <;> simp [Agent.hasAborted]
      · simp only [submitAccess]
        exact returned

theorem Good.completes {system : System} (good : Good system) {pc : CompletePc}
    (completing : system.agent = .completing pc) {answers : Answers} {next : System}
    (accessed : system.access answers = some next) : Good next := by
  have flag : system.agent.hasAborted = false := by rw [completing]; rfl
  have kept : ∀ agent : Agent, agent.hasAborted = false → Stands agent system.req.state →
      Good { system with agent := agent } := by
    intro agent noFlag stands
    exact good.keeps rfl (fun _ => rfl) (noFlag.trans flag.symm) stands
  simp only [System.access, completing, Option.some.injEq] at accessed
  subst accessed
  cases pc with
  | wait =>
      simp only [completeAccess]
      split_ifs with committed
      · apply kept _ rfl
        constructor <;> simp [committed]
      · apply kept _ rfl
        apply Stands.free <;> simp
  | loadState =>
      have committed := good.1.completing completing
      simp only [completeAccess]
      split
      · rename_i success isSuccess
        apply kept _ rfl
        constructor
        · simp
        · simp
        · intro result same
          cases same
          refine ⟨committed, ?_⟩
          rw [← @completion_eq_true _ system.req.allowTxnTargetOnCpu answers.online, isSuccess,
            Option.some.injEq]
        · simp
      · apply kept _ rfl
        apply Stands.free <;> simp

/-! ## The kernel -/

theorem Good.claim {system : System} (good : Good system)
    (isReady : system.req.state = State.ready) {cpu : Int} (isCpu : isClaimed cpu) :
    Good { system with
      req := { system.req with state := cpu }
      claimed := true
      opened := system.opened.map fun opened => { opened with claims := opened.claims + 1 } } := by
  obtain ⟨consistent, recorded⟩ := good
  have pending : ¬isCommitted system.req.state := by
    rw [isReady]
    decide
  have pendingCpu : ¬isCommitted cpu := not_lt.mpr isCpu.1
  have notReady : cpu ≠ State.ready := by
    intro same
    rw [same] at isCpu
    exact absurd isCpu (by decide)
  have notAborted : system.req.state ≠ State.aborted := by
    rw [isReady]
    exact aborted_facts.1.symm
  have noFlag : system.agent.hasAborted = false := by
    by_contra flag
    exact notAborted (consistent.aborting (Bool.eq_true_of_not_eq_false flag))
  have cpuNotAborted : cpu ≠ State.aborted := by
    intro same
    exact pendingCpu (same ▸ aborted_facts.2)
  constructor
  · constructor
    · exact .inr (.inr ⟨isCpu, rfl⟩)
    · intro options pc opening stores
      exact absurd (consistent.filling options pc opening stores) pending
    · intro flag
      cases noFlag.symm.trans flag
    · intro completing
      exact absurd (consistent.completing completing) pending
    · intro result completed
      exact absurd (consistent.completed result completed).1 pending
    · intro aborted
      exact absurd (consistent.aborted aborted) notAborted
    · intro unopened
      exact absurd (consistent.unopened (Option.map_eq_none_iff.mp unopened)) pending
  · intro opened isOpened
    obtain ⟨before, isBefore, rfl⟩ := Option.map_eq_some_iff.mp isOpened
    have record := recorded before isBefore
    obtain ⟨_, _, aborts⟩ := record.pending pending
    constructor
    · exact fun _ => record.pending pending
    · intro same
      exact absurd same notReady
    · exact fun _ => Nat.succ_pos _
    · intro committed
      exact absurd committed pendingCpu
    · simp [noFlag, cpuNotAborted, aborts]

theorem Good.commit {system : System} (good : Good system) (claimed : system.claimed = true)
    {result : Int} (committed : isCommitted result) :
    Good { system with
      req := { system.req with state := result }
      claimed := false
      opened := system.store { system.req with state := result } } := by
  obtain ⟨consistent, recorded⟩ := good
  have isCpu : isClaimed system.req.state := by
    rcases consistent.meaning with ⟨_, unclaimed⟩ | ⟨_, unclaimed⟩ | ⟨isCpu, _⟩
    · cases claimed.symm.trans unclaimed
    · cases claimed.symm.trans unclaimed
    · exact isCpu
  have pending : ¬isCommitted system.req.state := not_lt.mpr isCpu.1
  have wasNotAborted : system.req.state ≠ State.aborted := by
    intro same
    exact pending (same ▸ aborted_facts.2)
  have noFlag : system.agent.hasAborted = false := by
    by_contra flag
    exact wasNotAborted (consistent.aborting (Bool.eq_true_of_not_eq_false flag))
  have noted : system.store { system.req with state := result } =
      system.opened.map fun opened => { opened with negatives := result :: opened.negatives } := by
    apply if_pos
    refine ⟨fun same => ?_, committed⟩
    exact pending (same ▸ committed)
  constructor
  · constructor
    · exact .inl ⟨committed, rfl⟩
    · exact fun _ _ _ _ => committed
    · intro flag
      cases noFlag.symm.trans flag
    · exact fun _ => committed
    · intro last completed
      exact absurd (consistent.completed last completed).1 pending
    · intro aborted
      exact absurd (consistent.aborted aborted) wasNotAborted
    · exact fun _ => committed
  · intro opened isOpened
    dsimp only at isOpened
    rw [noted, Option.map_eq_some_iff] at isOpened
    obtain ⟨before, isBefore, rfl⟩ := isOpened
    have record := recorded before isBefore
    have wasClaimed : before.claims ≠ 0 := Nat.ne_of_gt (record.claimed isCpu)
    obtain ⟨negatives, _, aborts⟩ := record.pending pending
    constructor
    · intro pending'
      exact absurd committed pending'
    · intro same
      have same : result = State.ready := same
      rw [same] at committed
      exact absurd committed (by decide)
    · intro resultIsCpu
      exact absurd committed (not_lt.mpr resultIsCpu.1)
    · intro _
      simp [negatives]
    · simp [noFlag, wasClaimed, aborts]

theorem Good.perform {system next : System} {action : Action} (good : Good system)
    (performed : system.perform action = some next) : Good next := by
  cases action with
  | call call =>
      cases isAgent : system.agent with
      | idle last =>
          simp only [System.perform, isAgent, Option.some.injEq] at performed
          subst performed
          exact good.call isAgent call
      | _ => simp [System.perform, isAgent] at performed
  | access answers =>
      cases isAgent : system.agent with
      | idle last => simp [System.perform, System.access, isAgent] at performed
      | opening options pc => exact good.opens isAgent performed
      | aborting pc => exact good.aborts isAgent performed
      | submitting pc thenComplete => exact good.submits isAgent performed
      | completing pc => exact good.completes isAgent performed
      | dead => simp [System.perform, System.access, isAgent] at performed
  | claim cpu =>
      simp only [System.perform, Option.ite_none_right_eq_some, Option.some.injEq] at performed
      obtain ⟨⟨isReady, isCpu⟩, rfl⟩ := performed
      exact good.claim isReady isCpu
  | commit result =>
      simp only [System.perform, Option.ite_none_right_eq_some, Option.some.injEq] at performed
      obtain ⟨⟨claimed, committed⟩, rfl⟩ := performed
      exact good.commit claimed committed

theorem reachable_good {system : System} (reachable : lifeCycles.Reachable system) :
    Good system := by
  apply reachable.invariant Good
  · intro first initial
    exact System.Initial.good initial
  · intro before action after good moved
    exact good.perform moved

/-- While the transaction is ready or claimed, no step writes to its fields, and
only an `Open` that takes ownership writes to the owner. -/
theorem Good.untouched {system next : System} {action : Action} (good : Good system)
    (performed : system.perform action = some next) (pending : ¬isCommitted system.req.state) :
    next.req.fields = system.req.fields ∧
      (next.req.syncGroupOwner = system.req.syncGroupOwner ∨
        ∃ options, system.agent = .opening options .takeOwnership) := by
  cases action with
  | call call =>
      cases isAgent : system.agent <;> simp [System.perform, isAgent] at performed
      subst performed
      exact ⟨rfl, .inl rfl⟩
  | claim cpu =>
      simp only [System.perform, Option.ite_none_right_eq_some, Option.some.injEq] at performed
      obtain ⟨_, rfl⟩ := performed
      exact ⟨rfl, .inl rfl⟩
  | commit result =>
      simp only [System.perform, Option.ite_none_right_eq_some, Option.some.injEq] at performed
      obtain ⟨_, rfl⟩ := performed
      exact ⟨rfl, .inl rfl⟩
  | access answers =>
      simp only [System.perform, System.access] at performed
      cases isAgent : system.agent with
      | idle last => simp [isAgent] at performed
      | dead => simp [isAgent] at performed
      | submitting pc thenComplete =>
          simp only [isAgent, Option.some.injEq] at performed
          subst performed
          cases submitAccess system.req answers.committed pc <;> exact ⟨rfl, .inl rfl⟩
      | completing pc =>
          simp only [isAgent, Option.some.injEq] at performed
          subst performed
          cases completeAccess system.req answers.online pc <;> exact ⟨rfl, .inl rfl⟩
      | aborting pc =>
          simp only [isAgent, Option.some.injEq] at performed
          subst performed
          cases pc with
          | release =>
              have flag : system.agent.hasAborted = true := by rw [isAgent]; rfl
              have isAborted := good.1.aborting flag
              exact absurd (isAborted ▸ aborted_facts.2) pending
          | _ =>
              simp only [abortAccess]
              split_ifs <;> exact ⟨rfl, .inl rfl⟩
      | opening options pc =>
          simp only [isAgent, Option.some.injEq] at performed
          subst performed
          have unfilled : pc.stores = false := by
            by_contra stores
            exact pending (good.1.filling options pc isAgent (Bool.eq_true_of_not_eq_false stores))
          cases pc with
          | takeOwnership =>
              refine ⟨?_, .inr ⟨options, rfl⟩⟩
              simp only [openAccess]
              split_ifs <;> rfl
          | getOwner | checkOwned | checkNotOwned | checkCommitted =>
              simp only [openAccess]
              split_ifs <;> exact ⟨rfl, .inl rfl⟩
          | _ => cases unfilled

/-- The life of a transaction. While the transaction is ready or claimed its fields
stay as `Open` left them, and the owner is written only by an `Open` that takes
ownership before it checks the state. Each opened transaction reaches one negative
state before the next one can be opened. Exactly one call of `Abort` has returned
true for it if that state is `GHOST_TXN_ABORTED` and the kernel never claimed it,
and otherwise none has. `CompleteRunRequest` returns true if and only if it is
`GHOST_TXN_COMPLETE`. -/
theorem txn_life_cycle (system : System) (reachable : lifeCycles.Reachable system) :
    (∀ action next, system.perform action = some next → ¬isCommitted system.req.state →
      next.req.fields = system.req.fields ∧
        (next.req.syncGroupOwner = system.req.syncGroupOwner ∨
          ∃ options, system.agent = .opening options .takeOwnership)) ∧
    (∀ opened, system.opened = some opened →
      (¬isCommitted system.req.state →
        opened.negatives = [] ∧ opened.fields = system.req.fields) ∧
      (isCommitted system.req.state → opened.negatives = [system.req.state])) ∧
    (∀ options, system.agent = .opening options .storeReady → isCommitted system.req.state) ∧
    (∀ opened last, system.opened = some opened → system.agent = .idle last →
      opened.aborts ≤ 1 ∧
      (opened.aborts = 1 ↔ system.req.state = State.aborted ∧ opened.claims = 0)) ∧
    (system.agent = .idle (.aborted true) → system.req.state = State.aborted) ∧
    ∀ result, system.agent = .idle (.completed result) →
      isCommitted system.req.state ∧ (result = true ↔ system.req.state = State.complete) := by
  have good := reachable_good reachable
  have consistent := good.1
  have recorded := good.2
  refine ⟨fun action next => good.untouched, ?_, ?_, ?_, consistent.aborted,
    consistent.completed⟩
  · intro opened isOpened
    have record := recorded opened isOpened
    refine ⟨fun pending => ?_, record.committed⟩
    exact ⟨(record.pending pending).1, (record.pending pending).2.1⟩
  · intro options opening
    exact consistent.filling options .storeReady opening rfl
  · intro opened last isOpened idle
    have record := recorded opened isOpened
    have aborts := record.aborts
    rw [idle] at aborts
    simp only [Agent.hasAborted, Bool.false_eq_true, if_false, add_zero] at aborts
    constructor
    · rw [aborts]
      split <;> omega
    · rw [aborts]
      simp

/-! ## Runs -/

def committedSystem : System where
  req := ⟨State.complete, ⟨0, 0, 0, 0, 0⟩, kSyncGroupNotOwned, false⟩
  agent := .idle .nothing
  claimed := false
  opened := none

theorem committedSystem_initial : committedSystem.Initial := ⟨by decide, rfl, rfl, rfl⟩

def accesses (n : Nat) : List Action := List.replicate n (.access ⟨false, true, true⟩)

def replay (actions : List Action) : System :=
  (actions.foldlM System.perform committedSystem).getD committedSystem

theorem replay_reachable {actions : List Action}
    (possible : actions.foldlM System.perform committedSystem = some (replay actions)) :
    lifeCycles.Reachable (replay actions) :=
  ⟨committedSystem, actions, committedSystem_initial,
    Machine.Run.of_foldlM_some (fun _ _ _ performed => performed) possible⟩

/-- `Open` and `Abort`. -/
def openAndAbort : List Action :=
  .call (.open_ {}) :: accesses 9 ++ .call .abort :: accesses 3

/-- The kernel claims the transaction and reports `GHOST_TXN_ABORTED`. -/
def openAndClaim : List Action :=
  .call (.open_ {}) :: accesses 9 ++ [.claim 0, .commit State.aborted]

/-- A call of `Abort` has returned true for the transaction that the agent aborts, and
none for the one that the kernel claims and reports as aborted. -/
theorem txn_life_cycle_aborted :
    (replay openAndAbort).agent = .idle (.aborted true) ∧
      (replay openAndAbort).req.state = State.aborted ∧
      ∃ opened, (replay openAndClaim).opened = some opened ∧
        (replay openAndClaim).req.state = State.aborted ∧ opened.claims = 1 ∧
        opened.aborts ≠ 1 := by
  have aborted := txn_life_cycle (replay openAndAbort) (replay_reachable rfl)
  have claimed := txn_life_cycle (replay openAndClaim) (replay_reachable rfl)
  refine ⟨rfl, aborted.2.2.2.2.1 rfl, ⟨⟨0, 0, 0, 0, 0⟩, [State.aborted], 1, 0⟩, rfl, rfl, rfl, ?_⟩
  intro once
  have unclaimed := ((claimed.2.2.2.1 _ .nothing rfl rfl).2.mp once).2
  cases unclaimed

/-- `Open` without an owner, and again with one, up to its CAS. -/
def openTwice : List Action :=
  .call (.open_ {}) :: accesses 9 ++ .call (.open_ { syncGroupOwner := 5 }) :: accesses 1

/-- Three ways in which more may happen: the second `Open` takes ownership of a
transaction that is ready, a second `Abort` of an aborted transaction returns false,
and the result of a kernel may be `GHOST_TXN_ABORTED`. -/
theorem txn_life_cycle_exceptions :
    (lifeCycles.Reachable (replay openTwice) ∧
      lifeCycles.step (replay openTwice) (.access ⟨false, true, true⟩)
        (replay (openTwice ++ accesses 1)) ∧
      (replay openTwice).req.state = State.ready ∧
      (replay (openTwice ++ accesses 1)).req.state = State.ready ∧
      (replay openTwice).req.syncGroupOwner = -1 ∧
      (replay (openTwice ++ accesses 1)).req.syncGroupOwner = 5) ∧
    (lifeCycles.Reachable (replay (openAndAbort ++ .call .abort :: accesses 1)) ∧
      (replay (openAndAbort ++ .call .abort :: accesses 1)).req.state = State.aborted ∧
      (replay (openAndAbort ++ .call .abort :: accesses 1)).agent = .idle (.aborted false)) ∧
    lifeCycles.Reachable (replay openAndClaim) ∧
      (replay openAndClaim).req.state = State.aborted ∧
      (replay openAndClaim).agent = .idle .nothing := by
  refine ⟨⟨replay_reachable rfl, rfl, rfl, rfl, rfl, rfl⟩, ⟨replay_reachable rfl, rfl, rfl⟩,
    replay_reachable rfl, rfl, rfl⟩

end Ghost.Txn
