import Ghost.Lib.Machine

/-!
# Run requests

`LocalRunRequest` of `lib/enclave.h` and `lib/enclave.cc`, access by access: `Open`,
`Abort`, and of the enclave `SubmitRunRequest`, `CompleteRunRequest` and
`CommitRunRequest`. A transaction is shared with the kernel, so between two accesses
its state may change.
-/

set_option autoImplicit false

namespace Ghost.Txn

/-! ## States -/

def MAX_CPUS : Int := 512

def INT_MIN : Int := -2 ^ 31

namespace State

def complete : Int := INT_MIN
def aborted : Int := INT_MIN + 1
def targetOncpu : Int := INT_MIN + 2
def targetStale : Int := INT_MIN + 3
def targetNotFound : Int := INT_MIN + 4
def agentStale : Int := INT_MIN + 6
def cpuUnavail : Int := INT_MIN + 8
def noAgent : Int := INT_MIN + 13
def poisoned : Int := INT_MIN + 15
def ready : Int := 2 ^ 31 - 1

end State

/-- `is_open`. -/
def isOpen (state : Int) : Prop := state = State.ready

def isClaimed (state : Int) : Prop := 0 ≤ state ∧ state < MAX_CPUS

def isCommitted (state : Int) : Prop := state < 0

instance : DecidablePred isOpen := fun _ => inferInstanceAs (Decidable (_ = _))

instance : DecidablePred isClaimed := fun _ => inferInstanceAs (Decidable (_ ∧ _))

instance : DecidablePred isCommitted := fun _ => inferInstanceAs (Decidable (_ < _))

/-! ## Requests -/

def kSyncGroupNotOwned : Int := -1

structure RunRequestOptions where
  target : Int := 0
  targetBarrier : Nat := 0
  agentBarrier : Nat := 0
  commitFlags : Int := 0
  runFlags : Int := 0
  syncGroupOwner : Int := kSyncGroupNotOwned
  allowTxnTargetOnCpu : Bool := false

/-- The fields of a transaction that `Open` fills in. -/
structure Fields where
  agentBarrier : Nat
  gtid : Int
  taskBarrier : Nat
  runFlags : Int
  commitFlags : Int
  deriving DecidableEq

/-- A transaction and the member of its request. -/
structure RunRequest where
  state : Int
  fields : Fields
  syncGroupOwner : Int
  allowTxnTargetOnCpu : Bool

def RunRequest.syncGroupOwned (req : RunRequest) : Prop := req.syncGroupOwner ≠ kSyncGroupNotOwned

instance : DecidablePred RunRequest.syncGroupOwned := fun _ => inferInstanceAs (Decidable (_ ≠ _))

/-- Where a call stands after an access. -/
inductive Goes (Pc Result : Type) where
  | on (pc : Pc)
  | returns (result : Result)
  /-- A `CHECK` fails. -/
  | fails
  /-- `GHOST_ERROR`. -/
  | errors
  deriving DecidableEq

/-- What follows an access, by where it leads. -/
def Goes.elim {Pc Result Next : Type} (on : Pc → Next) (returns : Result → Next)
    (fails errors : Next) : Goes Pc Result → Next
  | .on pc => on pc
  | .returns result => returns result
  | .fails => fails
  | .errors => errors

/-! ## Open -/

/-- The accesses of `Open`, by the one that comes next. -/
inductive OpenPc where
  | getOwner
  | takeOwnership
  | checkOwned
  | checkNotOwned
  | checkCommitted
  | storeAgentBarrier
  | storeGtid
  | storeTaskBarrier
  | storeRunFlags
  | storeCommitFlags
  | storeAllowTxnTargetOnCpu
  | checkAllowed
  | storeReady
  deriving DecidableEq

def RunRequestOptions.begin (options : RunRequestOptions) : OpenPc :=
  if options.syncGroupOwner ≠ kSyncGroupNotOwned then .getOwner else .checkNotOwned

def RunRequest.store (req : RunRequest) (change : Fields → Fields) : RunRequest :=
  { req with fields := change req.fields }

/-- One access of `Open`. The CAS of `sync_group_take_ownership` may fail spuriously.
`run_flags` is a `uint16_t` and `commit_flags` a `uint8_t`. -/
def openAccess (options : RunRequestOptions) (req : RunRequest) (spurious : Bool) :
    OpenPc → RunRequest × Goes OpenPc Unit
  | .getOwner =>
      if req.syncGroupOwner = kSyncGroupNotOwned then (req, .on .takeOwnership)
      else if req.syncGroupOwner ≠ options.syncGroupOwner then (req, .on .getOwner)
      else (req, .on .checkOwned)
  | .takeOwnership =>
      if req.syncGroupOwner = kSyncGroupNotOwned ∧ spurious = false then
        ({ req with syncGroupOwner := options.syncGroupOwner }, .on .checkOwned)
      else (req, .on .getOwner)
  | .checkOwned => (req, if req.syncGroupOwned then .on .checkCommitted else .fails)
  | .checkNotOwned => (req, if req.syncGroupOwned then .fails else .on .checkCommitted)
  | .checkCommitted => (req, if isCommitted req.state then .on .storeAgentBarrier else .fails)
  | .storeAgentBarrier =>
      (req.store fun fields => { fields with agentBarrier := options.agentBarrier }, .on .storeGtid)
  | .storeGtid =>
      (req.store fun fields => { fields with gtid := options.target }, .on .storeTaskBarrier)
  | .storeTaskBarrier =>
      (req.store fun fields => { fields with taskBarrier := options.targetBarrier },
        .on .storeRunFlags)
  | .storeRunFlags =>
      (req.store fun fields => { fields with runFlags := options.runFlags % 2 ^ 16 },
        .on .storeCommitFlags)
  | .storeCommitFlags =>
      (req.store fun fields => { fields with commitFlags := options.commitFlags % 2 ^ 8 },
        .on .storeAllowTxnTargetOnCpu)
  | .storeAllowTxnTargetOnCpu =>
      ({ req with allowTxnTargetOnCpu := options.allowTxnTargetOnCpu },
        .on (if options.allowTxnTargetOnCpu then .checkAllowed else .storeReady))
  | .checkAllowed => (req, if req.syncGroupOwned then .on .storeReady else .fails)
  | .storeReady => ({ req with state := State.ready }, .returns ())

/-! ## Abort -/

inductive AbortPc where
  | loadState
  | exchange
  | getOwner
  | release
  deriving DecidableEq

def abortAccess (req : RunRequest) : AbortPc → RunRequest × Goes AbortPc Bool
  | .loadState => (req, if req.state = State.ready then .on .exchange else .returns false)
  | .exchange =>
      if req.state = State.ready then ({ req with state := State.aborted }, .on .getOwner)
      else (req, .returns false)
  | .getOwner => (req, if req.syncGroupOwned then .on .release else .returns true)
  | .release => ({ req with syncGroupOwner := kSyncGroupNotOwned }, .returns true)

/-! ## Submit and complete -/

inductive SubmitPc where
  | loadState
  /-- `GhostHelper()->Commit`. -/
  | commit
  deriving DecidableEq

def submitAccess (req : RunRequest) (committed : Bool) : SubmitPc → Goes SubmitPc Unit
  | .loadState => if isOpen req.state then .on .commit else .returns ()
  | .commit => if committed then .returns () else .fails

inductive CompletePc where
  | wait
  | loadState
  deriving DecidableEq

/-- What `CompleteRunRequest` makes of a state, or nothing if it is unexpected. -/
def completion (state : Int) (allowTxnTargetOnCpu online : Bool) : Option Bool :=
  if state = State.complete then some true
  else if state = State.targetNotFound ∨ state = State.targetStale ∨ state = State.agentStale then
    some false
  else if state = State.noAgent then
    if online then none else some false
  else if state = State.cpuUnavail ∨ state = State.poisoned ∨ state = State.aborted then some false
  else if state = State.targetOncpu ∧ allowTxnTargetOnCpu = true then some false
  else none

def completeAccess (req : RunRequest) (online : Bool) : CompletePc → Goes CompletePc Bool
  | .wait => .on (if isCommitted req.state then .loadState else .wait)
  | .loadState =>
      match completion req.state req.allowTxnTargetOnCpu online with
      | some success => .returns success
      | none => .errors

theorem completion_eq_true {state : Int} {allowTxnTargetOnCpu online : Bool} :
    completion state allowTxnTargetOnCpu online = some true ↔ state = State.complete := by
  unfold completion
  split
  · simp [*]
  · rename_i other
    simp only [other, iff_false]
    split_ifs <;> simp

end Ghost.Txn
