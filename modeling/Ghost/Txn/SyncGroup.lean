import Ghost.Txn.RunRequest
import Mathlib.Data.List.Nodup
import Mathlib.Logic.Function.Basic

/-!
# Sync groups

Any number of agents open the requests of lists of CPUs with their ids as owners and
commit them as groups: `CommitSyncRequests`, `SubmitSyncRequests` and
`ReleaseSyncRequests` of `lib/enclave.cc`, access by access. The kernel commits the
requests of a group one by one and, if all of it commits, releases them.
-/

set_option autoImplicit false

namespace Ghost.Txn.SyncGroup

open Lib

inductive ReleasePc where
  | checkCommitted
  | checkOwned
  | store
  deriving DecidableEq

/-- Where an agent stands. -/
inductive Place (Cpu : Type) where
  /-- Between two groups, with the CPUs of the last one. -/
  | idle (last : List Cpu)
  | between (opened todo : List Cpu)
  | opening (opened : List Cpu) (cpu : Cpu) (todo : List Cpu) (options : RunRequestOptions)
      (pc : OpenPc)
  /-- In a `SyncCommit` that is going to succeed. -/
  | committing (cpus uncommitted unreleased : List Cpu)
  /-- In a `SyncCommit` that is going to fail. -/
  | failing (cpus uncommitted : List Cpu) (failed : Bool)
  /-- The loop of `CompleteRunRequest` calls. -/
  | completing (cpus todo : List Cpu) (pc : CompletePc) (failureDetected : Bool)
  | releasing (cpus todo : List Cpu) (pc : ReleasePc)
  /-- A `CHECK` has failed. -/
  | dead
  /-- `GHOST_ERROR` on a state that `CompleteRunRequest` does not expect. -/
  | errored (cpus : List Cpu)

inductive Action (Cpu : Type) where
  | start (cpus : List Cpu)
  | open_ (options : RunRequestOptions)
  | access (spurious online : Bool)
  | syncCommit (success : Bool)
  | claim (cpu : Cpu) (number : Int)
  | commit (cpu : Cpu) (result : Int)
  | release (cpu : Cpu)
  | return_

structure System (Agent Cpu : Type) where
  reqs : Cpu → RunRequest
  places : Agent → Place Cpu

section Steps

variable {Cpu : Type} [DecidableEq Cpu]

/-- A store to one request, and where it leads. -/
structure Effect (Cpu : Type) where
  reqs : Cpu → RunRequest
  place : Place Cpu

def store (reqs : Cpu → RunRequest) (cpu : Cpu) (req : RunRequest) : Cpu → RunRequest :=
  Function.update reqs cpu req

/-- The next access of the agent's code. -/
def access (reqs : Cpu → RunRequest) (spurious online : Bool) :
    Place Cpu → Option (Effect Cpu)
  | .opening opened cpu todo options pc =>
      let outcome := openAccess options (reqs cpu) spurious pc
      some ⟨store reqs cpu outcome.1,
        outcome.2.elim (fun pc => .opening opened cpu todo options pc)
          (fun _ => .between (opened ++ [cpu]) todo) .dead .dead⟩
  | .completing cpus [] _ failureDetected =>
      some ⟨reqs, if failureDetected then .releasing cpus cpus .checkCommitted else .dead⟩
  | .completing cpus (cpu :: todo) pc failureDetected =>
      some ⟨reqs, (completeAccess (reqs cpu) online pc).elim
        (fun pc => .completing cpus (cpu :: todo) pc failureDetected)
        (fun success => .completing cpus todo .wait (failureDetected || !success))
        .dead (.errored cpus)⟩
  | .releasing cpus [] _ => some ⟨reqs, .idle cpus⟩
  | .releasing cpus (cpu :: todo) .checkCommitted =>
      some ⟨reqs, if isCommitted (reqs cpu).state then .releasing cpus (cpu :: todo) .checkOwned
        else .dead⟩
  | .releasing cpus (cpu :: todo) .checkOwned =>
      some ⟨reqs, if (reqs cpu).syncGroupOwned then .releasing cpus (cpu :: todo) .store
        else .dead⟩
  | .releasing cpus (cpu :: todo) .store =>
      some ⟨store reqs cpu { reqs cpu with syncGroupOwner := kSyncGroupNotOwned },
        .releasing cpus todo .checkCommitted⟩
  | _ => none

/-- The kernel in a `SyncCommit`. -/
def kernel (reqs : Cpu → RunRequest) : Place Cpu → Action Cpu → Option (Effect Cpu)
  | .committing cpus uncommitted unreleased, .claim cpu number =>
      if cpu ∈ uncommitted ∧ isClaimed number then
        some ⟨store reqs cpu { reqs cpu with state := number },
          .committing cpus uncommitted unreleased⟩
      else none
  | .committing cpus uncommitted unreleased, .commit cpu result =>
      if cpu ∈ uncommitted ∧ result = State.complete then
        some ⟨store reqs cpu { reqs cpu with state := result },
          .committing cpus (uncommitted.filter (· ≠ cpu)) unreleased⟩
      else none
  | .committing cpus uncommitted unreleased, .release cpu =>
      if cpu ∈ unreleased ∧ cpu ∉ uncommitted then
        some ⟨store reqs cpu { reqs cpu with syncGroupOwner := kSyncGroupNotOwned },
          .committing cpus uncommitted (unreleased.filter (· ≠ cpu))⟩
      else none
  | .committing cpus [] [], .return_ => some ⟨reqs, .idle cpus⟩
  | .failing cpus uncommitted failed, .claim cpu number =>
      if cpu ∈ uncommitted ∧ isClaimed number then
        some ⟨store reqs cpu { reqs cpu with state := number }, .failing cpus uncommitted failed⟩
      else none
  | .failing cpus uncommitted failed, .commit cpu result =>
      if cpu ∈ uncommitted ∧ isCommitted result then
        some ⟨store reqs cpu { reqs cpu with state := result },
          .failing cpus (uncommitted.filter (· ≠ cpu)) (failed || result ≠ State.complete)⟩
      else none
  | .failing cpus [] true, .return_ => some ⟨reqs, .completing cpus cpus .wait false⟩
  | _, _ => none

/-- One action of or for the agent with the given owner id. -/
def act (owner : Int) (reqs : Cpu → RunRequest) (place : Place Cpu) :
    Action Cpu → Option (Effect Cpu)
  | .start cpus =>
      match place with
      | .idle _ => if cpus.Nodup then some ⟨reqs, .between [] cpus⟩ else none
      | _ => none
  | .open_ options =>
      match place with
      | .between opened (cpu :: todo) =>
          if options.syncGroupOwner = owner then
            some ⟨reqs, .opening opened cpu todo options options.begin⟩
          else none
      | _ => none
  | .syncCommit success =>
      match place with
      | .between opened [] =>
          some ⟨reqs, if success then .committing opened opened opened
            else .failing opened opened false⟩
      | _ => none
  | .access spurious online => access reqs spurious online place
  | action => kernel reqs place action

end Steps

section Machine

variable {Agent Cpu : Type} [DecidableEq Agent] [DecidableEq Cpu]

def System.Initial (system : System Agent Cpu) : Prop :=
  (∀ cpu, isCommitted (system.reqs cpu).state ∧
    (system.reqs cpu).syncGroupOwner = kSyncGroupNotOwned) ∧
  ∀ agent, system.places agent = .idle []

/-- All interleavings of the agents and the kernel. -/
def syncGroups (owners : Agent → Int) :
    Machine (System Agent Cpu) (Agent × Action Cpu) where
  initial := System.Initial
  step system label next := ∃ effect,
    act (owners label.1) system.reqs (system.places label.1) label.2 = some effect ∧
    next = ⟨effect.reqs, Function.update system.places label.1 effect.place⟩

end Machine

end Ghost.Txn.SyncGroup
