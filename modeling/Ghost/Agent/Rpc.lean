import Ghost.Agent.Notification
import Ghost.Lib.Machine

/-!
# Remote procedure calls to the agent process

`Rpc`, `RpcWithResponse` and the `rpc_handler` thread of `lib/agent.h`, access by
access to the shared blob. The callers are serialized by `rpc_mutex_`, so at most one
of them is inside.
-/

set_option autoImplicit false

namespace Ghost.Agent

open Lib

structure AgentRpcResponse (Buffer : Type) where
  responseCode : Int64
  buffer : Buffer

/-- One call, of `Rpc` or of `RpcWithResponse`. -/
structure Call (Thread Args : Type) where
  thread : Thread
  withResponse : Bool
  req : UInt64
  args : Args

/-- What a call returns. -/
inductive Result (Buffer : Type) where
  | code (responseCode : Int64)
  | response (res : AgentRpcResponse Buffer)

def Call.result {Thread Args Buffer : Type} (call : Call Thread Args)
    (res : AgentRpcResponse Buffer) : Result Buffer :=
  if call.withResponse then .response res else .code res.responseCode

/-- One finished run of `RpcHandler`. -/
structure Handled (Args Buffer : Type) where
  req : Int64
  args : Args
  res : AgentRpcResponse Buffer

/-- Where the caller inside the mutex stands. -/
inductive CallerPc where
  | storeReq
  | storeArgs
  | notifying (pc : NotifyPc)
  | waiting (pc : WaitPc)
  | reset
  | copy
  deriving DecidableEq

inductive HandlerPc where
  | waiting (pc : WaitPc)
  | reset
  | isOnline
  | resetResponse
  | loadReq
  /-- In `RpcHandler`, which has references to the arguments and the response. -/
  | running (req : Int64)
  | offline
  | notifying (pc : NotifyPc)
  deriving DecidableEq

structure Inside (Thread Args : Type) where
  call : Call Thread Args
  pc : CallerPc

/-- The shared blob and the threads. The three lists record the calls in the order in
which they take the mutex, are handled, and return. -/
structure System (Thread Args Buffer : Type) where
  rpcPending : NotifiedState
  rpcDone : NotifiedState
  rpcReq : Int64
  rpcArgs : Args
  rpcRes : AgentRpcResponse Buffer
  inside : Option (Inside Thread Args)
  handler : HandlerPc
  entered : List (Call Thread Args)
  handled : List (Handled Args Buffer)
  returned : List (Call Thread Args × Result Buffer)

inductive Party where
  | caller
  | handler
  deriving DecidableEq

inductive Action (Thread Args Buffer : Type) where
  | enter (call : Call Thread Args)
  | caller (spurious : Bool)
  | handler (spurious : Bool)
  | isOnline (online : Bool)
  /-- A store of `RpcHandler` to the response. -/
  | respond (res : AgentRpcResponse Buffer)
  | finish
  /-- A sleeper wakes up on its own: its system call returns zero or `EINTR`. -/
  | rouse (party : Party) (interrupted : Bool)

section Steps

variable {Thread Args Buffer : Type}

/-- `Futex::Wake` on `rpc_pending_`. -/
def HandlerPc.woken : HandlerPc → HandlerPc
  | .waiting .asleep => .waiting .woken
  | pc => pc

/-- `Futex::Wake` on `rpc_done_`. -/
def CallerPc.woken : CallerPc → CallerPc
  | .waiting .asleep => .waiting .woken
  | pc => pc

def Inside.wake (inside : Inside Thread Args) : Inside Thread Args :=
  { inside with pc := inside.pc.woken }

def CallerPc.afterNotify : NotifyPc → CallerPc
  | .returned => .waiting .load
  | pc => .notifying pc

def CallerPc.afterWait : WaitPc → CallerPc
  | .returned => .reset
  | pc => .waiting pc

def HandlerPc.afterNotify : NotifyPc → HandlerPc
  | .returned => .waiting .load
  | pc => .notifying pc

def HandlerPc.afterWait : WaitPc → HandlerPc
  | .returned => .reset
  | pc => .waiting pc

def System.at (system : System Thread Args Buffer) (call : Call Thread Args) (pc : CallerPc) :
    System Thread Args Buffer :=
  { system with inside := some ⟨call, pc⟩ }

/-- The next access of the caller. With the last one it has copied the result and
releases the mutex. -/
def System.callerAccess (system : System Thread Args Buffer) (spurious : Bool)
    (call : Call Thread Args) : CallerPc → Option (System Thread Args Buffer)
  | .storeReq => some { system.at call .storeArgs with rpcReq := call.req.toInt64 }
  | .storeArgs => some { system.at call (.notifying .load) with rpcArgs := call.args }
  | .notifying .wake =>
      some { system.at call (.waiting .load) with handler := system.handler.woken }
  | .notifying .failed => none
  | .notifying pc =>
      some { system.at call (.afterNotify (notifyAccess system.rpcPending spurious pc).2) with
        rpcPending := (notifyAccess system.rpcPending spurious pc).1 }
  | .waiting pc =>
      (waitAccess system.rpcDone spurious pc).map fun outcome =>
        { system.at call (.afterWait outcome.2) with rpcDone := outcome.1 }
  | .reset => some { system.at call .copy with rpcDone := .noWaiter }
  | .copy =>
      some { system with
        inside := none
        returned := system.returned ++ [(call, call.result system.rpcRes)] }

/-- The next access of the handler thread, inside `RpcHandler` apart. An agent that is
not online answers -ENODEV. -/
def System.handlerAccess (system : System Thread Args Buffer) (spurious : Bool)
    (reset : AgentRpcResponse Buffer) : HandlerPc → Option (System Thread Args Buffer)
  | .waiting pc =>
      (waitAccess system.rpcPending spurious pc).map fun outcome =>
        { system with rpcPending := outcome.1, handler := .afterWait outcome.2 }
  | .reset => some { system with rpcPending := .noWaiter, handler := .isOnline }
  | .resetResponse => some { system with rpcRes := reset, handler := .loadReq }
  | .loadReq => some { system with handler := .running system.rpcReq }
  | .offline =>
      some { system with
        rpcRes := { system.rpcRes with responseCode := -19 }, handler := .notifying .load }
  | .notifying .wake =>
      some { system with inside := system.inside.map Inside.wake, handler := .waiting .load }
  | .notifying .failed => none
  | .notifying pc =>
      some { system with
        rpcDone := (notifyAccess system.rpcDone spurious pc).1
        handler := .afterNotify (notifyAccess system.rpcDone spurious pc).2 }
  | .isOnline => none
  | .running _ => none

/-- Where a sleeper goes on that nobody has woken. -/
def WaitPc.roused (interrupted : Bool) : WaitPc → Option WaitPc
  | .asleep => some (if interrupted then .futex else .woken)
  | _ => none

def System.perform (empty : Buffer) (system : System Thread Args Buffer) :
    Action Thread Args Buffer → Option (System Thread Args Buffer)
  | .enter call =>
      match system.inside with
      | none => some { system.at call .storeReq with entered := system.entered ++ [call] }
      | some _ => none
  | .caller spurious =>
      system.inside.bind fun inside => system.callerAccess spurious inside.call inside.pc
  | .handler spurious => system.handlerAccess spurious ⟨-1, empty⟩ system.handler
  | .isOnline online =>
      match system.handler with
      | .isOnline => some { system with handler := if online then .resetResponse else .offline }
      | _ => none
  | .respond res =>
      match system.handler with
      | .running _ => some { system with rpcRes := res }
      | _ => none
  | .finish =>
      match system.handler with
      | .running req =>
          some { system with
            handler := .notifying .load
            handled := system.handled ++ [⟨req, system.rpcArgs, system.rpcRes⟩] }
      | _ => none
  | .rouse .caller interrupted =>
      match system.inside with
      | some ⟨call, .waiting pc⟩ =>
          (pc.roused interrupted).map fun pc => system.at call (.waiting pc)
      | _ => none
  | .rouse .handler interrupted =>
      match system.handler with
      | .waiting pc => (pc.roused interrupted).map fun pc => { system with handler := .waiting pc }
      | _ => none

end Steps

section Machine

variable {Thread Args Buffer : Type}

def System.Initial (system : System Thread Args Buffer) : Prop :=
  system.rpcPending = .noWaiter ∧ system.rpcDone = .noWaiter ∧ system.inside = none ∧
    system.handler = .waiting .load ∧ system.entered = [] ∧ system.handled = [] ∧
    system.returned = []

/-- All interleavings of the callers and the handler. -/
def rpcs (empty : Buffer) :
    Machine (System Thread Args Buffer) (Action Thread Args Buffer) where
  initial := System.Initial
  step system action next := system.perform empty action = some next

/-- The enclave stays online. -/
def onlineRpcs (empty : Buffer) :
    Machine (System Thread Args Buffer) (Action Thread Args Buffer) :=
  (rpcs empty).restrict fun _ action => action ≠ .isOnline false

end Machine

end Ghost.Agent
