import Ghost.Bpf.PntRingLayout

/-!
# What has happened on a ring

The transactions' claims, runs and reports agree with how far the transactions are.
-/

set_option autoImplicit false

namespace Ghost.Bpf.Pnt

open Lib Txn

namespace Shared

/-- The transaction's task was put on a CPU. -/
def Latched (shared : Shared) (idx : Nat) : Prop :=
  ∃ run ∈ shared.runs, run.idx = idx ∧ run.result = .ok

/-- The transactions that the agent was given back: `pnt_unschedule_ring_slot` returned true
or `pnt_ring_reap_errors` returned 1. -/
def reports (shared : Shared) : List Nat :=
  (shared.unscheduled.filter fun outcome => outcome.2).map (fun outcome => outcome.1) ++
    shared.errorsReaped

theorem mem_reports_of_unscheduled {shared : Shared} {idx : Nat}
    (returned : (idx, true) ∈ shared.unscheduled) : idx ∈ shared.reports := by
  apply List.mem_append_left
  exact List.mem_map.mpr ⟨(idx, true), List.mem_filter.mpr ⟨returned, rfl⟩, rfl⟩

end Shared

/-! ## Phases of a transaction -/

namespace Status

variable {Producer : Type}

/-- The producer has published it. -/
def started : Status Producer → Bool
  | .unborn => false
  | .filling _ _ => false
  | _ => true

def wasClaimed : Status Producer → Bool
  | .claimed _ => true
  | .ran _ _ => true
  | .finished _ => true
  | .reaped => true
  | _ => false

/-- What its run, if there was one, may have returned. -/
def Allows : Status Producer → RunResult → Prop
  | .ran _ returned, result => returned = result
  | .finished returned, result => returned = result
  | .reaped, _ => True
  | _, _ => False

def HasResult : Status Producer → RunResult → Prop
  | .ran _ returned, result => returned = result
  | .finished returned, result => returned = result
  | _, _ => False

/-- The agent has it back, or need not care for it any more. -/
def back : Status Producer → Bool
  | .aborted _ => true
  | .reaped => true
  | _ => false

section Next

variable {party : Party Producer} {status next : Status Producer}

theorem Next.started (moved : Next party status next) (started : status.started = true) :
    next.started = true := by
  cases moved <;> first | exact started | rfl

private theorem Next.wasClaimed (moved : Next party status next)
    (claimed : status.wasClaimed = true) :
    next.wasClaimed = true := by
  cases moved <;> first | exact claimed | rfl

private theorem Next.allows {result : RunResult} (moved : Next party status next)
    (allows : status.Allows result) : next.Allows result := by
  cases moved with
  | stay => exact allows
  | finish cpu returned => exact allows
  | reap returned => trivial
  | _ => exact allows.elim

private theorem Next.back (moved : Next party status next) (back : status.back = true) :
    next.back = true := by
  cases moved <;> first | exact back | rfl

theorem Next.update {statuses : Nat → Status Producer} {idx : Nat}
    (moved : Next party status next) (was : statuses idx = status) (other : Nat) :
    Next party (statuses other) (Function.update statuses idx next other) := by
  by_cases same : other = idx
  · rw [same, was, Function.update_self]
    exact moved
  · rw [Function.update_of_ne same]
    exact .stay _

private theorem filled_of_started (started : status.started = true) (kept : status.back = false) :
    status.filled = true := by
  cases status with
  | unborn => cases started
  | filling _ _ => cases started
  | reaped => cases kept
  | _ => rfl

end Next

end Status

/-! ## Logs -/

structure Logs {Producer : Type} (shared : Shared) (status : Nat → Status Producer) : Prop where
  published : ∀ idx ∈ shared.published, (status idx).started = true
  claimsOnce : (shared.claims.map fun claim => claim.1).Nodup
  claims : ∀ claim ∈ shared.claims, (status claim.1).wasClaimed = true
  runsOnce : (shared.runs.map fun run => run.idx).Nodup
  runs : ∀ run ∈ shared.runs, (status run.idx).Allows run.result
  /-- The kernel is given the transaction's own task. -/
  task : ∀ run ∈ shared.runs, ∃ task, shared.txns[run.idx]? = some task ∧
    run.gtid = task.gtid ∧ run.taskBarrier = task.taskBarrier
  result : ∀ idx result, (status idx).HasResult result →
    ∃ run ∈ shared.runs, run.idx = idx ∧ run.result = result
  reapings : ∀ idx, status idx = .reaped → idx ∈ shared.reapings
  tracked : ∀ idx, shared.tracking idx = .tracked → (status idx).started = true
  held : ∀ idx, shared.tracking idx ≠ .dropped → (status idx).back = false
  reports : ∀ idx ∈ shared.reports, shared.tracking idx = .dropped ∧
    (status idx).back = true ∧ ¬ shared.Latched idx
  reportsOnce : shared.reports.Nodup
  latched : ∀ idx, (idx, false) ∈ shared.unscheduled → shared.Latched idx

namespace Logs

variable {Producer : Type} {shared : Shared} {status : Nat → Status Producer} {idx : Nat}

section Reading

variable (logs : Logs shared status)
include logs

theorem filled_of_tracked (tracked : shared.tracking idx = .tracked) :
    (status idx).filled = true := by
  apply Status.filled_of_started (logs.tracked idx tracked)
  apply logs.held
  rw [tracked]
  exact nofun

theorem notMem_reports (tracked : shared.tracking idx = .tracked) : idx ∉ shared.reports := by
  intro reported
  rw [(logs.reports idx reported).1] at tracked
  cases tracked

theorem latched_of_finished (was : status idx = .finished .ok) : shared.Latched idx := by
  apply logs.result
  rw [was]
  rfl

theorem not_latched_of_finished {result : RunResult} (was : status idx = .finished result)
    (failed : result ≠ .ok) : ¬ shared.Latched idx := by
  intro latched
  obtain ⟨run, member, rfl, succeeded⟩ := latched
  have allowed := logs.runs run member
  rw [was, succeeded] at allowed
  exact failed allowed

theorem not_latched_of_ready {taker : Option Cpu} (was : status idx = .ready taker) :
    ¬ shared.Latched idx := by
  intro latched
  obtain ⟨run, member, rfl, _⟩ := latched
  have allowed := logs.runs run member
  rw [was] at allowed
  exact allowed

theorem notMem_runs {cpu : Cpu} (was : status idx = .claimed cpu) :
    idx ∉ shared.runs.map fun run => run.idx := by
  intro earlier
  obtain ⟨run, member, rfl⟩ := List.mem_map.mp earlier
  have allowed := logs.runs run member
  rw [was] at allowed
  exact allowed

theorem notMem_claims {taker : Option Cpu} (was : status idx = .ready taker) :
    idx ∉ shared.claims.map fun claim => claim.1 := by
  intro earlier
  obtain ⟨claim, member, rfl⟩ := List.mem_map.mp earlier
  have claimed := logs.claims claim member
  rw [was] at claimed
  cases claimed

end Reading

/-! ### A transaction moves on -/

/-- Moves that keep what a status says of the past; the obligations are what a new status
says on top. -/
theorem move {party : Party Producer} {old new : Status Producer} (logs : Logs shared status)
    (was : status idx = old) (moved : Status.Next party old new)
    (result : ∀ result, new.HasResult result →
      ∃ run ∈ shared.runs, run.idx = idx ∧ run.result = result)
    (reaped : new = .reaped → idx ∈ shared.reapings)
    (held : shared.tracking idx ≠ .dropped → new.back = false) :
    Logs shared (Function.update status idx new) := by
  have steps := moved.update was
  constructor
  · intro other member
    exact (steps other).started (logs.published other member)
  · exact logs.claimsOnce
  · intro claim member
    exact (steps claim.1).wasClaimed (logs.claims claim member)
  · exact logs.runsOnce
  · intro run member
    exact (steps run.idx).allows (logs.runs run member)
  · exact logs.task
  · intro other returned has
    by_cases same : other = idx
    · subst same
      rw [Function.update_self] at has
      exact result returned has
    · rw [Function.update_of_ne same] at has
      exact logs.result other returned has
  · intro other now
    by_cases same : other = idx
    · subst same
      rw [Function.update_self] at now
      exact reaped now
    · rw [Function.update_of_ne same] at now
      exact logs.reapings other now
  · intro other tracked
    exact (steps other).started (logs.tracked other tracked)
  · intro other kept
    by_cases same : other = idx
    · subst same
      rw [Function.update_self]
      exact held kept
    · rw [Function.update_of_ne same]
      exact logs.held other kept
  · intro other reported
    obtain ⟨dropped, back, never⟩ := logs.reports other reported
    exact ⟨dropped, (steps other).back back, never⟩
  · exact logs.reportsOnce
  · exact logs.latched

theorem quiet {party : Party Producer} {old new : Status Producer} (logs : Logs shared status)
    (was : status idx = old) (moved : Status.Next party old new)
    (silent : ∀ result, ¬ new.HasResult result) (kept : new.back = false) :
    Logs shared (Function.update status idx new) := by
  apply logs.move was moved
  · intro returned has
    exact absurd has (silent returned)
  · intro now
    rw [now] at kept
    cases kept
  · intro _
    exact kept

/-! ### The logs grow -/

theorem setSlot (logs : Logs shared status) (slotIdx : Nat) (slot : Slot) :
    Logs (shared.setSlot slotIdx slot) status :=
  { logs with }

theorem setIndexes (logs : Logs shared status) (prodIdx consIdx : Nat) (later : List Task) :
    Logs { shared with prodIdx := prodIdx, consIdx := consIdx, txns := shared.txns ++ later }
      status := by
  refine { logs with task := ?_ }
  intro run member
  obtain ⟨task, found, given⟩ := logs.task run member
  have bound := (List.getElem?_eq_some_iff.mp found).1
  exact ⟨task, by rw [List.getElem?_append_left bound, found], given⟩

theorem publish (logs : Logs shared status) (started : (status idx).started = true) :
    Logs { shared with published := idx :: shared.published } status := by
  refine { logs with published := ?_ }
  intro other member
  obtain rfl | earlier := List.mem_cons.mp member
  · exact started
  · exact logs.published other earlier

theorem claim {cpu : Cpu} (logs : Logs shared status)
    (first : idx ∉ shared.claims.map fun claim => claim.1)
    (claimed : (status idx).wasClaimed = true) :
    Logs { shared with claims := (idx, cpu) :: shared.claims } status := by
  refine { logs with claimsOnce := ?_, claims := ?_ }
  · exact List.nodup_cons.mpr ⟨first, logs.claimsOnce⟩
  · intro claim member
    obtain rfl | earlier := List.mem_cons.mp member
    · exact claimed
    · exact logs.claims claim earlier

private theorem reaping (logs : Logs shared status) :
    Logs { shared with reapings := idx :: shared.reapings } status := by
  refine { logs with reapings := ?_ }
  intro other was
  exact List.mem_cons_of_mem _ (logs.reapings other was)

theorem reapSlot (logs : Logs shared status) : Logs (shared.reapSlot idx) status :=
  (logs.setSlot idx _).reaping

theorem run {cpu : Cpu} {result : RunResult} {task : Task} (logs : Logs shared status)
    (was : status idx = .claimed cpu) (found : shared.txns[idx]? = some task) :
    Logs { shared with runs := ⟨idx, cpu, task.gtid, task.taskBarrier, result⟩ :: shared.runs }
      (Function.update status idx (.ran cpu result)) := by
  have first := logs.notMem_runs was
  have steps := (Status.Next.run cpu result).update was
  constructor
  · intro other member
    exact (steps other).started (logs.published other member)
  · exact logs.claimsOnce
  · intro claim member
    exact (steps claim.1).wasClaimed (logs.claims claim member)
  · exact List.nodup_cons.mpr ⟨first, logs.runsOnce⟩
  · intro run member
    obtain rfl | earlier := List.mem_cons.mp member
    · rw [Function.update_self]
      rfl
    · exact (steps run.idx).allows (logs.runs run earlier)
  · intro run member
    obtain rfl | earlier := List.mem_cons.mp member
    · exact ⟨task, found, rfl, rfl⟩
    · exact logs.task run earlier
  · intro other returned has
    by_cases same : other = idx
    · subst same
      rw [Function.update_self] at has
      exact ⟨_, List.mem_cons_self, rfl, has⟩
    · rw [Function.update_of_ne same] at has
      obtain ⟨run, member, spec⟩ := logs.result other returned has
      exact ⟨run, List.mem_cons_of_mem _ member, spec⟩
  · intro other now
    by_cases same : other = idx
    · rw [same, Function.update_self] at now
      cases now
    · rw [Function.update_of_ne same] at now
      exact logs.reapings other now
  · intro other tracked
    exact (steps other).started (logs.tracked other tracked)
  · intro other kept
    by_cases same : other = idx
    · rw [same, Function.update_self]
      rfl
    · rw [Function.update_of_ne same]
      exact logs.held other kept
  · intro other reported
    obtain ⟨dropped, back, never⟩ := logs.reports other reported
    refine ⟨dropped, (steps other).back back, ?_⟩
    intro latched
    obtain ⟨run, member, rfl, succeeded⟩ := latched
    obtain rfl | earlier := List.mem_cons.mp member
    · rw [was] at back
      cases back
    · exact never ⟨run, earlier, rfl, succeeded⟩
  · exact logs.reportsOnce
  · intro other returned
    obtain ⟨run, member, spec⟩ := logs.latched other returned
    exact ⟨run, List.mem_cons_of_mem _ member, spec⟩

/-! ### The agent's part -/

theorem track (logs : Logs shared status) (published : idx ∈ shared.published)
    (unknown : shared.tracking idx = .unknown) : Logs (shared.track idx .tracked) status := by
  have ne_of : ∀ {other : Nat}, shared.tracking other = .dropped → other ≠ idx := by
    intro other dropped same
    rw [same, unknown] at dropped
    cases dropped
  refine { logs with tracked := ?_, held := ?_, reports := ?_ }
  · intro other tracked
    by_cases same : other = idx
    · rw [same]
      exact logs.published idx published
    · change Function.update shared.tracking idx _ other = _ at tracked
      rw [Function.update_of_ne same] at tracked
      exact logs.tracked other tracked
  · intro other kept
    apply logs.held
    intro dropped
    apply kept
    change Function.update shared.tracking idx _ other = _
    rw [Function.update_of_ne (ne_of dropped)]
    exact dropped
  · intro other reported
    obtain ⟨dropped, back, never⟩ := logs.reports other reported
    refine ⟨?_, back, never⟩
    change Function.update shared.tracking idx _ other = _
    rw [Function.update_of_ne (ne_of dropped)]
    exact dropped

theorem drop (logs : Logs shared status) : Logs (shared.track idx .dropped) status := by
  have dropped_of : ∀ {other : Nat}, shared.tracking other = .dropped →
      (shared.track idx .dropped).tracking other = .dropped := by
    intro other dropped
    by_cases same : other = idx
    · rw [same]
      exact Function.update_self ..
    · exact (Function.update_of_ne same ..).trans dropped
  refine { logs with tracked := ?_, held := ?_, reports := ?_ }
  · intro other tracked
    change Function.update shared.tracking idx _ other = _ at tracked
    by_cases same : other = idx
    · rw [same, Function.update_self] at tracked
      cases tracked
    · rw [Function.update_of_ne same] at tracked
      exact logs.tracked other tracked
  · intro other kept
    apply logs.held
    intro dropped
    exact kept (dropped_of dropped)
  · intro other reported
    obtain ⟨dropped, back, never⟩ := logs.reports other reported
    exact ⟨dropped_of dropped, back, never⟩

section Reports

variable (logs : Logs shared status) (dropped : shared.tracking idx = .dropped)
  (back : (status idx).back = true) (never : ¬ shared.Latched idx) (first : idx ∉ shared.reports)
include logs dropped back never first

theorem unscheduled :
    Logs { shared with unscheduled := (idx, true) :: shared.unscheduled } status := by
  refine { logs with reports := ?_, reportsOnce := ?_, latched := ?_ }
  · intro other reported
    obtain rfl | earlier := List.mem_cons.mp reported
    · exact ⟨dropped, back, never⟩
    · exact logs.reports other earlier
  · exact List.nodup_cons.mpr ⟨first, logs.reportsOnce⟩
  · intro other returned
    obtain same | earlier := List.mem_cons.mp returned
    · cases same
    · exact logs.latched other earlier

theorem errorsReaped :
    Logs { shared with errorsReaped := idx :: shared.errorsReaped } status := by
  refine { logs with reports := ?_, reportsOnce := ?_ }
  · intro other reported
    obtain rfl | earlier := List.mem_cons.mp (List.perm_middle.mem_iff.mp reported)
    · exact ⟨dropped, back, never⟩
    · exact logs.reports other earlier
  · exact List.perm_middle.nodup_iff.mpr (List.nodup_cons.mpr ⟨first, logs.reportsOnce⟩)

end Reports

theorem stillLatched (logs : Logs shared status) (latched : shared.Latched idx) :
    Logs { shared with unscheduled := (idx, false) :: shared.unscheduled } status := by
  refine { logs with latched := ?_ }
  intro other returned
  obtain same | earlier := List.mem_cons.mp returned
  · cases same
    exact latched
  · exact logs.latched other earlier

end Logs

end Ghost.Bpf.Pnt
