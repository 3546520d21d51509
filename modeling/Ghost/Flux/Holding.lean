import Ghost.Bpf.ArrList
import Mathlib.Tactic

/-!
# CPUs of a scheduler with children

Where a CPU is, seen from a scheduler that grants its CPUs to children, as the calls of
`flux_api.bpf.c` move it. The scheduler's own callbacks are the steps of its machine.
-/

set_option autoImplicit false

namespace Ghost.Flux

theorem maxCpus_fits : 1024 < 2 ^ 32 := by decide

/-- `FLUX_MAX_CPUS`. -/
def maxCpus : Bpf.ArrSize := ⟨1024, maxCpus_fits⟩

def firstCpu : maxCpus.Elem := (0 : Fin 1024)

def secondCpu : maxCpus.Elem := (1 : Fin 1024)

def thirdCpu : maxCpus.Elem := (2 : Fin 1024)

/-- How a CPU comes back from a child: `flux_cpu_yield`, a preemption of the scheduler
itself, or one that stops at the scheduler. -/
inductive Return where
  | returned
  | preempted
  | preemptionCompleted
  deriving DecidableEq

inductive Holding where
  /-- `current_sched` is above the scheduler. -/
  | away
  /-- The scheduler has the CPU and no child does. -/
  | here
  /-- Picked for a child, in `flux_cpu_grant`. -/
  | granting (child : Nat)
  /-- `current_sched` is the child or below it. -/
  | held (child : Nat)
  /-- Taken from the child, before the scheduler's accounting. -/
  | returning (child : Nat) (how : Return)
  deriving DecidableEq

/-- No grant or return is in progress. -/
def Holding.settled : Holding → Bool
  | .granting _ | .returning .. => false
  | _ => true

def Holding.child? : Holding → Option Nat
  | .granting child => some child
  | .held child => some child
  | .returning child _ => some child
  | _ => none

theorem Holding.child?_of_settled {holding : Holding} (settled : holding.settled = true)
    {child : Nat} : holding.child? = some child ↔ holding = .held child := by
  cases holding with
  | granting => cases settled
  | returning => cases settled
  | _ => simp [Holding.child?]

def Holding.returning? : Holding → Option (Nat × Return)
  | .returning child how => some (child, how)
  | _ => none

theorem Holding.returning?_eq_some {holding : Holding} {back : Nat × Return}
    (returning : holding.returning? = some back) : holding = .returning back.1 back.2 := by
  cases holding <;> cases returning
  rfl

/-- The steps of flux that change no list. -/
inductive Movement where
  /-- The CPU is granted to the scheduler. -/
  | allocate
  /-- The store to `current_sched` in `flux_cpu_grant`. -/
  | grant
  | leave (how : Return)
  /-- The scheduler loses a CPU that no child has. -/
  | withdraw
  deriving DecidableEq

def Holding.move : Holding → Movement → Option Holding
  | .away, .allocate => some .here
  | .granting child, .grant => some (.held child)
  | .held child, .leave how => some (.returning child how)
  | .here, .withdraw => some .away
  | _, _ => none

theorem Holding.move_child? {holding next : Holding} {movement : Movement}
    (moved : holding.move movement = some next) : next.child? = holding.child? := by
  cases holding <;> cases movement <;> cases moved <;> rfl

/-- Where the CPU is after the accounting. -/
def Return.after : Return → Holding
  | .preempted => .away
  | _ => .here

theorem Return.after_child? (how : Return) : how.after.child? = none := by
  cases how <;> rfl

end Ghost.Flux
