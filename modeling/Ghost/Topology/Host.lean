import Ghost.Topology.Custom

/-!
# The topology of the host

`Topology(InitHost)` of `lib/topology.cc`. The files under `/sys` and libnuma are the
host: CPUs with the same line in a file are siblings, and the text of the line matters
only for that.
-/

set_option autoImplicit false
set_option linter.dupNamespace false

namespace Ghost.Topology

structure Host where
  /-- `std::thread::hardware_concurrency()`. -/
  hardwareConcurrency : Nat
  /-- The first line of `topology/thread_siblings`, by CPU; empty if there is none. -/
  threadSiblings : Nat → String
  /-- The first line of `cache/index3/shared_cpu_list`, by CPU. -/
  sharedCpuList : Nat → String
  numaNodeOfCpu : Nat → Int
  /-- The parts of the line of `node/possible` between its commas and dashes, as
  `SimpleAtoi` reads them. -/
  nodePossible : List (Option Int)

namespace Topology

/-- The first loop of `GetAllSiblings` from `cpu` on, with the CPUs left. -/
def checkLines (lines : Nat → String) : Nat → Nat → Except Fault Nat
  | 0, cpu => .ok cpu
  | left + 1, cpu =>
      if lines cpu = "" then do
        check (cpu = 0)
        .ok cpu
      else checkLines lines left (cpu + 1)

/-- `GetAllSiblings`: a list for each CPU, or for none if the files are missing. -/
def getAllSiblings (numCpus : Nat) (fits : numCpus ≤ MAX_CPUS) (lines : Nat → String) :
    Except Fault (List CpuMap) := do
  let known ← checkLines lines numCpus 0
  (List.range known).mapM fun cpu =>
    toCpuList numCpus fits
      (((List.range known).filter fun other => lines other = lines cpu).map Int.ofNat)

/-- The loop that finds the position of `cpu` among its siblings, with the bits left. -/
def smtIdxFrom (siblings : CpuMap) (cpu : Nat) : Nat → Nat → Int → Int
  | 0, _, idx => idx
  | left + 1, c, idx =>
      if siblings.isSet c then
        if c = cpu then idx + 1 else smtIdxFrom siblings cpu left (c + 1) (idx + 1)
      else smtIdxFrom siblings cpu left (c + 1) idx

/-- `Cpu::id()`. -/
def idOf : Cpu → Except Fault Nat
  | .kUninitialized => .error .undefinedBehaviour
  | .rep id => .ok id

def fillHostRep (host : Host) (numCpus : Nat) (fits : numCpus ≤ MAX_CPUS)
    (siblings l3Siblings : List CpuMap) (i : Nat) : Except Fault CpuRep :=
  match siblings[i]? with
  | none => .error .check
  | some own => do
      let l3 ←
        (if l3Siblings.isEmpty then .ok (.emptyCpuList numCpus fits)
        else
          match l3Siblings[i]? with
          | none => .error .check
          | some l3 => .ok l3)
      let core ← idOf own.begin.cpu
      check (0 ≤ host.numaNodeOfCpu i)
      let idx := smtIdxFrom own i MAX_CPUS 0 (-1)
      check (0 ≤ idx)
      .ok
        { cpu := i
          core := core
          smtIdx := idx
          siblings := own
          l3Siblings := l3
          numaNode := host.numaNodeOfCpu i }

def getHighestNodeIdx (nodePossible : List (Option Int)) : Except Fault Int :=
  nodePossible.foldlM
    (fun highestIdx nodeIdx =>
      match nodeIdx with
      | none => .error .check
      | some nodeIdx => .ok (max highestIdx nodeIdx))
    0

/-- The members before the last checks. -/
def filledHost (host : Host) (numCpus : Nat) (fits : numCpus ≤ MAX_CPUS) :
    Except Fault Topology := do
  let siblings ← getAllSiblings numCpus fits host.threadSiblings
  check (siblings.length = numCpus)
  let l3Siblings ← getAllSiblings numCpus fits host.sharedCpuList
  check (l3Siblings.isEmpty = true ∨ l3Siblings.length = numCpus)
  let cpus ← (List.range numCpus).mapM (fillHostRep host numCpus fits siblings l3Siblings)
  let allCpus ← toCpuList numCpus fits ((List.range numCpus).map Int.ofNat)
  let highestNodeIdx ← getHighestNodeIdx host.nodePossible
  .ok
    { numCpus := numCpus
      numCpus_le := fits
      allCpus := allCpus
      cpus := cpus
      highestNodeIdx := highestNodeIdx
      consecutiveSmtNumbering := false
      cpusOnNode := [] }

/-- `Topology(InitHost)`; its last checks are those of a custom topology. -/
def initHost (host : Host) : Except Fault Topology :=
  if fits : host.hardwareConcurrency ≤ MAX_CPUS then do
    let topology ← filledHost host host.hardwareConcurrency fits
    topology.finish
  else .error .check

end Topology

end Ghost.Topology
