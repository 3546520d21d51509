import Ghost.Topology.CpuMap
import Mathlib.Logic.Function.Basic

/-!
# Custom topologies

The constructor `Topology(InitCustom)` and `Export` of `lib/topology.cc`, with the
parts of `lib/topology.h` that they use. An `int` is an `Int`, and the two places
where one may overflow are faults.
-/

set_option autoImplicit false
set_option linter.dupNamespace false

namespace Ghost.Topology

inductive Fault where
  | check
  | undefinedBehaviour
  deriving DecidableEq

/-- `CHECK` and friends. -/
def check (condition : Prop) [Decidable condition] : Except Fault Unit :=
  if condition then .ok () else .error .check

def intMax : Int := 2 ^ 31 - 1

/-- `++` on an `int`. -/
def increment (value : Int) : Except Fault Int :=
  if value < intMax then .ok (value + 1) else .error .undefinedBehaviour

/-- `Cpu::Raw`. -/
structure Raw where
  cpu : Int
  core : Int
  smtIdx : Int
  siblings : List Int
  l3Siblings : List Int
  numaNode : Int
  deriving DecidableEq

/-! ## CPU lists -/

namespace CpuMap

variable (map : CpuMap)

/-- `EmptyCpuList`. -/
def emptyCpuList (numCpus : Nat) (fits : numCpus ≤ MAX_CPUS) : CpuMap :=
  ⟨numCpus, fits, fun _ => 0⟩

/-- An id beyond the bitmap, as also a negative one becomes, fails a `DCHECK` or is
written out of bounds. -/
def set (id : Int) : Except Fault CpuMap :=
  if inRange : id.toNat / kIntsBits < kMapCapacity ∧ 0 ≤ id then
    let word : Fin kMapCapacity := ⟨id.toNat / kIntsBits, inRange.1⟩
    let bits := map.bitmap word ||| 1#64 <<< (id.toNat % kIntsBits)
    .ok { map with bitmap := Function.update map.bitmap word bits }
  else .error .undefinedBehaviour

/-- `operator==` compares the words in use. -/
def same (other : CpuMap) : Bool :=
  decide (∀ n : Fin kMapCapacity, n.val < map.mapSize → map.bitmap n = other.bitmap n)

/-- The CPUs of `for (const Cpu& cpu : map)`. -/
def visited : List Cpu := (map.iterate (map.numCpus + 1) map.begin).getD []

end CpuMap

def toCpuList (numCpus : Nat) (fits : numCpus ≤ MAX_CPUS) (cpus : List Int) :
    Except Fault CpuMap :=
  cpus.foldlM CpuMap.set (.emptyCpuList numCpus fits)

/-! ## Topologies -/

structure CpuRep where
  cpu : Int
  core : Int
  smtIdx : Int
  siblings : CpuMap
  l3Siblings : CpuMap
  numaNode : Int

structure Topology where
  numCpus : Nat
  numCpus_le : numCpus ≤ MAX_CPUS
  allCpus : CpuMap
  cpus : List CpuRep
  highestNodeIdx : Int
  consecutiveSmtNumbering : Bool
  cpusOnNode : List CpuMap

namespace Topology

/-- The representation behind a handle. -/
def rep (topology : Topology) : Cpu → Except Fault CpuRep
  | .kUninitialized => .error .undefinedBehaviour
  | .rep id =>
      match topology.cpus[id]? with
      | some rep => .ok rep
      | none => .error .undefinedBehaviour

/-! ### Checks -/

/-- All siblings are valid CPUs. -/
def checkValid (size : Nat) (siblings : List Int) : Except Fault Unit :=
  siblings.forM fun s => do
    check (0 ≤ s)
    check (s < size)

/-- The loop of `CheckCustomTopology`. -/
def checkCustomTopologyFrom (size : Nat) : Int → List Raw → Except Fault Unit
  | _, [] => .ok ()
  | next, raw :: rest => do
      let after ← increment next
      check (raw.cpu = next)
      checkValid size raw.siblings
      checkValid size raw.l3Siblings
      checkCustomTopologyFrom size after rest

def checkCustomTopology (cpus : List Raw) : Except Fault Unit := do
  check (cpus ≠ [])
  checkCustomTopologyFrom cpus.length 0 cpus

/-- Every sibling has the same siblings. -/
def checkSame (topology : Topology) (siblings : CpuMap) (siblingsOf : CpuRep → CpuMap) :
    Except Fault Unit :=
  siblings.visited.forM fun sibling => do
    let other ← topology.rep sibling
    check (siblings.same (siblingsOf other) = true)

def checkSiblings (topology : Topology) : Except Fault Unit :=
  topology.allCpus.visited.forM fun cpu => do
    let rep ← topology.rep cpu
    check (rep.siblings.isSet rep.cpu.toNat = true)
    topology.checkSame rep.siblings CpuRep.siblings
    topology.checkSame rep.l3Siblings CpuRep.l3Siblings

def createCpuListsForNumaNodes (topology : Topology) (numPossibleNodes : Int) :
    Except Fault (List CpuMap) :=
  let lists := List.replicate numPossibleNodes.toNat
    (CpuMap.emptyCpuList topology.numCpus topology.numCpus_le)
  topology.allCpus.visited.foldlM
    (fun lists cpu => do
      let rep ← topology.rep cpu
      check (0 ≤ rep.numaNode)
      check (rep.numaNode < numPossibleNodes)
      match lists[rep.numaNode.toNat]? with
      | some list => do
          let list ← list.set rep.cpu
          .ok (lists.set rep.numaNode.toNat list)
      | none => .error .undefinedBehaviour)
    lists

/-- `Cores`; the first component is the set of the cores seen so far. -/
def cores (topology : Topology) (cpus : CpuMap) : Except Fault CpuMap := do
  let result ← cpus.visited.foldlM
    (fun (seen : List Int × CpuMap) cpu => do
      let rep ← topology.rep cpu
      if rep.core ∈ seen.1 then .ok seen
      else do
        let result ← seen.2.set rep.core
        .ok (rep.core :: seen.1, result))
    ([], .emptyCpuList topology.numCpus topology.numCpus_le)
  .ok result.2

def checkConsecutiveSmtNumbering (topology : Topology) : Except Fault Bool := do
  let first ← topology.rep (.rep 0)
  let siblings := first.siblings
  if siblings.size ≠ 2 then do
    check (siblings.size = 1)
    .ok false
  else do
    let lower ← topology.rep (siblings.getNthCpu 0)
    let upper ← topology.rep (siblings.getNthCpu 1)
    let siblingOffset := (lower.cpu - upper.cpu).natAbs
    if siblingOffset = 1 then .ok true
    else do
      let allCores ← topology.cores topology.allCpus
      check (siblingOffset = allCores.size.toNat)
      .ok false

/-! ### Construction -/

def fillRep (numCpus : Nat) (fits : numCpus ≤ MAX_CPUS) (raws : List Raw) (i : Nat) :
    Except Fault CpuRep :=
  match raws[i]? with
  | none => .error .undefinedBehaviour
  | some raw => do
      let siblings ← toCpuList numCpus fits raw.siblings
      let l3Siblings ← toCpuList numCpus fits raw.l3Siblings
      .ok
        { cpu := i
          core := raw.core
          smtIdx := raw.smtIdx
          siblings := siblings
          l3Siblings := l3Siblings
          numaNode := raw.numaNode }

/-- The members before the checks. -/
def filled (numCpus : Nat) (fits : numCpus ≤ MAX_CPUS) (raws : List Raw) :
    Except Fault Topology := do
  let cpus ← (List.range numCpus).mapM (fillRep numCpus fits raws)
  let allCpus ← toCpuList numCpus fits ((List.range numCpus).map Int.ofNat)
  .ok
    { numCpus := numCpus
      numCpus_le := fits
      allCpus := allCpus
      cpus := cpus
      highestNodeIdx := cpus.foldl (fun highest rep => max rep.numaNode highest) (-1)
      consecutiveSmtNumbering := false
      cpusOnNode := [] }

def finish (topology : Topology) : Except Fault Topology := do
  topology.checkSiblings
  let numPossibleNodes ← increment topology.highestNodeIdx
  let cpusOnNode ← topology.createCpuListsForNumaNodes numPossibleNodes
  let topology := { topology with cpusOnNode := cpusOnNode }
  let consecutiveSmtNumbering ← topology.checkConsecutiveSmtNumbering
  .ok { topology with consecutiveSmtNumbering := consecutiveSmtNumbering }

/-- `std::sort` by `operator<`. -/
def sort (raws : List Raw) : List Raw := raws.mergeSort fun a b => a.cpu ≤ b.cpu

/-- `Topology(InitCustom, raw_cpus)`; `num_cpus_` is a `uint32_t`. -/
def initCustom (raws : List Raw) : Except Fault Topology :=
  let numCpus := raws.length % 2 ^ 32
  if fits : numCpus ≤ MAX_CPUS then do
    let raws := sort raws
    checkCustomTopology raws
    let topology ← filled numCpus fits raws
    topology.finish
  else .error .check

/-- `Export`. -/
def toExport (topology : Topology) : Except Fault (List Raw) :=
  topology.allCpus.visited.mapM fun cpu => do
    let rep ← topology.rep cpu
    .ok
      { cpu := rep.cpu
        core := rep.core
        smtIdx := rep.smtIdx
        siblings := rep.siblings.toIntVector.map Int.ofNat
        l3Siblings := rep.l3Siblings.toIntVector.map Int.ofNat
        numaNode := rep.numaNode }

end Topology

end Ghost.Topology
