import Ghost.Lib.Bits

/-!
# CPU maps

`CpuMap` and its iterator, and the views of `CpuList`, of `lib/topology.h` and
`lib/topology.cc`. A map that nobody changes meanwhile is its words: those of a
`CpuList` itself, those a `WrappedCpuList` points to, or the loads of an
`AtomicCpuMap`.
-/

set_option autoImplicit false

namespace Ghost.Topology

open Lib

def MAX_CPUS : Nat := 512

def kIntsBits : Nat := 64

def kMapCapacity : Nat := MAX_CPUS / kIntsBits

/-- A handle on a CPU of the topology; CPU `id` has `rep_->cpu == id`. -/
inductive Cpu where
  | kUninitialized
  | rep (id : Nat)
  deriving DecidableEq

def Cpu.valid : Cpu → Bool
  | .kUninitialized => false
  | .rep _ => true

structure CpuMap where
  numCpus : Nat
  numCpus_le : numCpus ≤ MAX_CPUS
  bitmap : Fin kMapCapacity → BitVec 64

namespace CpuMap

variable (map : CpuMap)

def mapSize : Nat := (map.numCpus + kIntsBits - 1) / kIntsBits

/-- The `CHECK_LE` of the constructor. -/
theorem mapSize_le : map.mapSize ≤ kMapCapacity := by
  have few := map.numCpus_le
  unfold mapSize kMapCapacity MAX_CPUS kIntsBits at *
  omega

/-- The word of an index below `map_size_`. -/
def getNthMap (n : Nat) (inRange : n < map.mapSize) : BitVec 64 :=
  map.bitmap ⟨n, inRange.trans_le map.mapSize_le⟩

def isSet (id : Nat) : Bool :=
  if inRange : id / kIntsBits < kMapCapacity then
    map.bitmap ⟨id / kIntsBits, inRange⟩ &&& (1#64 <<< (id % kIntsBits)) != 0
  else false

/-! ## Iteration -/

structure Iter where
  id : Nat
  cpu : Cpu
  deriving DecidableEq

/-- Where the range ends. -/
def stop : Iter := ⟨map.numCpus, .kUninitialized⟩

/-- The loop of `FindNextSetBit`, with what is left of the word at `mapIdx`. -/
def findInWords (mapIdx : Nat) (word : BitVec 64) : Iter :=
  if mapIdx < map.mapSize then
    if word ≠ 0 then
      ⟨mapIdx * kIntsBits + word.ctz.toNat, .rep (mapIdx * kIntsBits + word.ctz.toNat)⟩
    else if inRange : mapIdx + 1 < map.mapSize then
      findInWords (mapIdx + 1) (map.getNthMap (mapIdx + 1) inRange)
    else
      findInWords (mapIdx + 1) word
  else
    map.stop
termination_by map.mapSize - mapIdx

def findNextSetBit (id : Nat) : Iter :=
  if inRange : id / kIntsBits < map.mapSize then
    map.findInWords (id / kIntsBits)
      (map.getNthMap (id / kIntsBits) inRange &&& (BitVec.allOnes 64 <<< (id % kIntsBits)))
  else
    map.stop

def begin : Iter := map.findNextSetBit 0

def end' : Iter := map.findNextSetBit map.numCpus

/-- The CPUs of `for (const Cpu& cpu : map)` from an iterator on, unless the loop
takes more than `fuel` rounds. -/
def iterate : Nat → Iter → Option (List Cpu)
  | 0, _ => none
  | fuel + 1, it =>
      if it.id ≠ map.end'.id then
        (iterate fuel (map.findNextSetBit (it.id + 1))).map (it.cpu :: ·)
      else
        some []

/-! ## Counting -/

/-- The loop of `Empty` from word `i` on. -/
def emptyFrom (i : Nat) : Bool :=
  if inRange : i < map.mapSize then
    if map.getNthMap i inRange ≠ 0 then false else emptyFrom (i + 1)
  else
    true
termination_by map.mapSize - i

def empty : Bool := map.emptyFrom 0

/-- The loop of `CountSetCpus` from word `i` on. -/
def countSetCpusFrom (i : Nat) (ret : BitVec 32) : BitVec 32 :=
  if inRange : i < map.mapSize then
    countSetCpusFrom (i + 1) (ret + BitVec.ofNat 32 (map.getNthMap i inRange).cpop.toNat)
  else
    ret
termination_by map.mapSize - i

def countSetCpus : BitVec 32 := map.countSetCpusFrom 0 0

def size : BitVec 32 := map.countSetCpus

/-! ## The views of a `CpuList` -/

/-- The loop of `GetNthCpu` from word `i` on. -/
def getNthCpuFrom (i : Nat) (n : BitVec 32) : Cpu :=
  if inRange : i < map.mapSize then
    let word := map.getNthMap i inRange
    let count := BitVec.ofNat 32 word.cpop.toNat
    if count ≤ n then
      getNthCpuFrom (i + 1) (n - count)
    else
      .rep (i * kIntsBits + (clearLowest^[n.toNat] word).ctz.toNat)
  else
    .kUninitialized
termination_by map.mapSize - i

def getNthCpu (n : BitVec 32) : Cpu := map.getNthCpuFrom 0 n

/-- The loop of `ToVector` from index `i` on. -/
def toVectorFrom (i : Nat) : List Cpu :=
  if i < map.size.toNat then
    let cpu := map.getNthCpu (BitVec.ofNat 32 i)
    if cpu.valid then cpu :: toVectorFrom (i + 1) else []
  else
    []
termination_by map.size.toNat - i

def toVector : List Cpu := map.toVectorFrom 0

def toIntVectorFrom (i : Nat) : List Nat :=
  if i < map.size.toNat then
    match map.getNthCpu (BitVec.ofNat 32 i) with
    | .kUninitialized => []
    | .rep id => id :: toIntVectorFrom (i + 1)
  else
    []
termination_by map.size.toNat - i

def toIntVector : List Nat := map.toIntVectorFrom 0

def front : Cpu := map.getNthCpu 0

/-- `Size() - 1` wraps in an empty list. -/
def back : Cpu := map.getNthCpu (map.size - 1)

end CpuMap

end Ghost.Topology
