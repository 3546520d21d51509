import Ghost.Lib.Bits
import Ghost.Lib.Machine
import Mathlib.Data.List.Perm.Basic

/-!
# Shared memory regions

`CreateShmem`, `ConnectShmem` and `OpenGhostShmemFd` of `shared/shmem.cc`, and the regions
that one process hosts. The directory `/proc/<pid>/fd` lists its descriptors in any order.
System calls succeed where their arguments allow it.
-/

set_option autoImplicit false

namespace Ghost.Shared

open Lib

/-- `roundup2` for `size_t`. -/
def roundup2 (x y : BitVec 64) : BitVec 64 := (x + (y - 1)) &&& ~~~(y - 1)

def kHugepageSize : BitVec 64 := 2 * 1024 * 1024

/-- `PAGE_SIZE`. -/
def kHeaderReservedBytes : BitVec 64 := 4096

def memfdMark : List Char := "/memfd:".toList

def deletedMark : List Char := " (deleted)".toList

def kMemFdPrefix : List Char := "ghost-shmem-".toList

def kHeaderVersion : BitVec 64 := 1

structure InternalHeader where
  headerVersion : BitVec 64
  mappingSize : BitVec 64
  headerSize : BitVec 64
  clientSize : BitVec 64
  ready : Bool
  finished : Bool
  owningPid : Int
  clientVersion : BitVec 64
  deriving DecidableEq

/-- The pages of a new memory file. -/
def zeroHeader : InternalHeader := ⟨0, 0, 0, 0, false, false, 0, 0⟩

structure MemFd where
  name : List Char
  size : BitVec 64
  hdr : InternalHeader
  deriving DecidableEq

/-- What a symbolic link of `/proc/<pid>/fd` reads. -/
def MemFd.link (file : MemFd) : List Char := memfdMark ++ file.name ++ deletedMark

/-- An open descriptor of a process. -/
inductive Fd where
  | region (file : MemFd)
  /-- Anything else, by its link. -/
  | other (link : List Char)
  deriving DecidableEq

def Fd.link : Fd → List Char
  | .region file => file.link
  | .other link => link

def needle (suffix : List Char) : List Char := memfdMark ++ kMemFdPrefix ++ suffix

/-- The first descriptor in the directory whose link starts with the needle. -/
def openGhostShmemFd (listing : List Fd) (suffix : List Char) : Option Fd :=
  listing.find? fun fd => (needle suffix).isPrefixOf fd.link

/-- What ends a process. -/
inductive ShmemFault where
  /-- `CHECK_EQ(OpenGhostShmemFd(suffix, Gtid::Current().tid()), -1)`. -/
  | suffixTaken
  /-- `CHECK_LE(map_size_, UINT32_MAX)`. -/
  | mapSize
  /-- `CHECK_NE(shmem_, MAP_FAILED)`: a mapping has a length. -/
  | mapFailed
  | headerVersion
  | clientVersion
  | mappingSize
  | headerSize
  | owningPid
  deriving DecidableEq

def mapSize (size : BitVec 64) : BitVec 64 := roundup2 (size + kHeaderReservedBytes) kHugepageSize

/-- `CreateShmem`, which does not store its `client_version`. -/
def createShmem (listing : List Fd) (pid : Int) (_clientVersion : BitVec 64) (suffix : List Char)
    (size : BitVec 64) : Except ShmemFault MemFd :=
  if (openGhostShmemFd listing suffix).isSome then .error .suffixTaken
  else if 2 ^ 32 - 1 < (mapSize size).toNat then .error .mapSize
  else if mapSize size = 0 then .error .mapFailed
  else
    .ok ⟨kMemFdPrefix ++ suffix, mapSize size,
      { zeroHeader with
        headerVersion := kHeaderVersion
        mappingSize := mapSize size
        clientSize := mapSize size - kHeaderReservedBytes
        headerSize := kHeaderReservedBytes
        owningPid := pid }⟩

inductive Attachment where
  | returnsFalse
  /-- In `WaitForReady`. -/
  | waits
  | fails (fault : ShmemFault)
  | connected (file : MemFd)
  deriving DecidableEq

/-- `ConnectShmem` from the mapping on. -/
def connect (file : MemFd) (clientVersion : BitVec 64) (pid : Int) : Attachment :=
  if file.size = 0 then .fails .mapFailed
  else if file.hdr.ready = false then .waits
  else if file.hdr.headerVersion ≠ kHeaderVersion then .fails .headerVersion
  else if file.hdr.clientVersion ≠ clientVersion then .fails .clientVersion
  else if file.hdr.mappingSize ≠ file.size then .fails .mappingSize
  else if file.hdr.headerSize ≠ kHeaderReservedBytes then .fails .headerSize
  else if file.hdr.owningPid ≠ pid then .fails .owningPid
  else .connected file

/-- `ConnectShmem`. The last case never arises: no other link starts with the needle. -/
def connectShmem (listing : List Fd) (clientVersion : BitVec 64) (suffix : List Char) (pid : Int) :
    Attachment :=
  match openGhostShmemFd listing suffix with
  | none => .returnsFalse
  | some (.region file) => connect file clientVersion pid
  | some (.other _) => .fails .headerVersion

/-! ## The regions of a process -/

/-- A region and the arguments that it was created with. -/
structure Region where
  clientVersion : BitVec 64
  suffix : List Char
  size : BitVec 64
  file : MemFd
  deriving DecidableEq

def Region.markReady (region : Region) : Region :=
  { region with file := { region.file with hdr := { region.file.hdr with ready := true } } }

structure Host where
  pid : Int
  regions : List Region

/-- An order in which the directory lists the regions of the process and whatever else it has
open. -/
def Host.Lists (host : Host) (listing : List Fd) : Prop :=
  ∃ others : List (List Char),
    (∀ link ∈ others, ¬ memfdMark ++ kMemFdPrefix <+: link) ∧
      listing.Perm (host.regions.map (fun region => .region region.file) ++ others.map .other)

inductive HostAction where
  | create (listing : List Fd) (clientVersion : BitVec 64) (suffix : List Char) (size : BitVec 64)
  | markReady (suffix : List Char)
  /-- `~GhostShmem`. -/
  | destroy (suffix : List Char)

inductive Host.Step (host : Host) : HostAction → Host → Prop
  | create {listing : List Fd} {clientVersion : BitVec 64} {suffix : List Char}
      {size : BitVec 64} {file : MemFd} :
      host.Lists listing → createShmem listing host.pid clientVersion suffix size = .ok file →
      host.Step (.create listing clientVersion suffix size)
        { host with regions := ⟨clientVersion, suffix, size, file⟩ :: host.regions }
  | markReady {suffix : List Char} :
      host.Step (.markReady suffix) { host with
        regions := host.regions.map fun region =>
          if region.suffix = suffix then region.markReady else region }
  | destroy {suffix : List Char} :
      host.Step (.destroy suffix) { host with
        regions := host.regions.filter fun region => region.suffix ≠ suffix }

def hosts : Machine Host HostAction where
  initial host := host.regions = []
  step := Host.Step

end Ghost.Shared
