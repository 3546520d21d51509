import Ghost.Shared.PrioTable
import Ghost.Shared.ShmemProperties

/-!
# The layout of the priority table

The constructor of `shared/prio_table.cc`: the size of the region in `size_t`, the offsets in the
32-bit fields of its header, and where the accessors point.
-/

set_option autoImplicit false

namespace Ghost.Shared

open Lib

/-- `ABSL_CACHELINE_SIZE`, to which the structures are padded. -/
def cachelineSize : Nat := 64

/-- `sizeof(struct ghost_shmem_hdr)`. -/
def sizeofHdr : BitVec 64 := 64

def sizeofSchedItem : BitVec 64 := 64

def sizeofWorkClass : BitVec 64 := 64

/-- `sizeof(struct PrioTable::stream)`, without the entries. -/
def sizeofStream : BitVec 64 := 4

def sizeofEntry : BitVec 64 := 4

def kPrioTableVersion : BitVec 64 := 0

def kPrioTableShmemName : List Char := "priotable".toList

def shmemSize (schedItems workClasses streamCapacity : BitVec 32) : Option (BitVec 64) :=
  let sz := sizeofHdr + sizeofSchedItem * schedItems.setWidth 64 +
    sizeofWorkClass * workClasses.setWidth 64
  if sz.toNat % cachelineSize = 0 then
    some (sz + (sizeofStream + sizeofEntry * streamCapacity.setWidth 64))
  else none

structure GhostShmemHdr where
  version : BitVec 16
  hdrlen : BitVec 16
  maplen : BitVec 32
  siNum : BitVec 32
  siOff : BitVec 32
  wcNum : BitVec 32
  wcOff : BitVec 32
  stCap : BitVec 32
  stOff : BitVec 32

structure PrioTable where
  file : MemFd
  /-- Where the file is mapped. -/
  shmem : BitVec 64
  hdr : GhostShmemHdr

/-- The fields in the order in which they are written. -/
def prioTableHdr (numItems numClasses stCap : BitVec 32) (size : BitVec 64) : GhostShmemHdr :=
  let hdrlen := sizeofHdr.setWidth 16
  let siOff := hdrlen.setWidth 32
  let wcOff := (siOff.setWidth 64 + numItems.setWidth 64 * sizeofSchedItem).setWidth 32
  let stOff := (wcOff.setWidth 64 + numClasses.setWidth 64 * sizeofWorkClass).setWidth 32
  ⟨0, hdrlen, size.setWidth 32, numItems, siOff, numClasses, wcOff, stCap, stOff⟩

/-- The constructor, where it completes. -/
def prioTable (listing : List Fd) (pid : Int) (shmem : BitVec 64) (numItems numClasses : BitVec 32)
    (capacity : StreamCapacity) : Option PrioTable := do
  let stCap := BitVec.ofNat 32 capacity.value
  let size ← shmemSize numItems numClasses stCap
  match createShmem listing pid kPrioTableVersion kPrioTableShmemName size with
  | .error _ => none
  | .ok file =>
      let hdr := prioTableHdr numItems numClasses stCap size
      if hdr.stOff.toNat % cachelineSize = 0 then some ⟨file, shmem, hdr⟩ else none

/-- What `mmap` returns: whole pages of the address space. -/
structure Mapped (start length : BitVec 64) : Prop where
  aligned : start.toNat % 4096 = 0
  inMemory : start.toNat + length.toNat ≤ 2 ^ 64

namespace PrioTable

variable (table : PrioTable)

/-- `bytes()`. -/
def bytes : BitVec 64 := table.shmem + kHeaderReservedBytes

def firstItem : BitVec 64 := table.bytes + table.hdr.siOff.setWidth 64

def firstClass : BitVec 64 := table.bytes + table.hdr.wcOff.setWidth 64

def stream : BitVec 64 := table.bytes + table.hdr.stOff.setWidth 64

/-- The comparison of the check is one of unsigned numbers. -/
def schedItem (i : BitVec 32) : Option (BitVec 64) :=
  if i.toNat < table.hdr.siNum.toNat then some (table.firstItem + i.signExtend 64 * sizeofSchedItem)
  else none

/-- The bounds are checked in debug builds only. -/
def workClass (i : BitVec 32) : BitVec 64 :=
  table.firstClass + i.signExtend 64 * sizeofWorkClass

/-- `&entries[(idx + i) % hdr()->st_cap]`. -/
def cell (idx : Int) (i : Nat) : BitVec 64 :=
  table.stream + sizeofStream +
    BitVec.ofNat 64 (((idx + i) % 2 ^ 32).toNat % table.hdr.stCap.toNat) * sizeofEntry

end PrioTable

/-! ## Extents -/

/-- Consecutive bytes. -/
structure Extent where
  start : Nat
  length : Nat

namespace Extent

def Contains (extent : Extent) (address : Nat) : Prop :=
  extent.start ≤ address ∧ address < extent.start + extent.length

def Disjoint (extent other : Extent) : Prop :=
  ∀ address, ¬ (extent.Contains address ∧ other.Contains address)

def Within (extent outer : Extent) : Prop :=
  outer.start ≤ extent.start ∧ extent.start + extent.length ≤ outer.start + outer.length

theorem disjoint_of_le {extent other : Extent}
    (before : extent.start + extent.length ≤ other.start) : extent.Disjoint other := by
  rintro address ⟨inside, otherInside⟩
  exact absurd (inside.2.trans_le before) (Nat.not_lt_of_le otherInside.1)

end Extent

namespace PrioTable

variable (table : PrioTable)

def clientArea : Extent := ⟨table.bytes.toNat, table.file.hdr.clientSize.toNat⟩

def hdrExtent : Extent := ⟨table.bytes.toNat, table.hdr.hdrlen.toNat⟩

def itemsExtent : Extent := ⟨table.firstItem.toNat, 64 * table.hdr.siNum.toNat⟩

def classesExtent : Extent := ⟨table.firstClass.toNat, 64 * table.hdr.wcNum.toNat⟩

/-- The counter and the entries. -/
def streamExtent : Extent := ⟨table.stream.toNat, 4 + 4 * table.hdr.stCap.toNat⟩

def extents : List Extent :=
  [table.hdrExtent, table.itemsExtent, table.classesExtent, table.streamExtent]

end PrioTable

/-! ## Offsets -/

section Offsets

variable {numItems numClasses : BitVec 32} {capacity : StreamCapacity} {size : BitVec 64}

theorem StreamCapacity.value_le (capacity : StreamCapacity) : capacity.value ≤ 97 := by
  cases capacity <;> decide

theorem StreamCapacity.toNat_value (capacity : StreamCapacity) :
    (BitVec.ofNat 32 capacity.value).toNat = capacity.value := by
  have := capacity.value_le
  rw [BitVec.toNat_ofNat]
  omega

/-- The sum does not wrap in `size_t`. -/
theorem toNat_shmemSize
    (sized : shmemSize numItems numClasses (BitVec.ofNat 32 capacity.value) = some size) :
    size.toNat =
      64 + 64 * numItems.toNat + 64 * numClasses.toNat + (4 + 4 * capacity.value) := by
  obtain ⟨-, isSize⟩ := Option.ite_none_right_eq_some.mp sized
  have items := numItems.isLt
  have classes := numClasses.isLt
  have cap := capacity.value_le
  have isCap := capacity.toNat_value
  cases isSize
  simp only [BitVec.toNat_add, BitVec.toNat_mul, BitVec.toNat_setWidth, isCap, sizeofHdr,
    sizeofSchedItem, sizeofWorkClass, sizeofStream, sizeofEntry, BitVec.ofNat_eq_ofNat,
    BitVec.toNat_ofNat]
  omega

/-- Where the limit on the mapping holds, so does that of the fields. -/
theorem MapFits.size_lt (fits : MapFits size) (noWrap : size.toNat + 4096 < 2 ^ 64) :
    size.toNat + 4096 < 2 ^ 32 := by
  have large := fits.size_le_iff.mpr noWrap
  have client := fits.toNat_clientSize
  have limit := fits.limit
  omega

theorem toNat_prioTableHdr (small : 64 + 64 * numItems.toNat + 64 * numClasses.toNat < 2 ^ 32) :
    (prioTableHdr numItems numClasses (BitVec.ofNat 32 capacity.value) size).hdrlen.toNat = 64 ∧
    (prioTableHdr numItems numClasses (BitVec.ofNat 32 capacity.value) size).siOff.toNat = 64 ∧
    (prioTableHdr numItems numClasses (BitVec.ofNat 32 capacity.value) size).wcOff.toNat =
      64 + 64 * numItems.toNat ∧
    (prioTableHdr numItems numClasses (BitVec.ofNat 32 capacity.value) size).stOff.toNat =
      64 + 64 * numItems.toNat + 64 * numClasses.toNat := by
  simp only [prioTableHdr, BitVec.toNat_add, BitVec.toNat_mul, BitVec.toNat_setWidth, sizeofHdr,
    sizeofSchedItem, sizeofWorkClass, BitVec.ofNat_eq_ofNat, BitVec.toNat_ofNat]
  exact ⟨trivial, trivial, by omega, by omega⟩

end Offsets

/-! ## The table in memory -/

/-- The fields hold the exact values. -/
structure PrioTable.Exact (table : PrioTable) (numItems numClasses : BitVec 32)
    (capacity : StreamCapacity) : Prop where
  siNum : table.hdr.siNum = numItems
  wcNum : table.hdr.wcNum = numClasses
  stCap : table.hdr.stCap.toNat = capacity.value
  hdrlen : table.hdr.hdrlen.toNat = 64
  siOff : table.hdr.siOff.toNat = 64
  wcOff : table.hdr.wcOff.toNat = 64 + 64 * numItems.toNat
  stOff : table.hdr.stOff.toNat = 64 + 64 * numItems.toNat + 64 * numClasses.toNat
  maplen : table.hdr.maplen.toNat =
    64 + 64 * numItems.toNat + 64 * numClasses.toNat + (4 + 4 * capacity.value)
  inClient : 64 + 64 * numItems.toNat + 64 * numClasses.toNat + (4 + 4 * capacity.value) ≤
    table.file.hdr.clientSize.toNat
  inMap : table.file.hdr.clientSize.toNat + 4096 = table.file.size.toNat

/-- The layout of a table as its creator means it. -/
structure PrioTable.LaidOut (table : PrioTable) (numItems numClasses : BitVec 32)
    (capacity : StreamCapacity) : Prop where
  exact : table.Exact numItems numClasses capacity
  disjoint : table.extents.Pairwise Extent.Disjoint
  inside : ∀ extent ∈ table.extents, extent.Within table.clientArea
  itemsAligned : ∀ i < numItems.toNat, (table.itemsExtent.start + 64 * i) % cachelineSize = 0
  classesAligned : ∀ j < numClasses.toNat, (table.classesExtent.start + 64 * j) % cachelineSize = 0
  streamAligned : table.streamExtent.start % cachelineSize = 0
  schedItem : ∀ i address, table.schedItem i = some address →
    address.toNat = table.itemsExtent.start + 64 * i.toNat ∧
      Extent.Within ⟨address.toNat, 64⟩ table.itemsExtent
  workClass : ∀ j, 0 ≤ j.toInt → j.toNat < table.hdr.wcNum.toNat →
    (table.workClass j).toNat = table.classesExtent.start + 64 * j.toNat ∧
      Extent.Within ⟨(table.workClass j).toNat, 64⟩ table.classesExtent
  /-- The entry of the stream that the search for a free cell looks at. -/
  cell : ∀ idx i, (table.cell idx i).toNat =
      table.streamExtent.start + 4 + 4 * (@Stream.cellOf capacity idx i).val ∧
    Extent.Within ⟨(table.cell idx i).toNat, 4⟩ table.streamExtent

section Layout

variable {listing : List Fd} {pid : Int} {shmem : BitVec 64} {numItems numClasses : BitVec 32}
  {capacity : StreamCapacity} {table : PrioTable}

/-- What the constructor leaves behind. -/
structure PrioTable.Constructed (table : PrioTable) (numItems numClasses : BitVec 32)
    (capacity : StreamCapacity) (size : BitVec 64) : Prop where
  sized : size.toNat =
    64 + 64 * numItems.toNat + 64 * numClasses.toNat + (4 + 4 * capacity.value)
  fits : MapFits size
  fileSize : table.file.size = mapSize size
  clientSize : table.file.hdr.clientSize = Ghost.Shared.clientSize size
  hdr : table.hdr = prioTableHdr numItems numClasses (BitVec.ofNat 32 capacity.value) size

theorem prioTable_constructed
    (constructed : prioTable listing pid shmem numItems numClasses capacity = some table) :
    table.shmem = shmem ∧ ∃ size, table.Constructed numItems numClasses capacity size := by
  obtain ⟨size, sized, constructed⟩ := Option.bind_eq_some_iff.mp constructed
  cases created : createShmem listing pid kPrioTableVersion kPrioTableShmemName size with
  | error fault =>
      rw [created] at constructed
      cases constructed
  | ok file =>
      rw [created] at constructed
      obtain ⟨-, isTable⟩ := Option.ite_none_right_eq_some.mp constructed
      obtain ⟨-, fits, rfl⟩ := createShmem_eq_ok_iff.mp created
      cases isTable
      exact ⟨rfl, size, toNat_shmemSize sized, fits, rfl, rfl, rfl⟩

theorem PrioTable.Constructed.exact {size : BitVec 64}
    (constructed : table.Constructed numItems numClasses capacity size) :
    table.Exact numItems numClasses capacity := by
  obtain ⟨sized, fits, fileSize, isClient, isHdr⟩ := constructed
  have items := numItems.isLt
  have classes := numClasses.isLt
  have cap := capacity.value_le
  have noWrap : size.toNat + 4096 < 2 ^ 64 := by omega
  have small := fits.size_lt noWrap
  have client := fits.size_le_iff.mpr noWrap
  obtain ⟨hdrlen, siOff, wcOff, stOff⟩ :=
    @toNat_prioTableHdr numItems numClasses capacity size (by omega)
  refine ⟨?_, ?_, ?_, ?_, ?_, ?_, ?_, ?_, ?_, ?_⟩
  · rw [isHdr, prioTableHdr]
  · rw [isHdr, prioTableHdr]
  · rw [isHdr, prioTableHdr]
    exact capacity.toNat_value
  · rw [isHdr, hdrlen]
  · rw [isHdr, siOff]
  · rw [isHdr, wcOff]
  · rw [isHdr, stOff]
  · rw [isHdr, prioTableHdr, BitVec.toNat_setWidth]
    omega
  · rw [isClient]
    omega
  · rw [isClient, fileSize]
    exact fits.toNat_clientSize

/-- An element of an array, through a 32-bit index that is extended with its sign. -/
theorem toNat_element {first : BitVec 64} {count : Nat} {i : BitVec 32} (inside : i.toNat < count)
    (few : 64 * count < 2 ^ 32) (inMemory : first.toNat + 64 * count ≤ 2 ^ 64) :
    (first + i.signExtend 64 * 64).toNat = first.toNat + 64 * i.toNat := by
  have positive : i.msb = false := by
    rw [BitVec.msb_eq_false_iff_two_mul_lt]
    omega
  have scale : (64 : BitVec 64).toNat = 64 := by decide
  rw [BitVec.signExtend_eq_setWidth_of_msb_false positive, BitVec.toNat_add, BitVec.toNat_mul,
    BitVec.toNat_setWidth, scale]
  omega

namespace PrioTable

section Addresses

variable (exact : table.Exact numItems numClasses capacity)
  (mapped : Mapped table.shmem table.file.size)

include exact mapped

theorem toNat_bytes : table.bytes.toNat = table.shmem.toNat + 4096 := by
  have inMemory := mapped.inMemory
  have header : kHeaderReservedBytes.toNat = 4096 := by decide
  have inMap := exact.inMap
  have inClient := exact.inClient
  rw [bytes, BitVec.toNat_add, header]
  omega

/-- Offsets into the client area do not wrap. -/
theorem toNat_bytes_add {offset : BitVec 64}
    (inside : offset.toNat < table.file.hdr.clientSize.toNat) :
    (table.bytes + offset).toNat = table.shmem.toNat + 4096 + offset.toNat := by
  have inMemory := mapped.inMemory
  have inMap := exact.inMap
  rw [BitVec.toNat_add, toNat_bytes exact mapped]
  omega

theorem toNat_firstItem : table.firstItem.toNat = table.shmem.toNat + 4096 + 64 := by
  have inClient := exact.inClient
  have wide : (table.hdr.siOff.setWidth 64).toNat = 64 := by
    rw [BitVec.toNat_setWidth, exact.siOff]
  rw [firstItem, toNat_bytes_add exact mapped (by omega), wide]

theorem toNat_firstClass :
    table.firstClass.toNat = table.shmem.toNat + 4096 + (64 + 64 * numItems.toNat) := by
  have inClient := exact.inClient
  have isLt := table.hdr.wcOff.isLt
  have wide : (table.hdr.wcOff.setWidth 64).toNat = 64 + 64 * numItems.toNat := by
    rw [BitVec.toNat_setWidth, ← exact.wcOff]
    omega
  rw [firstClass, toNat_bytes_add exact mapped (by omega), wide]

theorem toNat_stream : table.stream.toNat =
    table.shmem.toNat + 4096 + (64 + 64 * numItems.toNat + 64 * numClasses.toNat) := by
  have inClient := exact.inClient
  have isLt := table.hdr.stOff.isLt
  have wide : (table.hdr.stOff.setWidth 64).toNat =
      64 + 64 * numItems.toNat + 64 * numClasses.toNat := by
    rw [BitVec.toNat_setWidth, ← exact.stOff]
    omega
  rw [stream, toNat_bytes_add exact mapped (by omega), wide]

/-- The four parts follow each other without gaps. -/
theorem extents_eq : table.extents =
    [⟨table.shmem.toNat + 4096, 64⟩, ⟨table.shmem.toNat + 4096 + 64, 64 * numItems.toNat⟩,
      ⟨table.shmem.toNat + 4096 + (64 + 64 * numItems.toNat), 64 * numClasses.toNat⟩,
      ⟨table.shmem.toNat + 4096 + (64 + 64 * numItems.toNat + 64 * numClasses.toNat),
        4 + 4 * capacity.value⟩] := by
  rw [extents, hdrExtent, itemsExtent, classesExtent, streamExtent, toNat_bytes exact mapped,
    toNat_firstItem exact mapped, toNat_firstClass exact mapped, toNat_stream exact mapped,
    exact.hdrlen, exact.siNum, exact.wcNum, exact.stCap]

theorem extents_disjoint : table.extents.Pairwise Extent.Disjoint := by
  rw [extents_eq exact mapped]
  simp only [List.pairwise_cons, List.mem_cons, List.not_mem_nil, or_false, forall_eq_or_imp,
    forall_eq, IsEmpty.forall_iff, implies_true, List.Pairwise.nil, and_true]
  refine ⟨⟨?_, ?_, ?_⟩, ⟨?_, ?_⟩, ?_⟩ <;> exact Extent.disjoint_of_le (by simp only; omega)

theorem extents_within : ∀ extent ∈ table.extents, extent.Within table.clientArea := by
  have inClient := exact.inClient
  rw [extents_eq exact mapped]
  simp only [List.mem_cons, List.not_mem_nil, or_false, forall_eq_or_imp, forall_eq,
    Extent.Within, clientArea, toNat_bytes exact mapped]
  omega

theorem schedItem_within {i : BitVec 32} {address : BitVec 64}
    (found : table.schedItem i = some address) :
    address.toNat = table.itemsExtent.start + 64 * i.toNat ∧
      Extent.Within ⟨address.toNat, 64⟩ table.itemsExtent := by
  obtain ⟨inside, isAddress⟩ := Option.ite_none_right_eq_some.mp found
  have isFirst := toNat_firstItem exact mapped
  have siNum : table.hdr.siNum.toNat = numItems.toNat := by rw [exact.siNum]
  have inClient := exact.inClient
  have inMap := exact.inMap
  have inMemory := mapped.inMemory
  have limit := table.hdr.stOff.isLt
  have stOff := exact.stOff
  have element : address.toNat = table.firstItem.toNat + 64 * i.toNat := by
    rw [← Option.some.inj isAddress]
    exact toNat_element inside (by omega) (by omega)
  refine ⟨element, ?_⟩
  simp only [Extent.Within, itemsExtent]
  omega

theorem workClass_within {j : BitVec 32} (inside : j.toNat < table.hdr.wcNum.toNat) :
    (table.workClass j).toNat = table.classesExtent.start + 64 * j.toNat ∧
      Extent.Within ⟨(table.workClass j).toNat, 64⟩ table.classesExtent := by
  have isFirst := toNat_firstClass exact mapped
  have wcNum : table.hdr.wcNum.toNat = numClasses.toNat := by rw [exact.wcNum]
  have inClient := exact.inClient
  have inMap := exact.inMap
  have inMemory := mapped.inMemory
  have limit := table.hdr.stOff.isLt
  have stOff := exact.stOff
  have element : (table.workClass j).toNat = table.firstClass.toNat + 64 * j.toNat :=
    toNat_element inside (by omega) (by omega)
  refine ⟨element, ?_⟩
  simp only [Extent.Within, classesExtent]
  omega

theorem cell_within (idx : Int) (i : Nat) :
    (table.cell idx i).toNat =
        table.streamExtent.start + 4 + 4 * (@Stream.cellOf capacity idx i).val ∧
      Extent.Within ⟨(table.cell idx i).toNat, 4⟩ table.streamExtent := by
  have isStream := toNat_stream exact mapped
  have inClient := exact.inClient
  have inMap := exact.inMap
  have inMemory := mapped.inMemory
  have stCap := exact.stCap
  have small := capacity.value_le
  have inside := (@Stream.cellOf capacity idx i).isLt
  have isCell : ((idx + i) % 2 ^ 32).toNat % table.hdr.stCap.toNat =
      (@Stream.cellOf capacity idx i).val := by
    rw [stCap]
    rfl
  have counter : sizeofStream.toNat = 4 := by decide
  have entry : sizeofEntry.toNat = 4 := by decide
  have address : (table.cell idx i).toNat =
      table.stream.toNat + 4 + 4 * (@Stream.cellOf capacity idx i).val := by
    rw [cell, isCell, BitVec.toNat_add, BitVec.toNat_add, BitVec.toNat_mul, BitVec.toNat_ofNat,
      counter, entry]
    omega
  refine ⟨address, ?_⟩
  simp only [Extent.Within, streamExtent]
  omega

end Addresses

end PrioTable

/-- Whenever the constructor completes, the table is laid out as meant. -/
theorem prioTable_laidOut
    (constructed : prioTable listing pid shmem numItems numClasses capacity = some table)
    (mapped : Mapped shmem table.file.size) : table.LaidOut numItems numClasses capacity := by
  obtain ⟨rfl, size, constructed⟩ := prioTable_constructed constructed
  have exact := constructed.exact
  have pages := mapped.aligned
  refine ⟨exact, PrioTable.extents_disjoint exact mapped, PrioTable.extents_within exact mapped,
    ?_, ?_, ?_, ?_, ?_, ?_⟩
  · intro i _
    have isFirst := PrioTable.toNat_firstItem exact mapped
    rw [cachelineSize, PrioTable.itemsExtent]
    simp only [isFirst]
    omega
  · intro j _
    have isFirst := PrioTable.toNat_firstClass exact mapped
    rw [cachelineSize, PrioTable.classesExtent]
    simp only [isFirst]
    omega
  · have isStream := PrioTable.toNat_stream exact mapped
    rw [cachelineSize, PrioTable.streamExtent]
    simp only [isStream]
    omega
  · intro i address found
    exact PrioTable.schedItem_within exact mapped found
  · intro j _ inside
    exact PrioTable.workClass_within exact mapped inside
  · intro idx i
    exact PrioTable.cell_within exact mapped idx i

end Layout

/-- Three items and two classes, mapped at `2 ^ 30`. -/
def smallTable : PrioTable :=
  ⟨regionFile 7 kPrioTableShmemName 432 false, BitVec.ofNat 64 (2 ^ 30), prioTableHdr 3 2 11 432⟩

theorem smallTable_laidOut : smallTable.LaidOut 3 2 .kStreamCapacity11 := by
  have constructed :
      prioTable [] 7 (BitVec.ofNat 64 (2 ^ 30)) 3 2 .kStreamCapacity11 = some smallTable := rfl
  exact prioTable_laidOut constructed ⟨by decide, by decide⟩

end Ghost.Shared
