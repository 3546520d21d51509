import Ghost.Shared.Shmem

/-!
# Creating and attaching

What the creator leaves in a region against what a client looks for, by name and by version.
-/

set_option autoImplicit false

namespace Ghost.Shared

open Lib

/-! ## Sizes -/

private theorem toNat_mapSize (size : BitVec 64) : (mapSize size).toNat =
    ((size.toNat + 4096) % 2 ^ 64 + (2 ^ 21 - 1)) % 2 ^ 64 / 2 ^ 21 * 2 ^ 21 := by
  have power : kHugepageSize = BitVec.twoPow 64 21 := by decide
  have less : (kHugepageSize - 1).toNat = 2 ^ 21 - 1 := by decide
  have header : kHeaderReservedBytes.toNat = 4096 := by decide
  have rounded := toNat_and_not_twoPow_sub_one (by decide : 21 < 64)
    (size + kHeaderReservedBytes + (kHugepageSize - 1))
  rw [← power] at rounded
  rw [mapSize, roundup2, rounded, BitVec.toNat_add, BitVec.toNat_add, less, header]

/-- What passes the checks of a creation. -/
structure MapFits (size : BitVec 64) : Prop where
  limit : (mapSize size).toNat ≤ 2 ^ 32 - 1
  nonempty : mapSize size ≠ 0

def clientSize (size : BitVec 64) : BitVec 64 := mapSize size - kHeaderReservedBytes

theorem MapFits.toNat_clientSize {size : BitVec 64} (fits : MapFits size) :
    (clientSize size).toNat + 4096 = (mapSize size).toNat := by
  have rounded := toNat_mapSize size
  have nonzero : (mapSize size).toNat ≠ 0 :=
    fun isZero => fits.nonempty (BitVec.toNat_inj.mp isZero)
  have header : kHeaderReservedBytes.toNat = 4096 := by decide
  rw [clientSize, BitVec.toNat_sub_of_le (by rw [BitVec.le_def, header]; omega), header]
  omega

/-- The client area is as large as requested unless the addition of the header wraps. -/
theorem MapFits.size_le_iff {size : BitVec 64} (fits : MapFits size) :
    size.toNat ≤ (clientSize size).toNat ↔ size.toNat + 4096 < 2 ^ 64 := by
  have rounded := toNat_mapSize size
  have client := fits.toNat_clientSize
  have limit := fits.limit
  have isLt := size.isLt
  omega

/-! ## Names -/

/-- The file of a region, before and after it is marked ready. -/
def regionFile (pid : Int) (suffix : List Char) (size : BitVec 64) (ready : Bool) : MemFd :=
  ⟨kMemFdPrefix ++ suffix, mapSize size, ⟨kHeaderVersion, mapSize size, kHeaderReservedBytes,
    clientSize size, ready, false, pid, 0⟩⟩

section Names

variable {pid : Int} {suffix other : List Char} {size : BitVec 64} {ready : Bool}

/-- The needle matches whatever goes on behind it. -/
theorem needle_prefix_regionFile :
    needle suffix <+: (regionFile pid other size ready).link ↔ suffix <+: other ++ deletedMark := by
  have aligned : (regionFile pid other size ready).link =
      memfdMark ++ kMemFdPrefix ++ (other ++ deletedMark) := by
    simp only [MemFd.link, regionFile, List.append_assoc]
  rw [aligned, needle, List.prefix_append_right_inj]

theorem createShmem_eq_ok_iff {listing : List Fd} {clientVersion : BitVec 64} {file : MemFd} :
    createShmem listing pid clientVersion suffix size = .ok file ↔
      openGhostShmemFd listing suffix = none ∧ MapFits size ∧
        file = regionFile pid suffix size false := by
  rw [createShmem]
  split
  · next taken =>
      rw [Option.isSome_iff_ne_none] at taken
      simp [taken]
  · next free =>
      rw [Option.not_isSome_iff_eq_none] at free
      split
      · next large =>
          constructor
          · intro failed
            cases failed
          · rintro ⟨-, fits, -⟩
            exact absurd fits.limit (by omega)
      · next limit =>
          split
          · next empty =>
              constructor
              · intro failed
                cases failed
              · rintro ⟨-, fits, -⟩
                exact absurd empty fits.nonempty
          · next nonempty =>
              constructor
              · intro created
                cases created
                exact ⟨free, ⟨by omega, nonempty⟩, rfl⟩
              · rintro ⟨-, -, rfl⟩
                rfl

private theorem connect_regionFile (fits : MapFits size) (clientVersion : BitVec 64) :
    connect (regionFile pid suffix size true) clientVersion pid =
      if clientVersion = 0 then .connected (regionFile pid suffix size true)
      else .fails .clientVersion := by
  have nonempty : (regionFile pid suffix size true).size ≠ 0 := fits.nonempty
  rw [connect, if_neg nonempty, if_neg (by simp [regionFile]), if_neg (by simp [regionFile])]
  by_cases isZero : clientVersion = 0
  · rw [if_pos isZero, if_neg (by simp [regionFile, isZero]), if_neg (by simp [regionFile]),
      if_neg (by simp [regionFile]), if_neg (by simp [regionFile])]
  · have differs : (regionFile pid suffix size true).hdr.clientVersion ≠ clientVersion :=
      Ne.symm isZero
    rw [if_neg isZero, if_pos differs]

end Names

/-! ## The hosting process -/

structure Region.Created (pid : Int) (region : Region) : Prop where
  fits : MapFits region.size
  file : ∃ ready, region.file = regionFile pid region.suffix region.size ready

structure Host.Sound (host : Host) : Prop where
  created : ∀ region ∈ host.regions, region.Created host.pid
  unique : ∀ region ∈ host.regions, ∀ other ∈ host.regions, region.suffix = other.suffix →
    region = other

section Listings

variable {host : Host} {listing : List Fd} {suffix : List Char}

private theorem Region.Created.matched_iff {pid : Int} {region : Region}
    (created : region.Created pid) :
    (needle suffix).isPrefixOf (Fd.region region.file).link = true ↔
      suffix <+: region.suffix ++ deletedMark := by
  obtain ⟨ready, isFile⟩ := created.file
  rw [List.isPrefixOf_iff_prefix, Fd.link, isFile, needle_prefix_regionFile]

private theorem Host.Lists.mem_region (lists : host.Lists listing) {region : Region}
    (member : region ∈ host.regions) : .region region.file ∈ listing := by
  obtain ⟨others, -, order⟩ := lists
  exact order.mem_iff.mpr (List.mem_append_left _
    (List.mem_map_of_mem (f := fun region => Fd.region region.file) member))

/-- Whatever is found is a region whose link goes on like the suffix. -/
theorem Host.Lists.found (lists : host.Lists listing) (sound : host.Sound) {fd : Fd}
    (found : openGhostShmemFd listing suffix = some fd) :
    ∃ region ∈ host.regions, fd = .region region.file ∧
      suffix <+: region.suffix ++ deletedMark := by
  have matched := List.find?_some found
  have member := List.mem_of_find?_eq_some found
  obtain ⟨others, apart, order⟩ := lists
  rcases List.mem_append.mp (order.mem_iff.mp member) with isRegion | isOther
  · obtain ⟨region, inside, rfl⟩ := List.mem_map.mp isRegion
    exact ⟨region, inside, rfl, (sound.created region inside).matched_iff.mp matched⟩
  · obtain ⟨link, inside, rfl⟩ := List.mem_map.mp isOther
    have startsSo : memfdMark ++ kMemFdPrefix <+: link :=
      (List.prefix_append _ suffix).trans (List.isPrefixOf_iff_prefix.mp matched)
    exact absurd startsSo (apart link inside)

/-- A region whose link goes on like the suffix is not passed over. -/
theorem Host.Lists.isSome (lists : host.Lists listing) (sound : host.Sound) {region : Region}
    (member : region ∈ host.regions) (goesOn : suffix <+: region.suffix ++ deletedMark) :
    (openGhostShmemFd listing suffix).isSome = true := by
  rw [openGhostShmemFd, List.find?_isSome]
  exact ⟨.region region.file, lists.mem_region member,
    (sound.created region member).matched_iff.mpr goesOn⟩

/-- Any matching region comes first in some order. -/
theorem exists_listing_found (sound : host.Sound) {region : Region}
    (member : region ∈ host.regions) (goesOn : suffix <+: region.suffix ++ deletedMark) :
    ∃ listing, host.Lists listing ∧
      openGhostShmemFd listing suffix = some (.region region.file) := by
  have order := List.perm_cons_erase member
  refine ⟨.region region.file :: (host.regions.erase region).map fun other => .region other.file,
    ⟨[], by simp, ?_⟩, ?_⟩
  · rw [List.map_nil, List.append_nil]
    exact (order.map fun other => Fd.region other.file).symm
  · exact List.find?_cons_of_pos ((sound.created region member).matched_iff.mpr goesOn)

private theorem Region.Created.markReady {pid : Int} {region : Region}
    (created : region.Created pid) :
    region.markReady.Created pid := by
  obtain ⟨ready, isFile⟩ := created.file
  refine ⟨created.fits, true, ?_⟩
  rw [Region.markReady, isFile]
  rfl

theorem Host.Sound.step {next : Host} {action : HostAction} (sound : host.Sound)
    (moved : host.Step action next) : next.Sound := by
  cases moved with
  | @create listing clientVersion suffix size file lists created =>
      obtain ⟨free, fits, rfl⟩ := createShmem_eq_ok_iff.mp created
      have absent : ∀ region ∈ host.regions, region.suffix ≠ suffix := by
        intro region member same
        have taken := lists.isSome sound member (same ▸ List.prefix_append suffix deletedMark)
        rw [same, free] at taken
        cases taken
      constructor
      · intro region member
        rcases List.mem_cons.mp member with rfl | earlier
        · exact ⟨fits, false, rfl⟩
        · exact sound.created region earlier
      · intro region member other otherMember same
        rcases List.mem_cons.mp member with rfl | earlier
        · rcases List.mem_cons.mp otherMember with rfl | otherEarlier
          · rfl
          · exact absurd same.symm (absent other otherEarlier)
        · rcases List.mem_cons.mp otherMember with rfl | otherEarlier
          · exact absurd same (absent region earlier)
          · exact sound.unique region earlier other otherEarlier same
  | @markReady suffix =>
      have sameSuffix : ∀ region : Region,
          (if region.suffix = suffix then region.markReady else region).suffix =
            region.suffix := by
        intro region
        split <;> rfl
      constructor
      · intro region member
        obtain ⟨before, inside, rfl⟩ := List.mem_map.mp member
        split
        · exact (sound.created before inside).markReady
        · exact sound.created before inside
      · intro region member other otherMember same
        obtain ⟨before, inside, rfl⟩ := List.mem_map.mp member
        obtain ⟨otherBefore, otherInside, rfl⟩ := List.mem_map.mp otherMember
        rw [sameSuffix, sameSuffix] at same
        rw [sound.unique before inside otherBefore otherInside same]
  | destroy =>
      exact ⟨fun region member => sound.created region (List.mem_of_mem_filter member),
        fun region member other otherMember => sound.unique region (List.mem_of_mem_filter member)
          other (List.mem_of_mem_filter otherMember)⟩

theorem hosts_sound (reachable : hosts.Reachable host) : host.Sound := by
  refine reachable.invariant Host.Sound ?_ fun _ _ _ sound moved => sound.step moved
  intro first empty
  constructor
  · intro region member
    rw [empty] at member
    cases member
  · intro region member
    rw [empty] at member
    cases member

end Listings

/-! ## Agreement -/

section Agreement

variable {host : Host} {suffix : List Char} {clientVersion : BitVec 64}

/-- Creator and client agree on a name and a version, in whatever order the directory lists. -/
structure Agrees (host : Host) (suffix : List Char) (clientVersion : BitVec 64) : Prop where
  finds : ∀ listing, host.Lists listing → ∀ region ∈ host.regions, region.suffix = suffix →
    openGhostShmemFd listing suffix = some (.region region.file)
  version : ∀ listing, host.Lists listing → ∀ region ∈ host.regions, region.suffix = suffix →
    connectShmem listing clientVersion suffix host.pid =
      if clientVersion = region.clientVersion then .connected region.file
      else .fails .clientVersion
  absent : (∀ region ∈ host.regions, region.suffix ≠ suffix) → ∀ listing, host.Lists listing →
    connectShmem listing clientVersion suffix host.pid = .returnsFalse
  /-- The `size()` of the connected region. -/
  size : ∀ region ∈ host.regions, region.suffix = suffix →
    region.size.toNat ≤ region.file.hdr.clientSize.toNat
  unique : ∀ listing, host.Lists listing → ∀ size,
    createShmem listing host.pid clientVersion suffix size = .error .suffixTaken →
    ∃ region ∈ host.regions, region.suffix = suffix

/-- No other name goes on like the suffix, the version in the header is as good as the one asked
for, and the header fits in front of the requested size. -/
structure Agreeable (host : Host) (suffix : List Char) (clientVersion : BitVec 64) : Prop where
  apart : ∀ region ∈ host.regions, suffix <+: region.suffix ++ deletedMark →
    region.suffix = suffix
  version : ∀ region ∈ host.regions, region.suffix = suffix →
    (clientVersion = 0 ↔ clientVersion = region.clientVersion)
  size : ∀ region ∈ host.regions, region.suffix = suffix → region.size.toNat + 4096 < 2 ^ 64

private theorem createShmem_eq_suffixTaken_iff {listing : List Fd} {pid : Int} {size : BitVec 64} :
    createShmem listing pid clientVersion suffix size = .error .suffixTaken ↔
      (openGhostShmemFd listing suffix).isSome = true := by
  rw [createShmem]
  split
  · next taken => simp [taken]
  · next free =>
      refine iff_of_false ?_ free
      intro failed
      split at failed
      · cases failed
      · split at failed <;> cases failed

private theorem Agreeable.found (agreeable : Agreeable host suffix clientVersion)
    (sound : host.Sound)
    {listing : List Fd} (lists : host.Lists listing) {fd : Fd}
    (found : openGhostShmemFd listing suffix = some fd) :
    ∃ region ∈ host.regions, fd = .region region.file ∧ region.suffix = suffix := by
  obtain ⟨region, member, isRegion, goesOn⟩ := lists.found sound found
  exact ⟨region, member, isRegion, agreeable.apart region member goesOn⟩

private theorem Agreeable.finds (agreeable : Agreeable host suffix clientVersion)
    (sound : host.Sound)
    {listing : List Fd} (lists : host.Lists listing) {region : Region}
    (member : region ∈ host.regions) (isSuffix : region.suffix = suffix) :
    openGhostShmemFd listing suffix = some (.region region.file) := by
  have goesOn : suffix <+: region.suffix ++ deletedMark :=
    isSuffix ▸ List.prefix_append suffix deletedMark
  obtain ⟨fd, found⟩ := Option.isSome_iff_exists.mp (lists.isSome sound member goesOn)
  obtain ⟨other, otherMember, rfl, otherSuffix⟩ := agreeable.found sound lists found
  rw [found, sound.unique region member other otherMember (isSuffix.trans otherSuffix.symm)]

private theorem Region.Created.connect {pid : Int} {region : Region} (created : region.Created pid)
    (ready : region.file.hdr.ready = true) (clientVersion : BitVec 64) :
    connect region.file clientVersion pid =
      if clientVersion = 0 then .connected region.file else .fails .clientVersion := by
  obtain ⟨isReady, isFile⟩ := created.file
  rw [isFile] at ready ⊢
  obtain rfl : isReady = true := ready
  exact connect_regionFile created.fits clientVersion

private theorem Region.Created.name {pid : Int} {region : Region} (created : region.Created pid) :
    region.file.name = kMemFdPrefix ++ region.suffix := by
  obtain ⟨ready, isFile⟩ := created.file
  rw [isFile]
  rfl

private theorem Region.Created.clientSize_eq {pid : Int} {region : Region}
    (created : region.Created pid) :
    region.file.hdr.clientSize = clientSize region.size := by
  obtain ⟨ready, isFile⟩ := created.file
  rw [isFile]
  rfl

private theorem Agreeable.agrees (agreeable : Agreeable host suffix clientVersion)
    (sound : host.Sound)
    (ready : ∀ region ∈ host.regions, region.suffix = suffix → region.file.hdr.ready = true) :
    Agrees host suffix clientVersion where
  finds _ lists _ member isSuffix := agreeable.finds sound lists member isSuffix
  version listing lists region member isSuffix := by
    have connected := (sound.created region member).connect (ready region member isSuffix)
      clientVersion
    rw [connectShmem, agreeable.finds sound lists member isSuffix]
    simp only [connected, agreeable.version region member isSuffix]
  absent none listing lists := by
    cases found : openGhostShmemFd listing suffix with
    | none => rw [connectShmem, found]
    | some fd =>
        obtain ⟨region, member, -, isSuffix⟩ := agreeable.found sound lists found
        exact absurd isSuffix (none region member)
  size region member isSuffix := by
    have created := sound.created region member
    rw [created.clientSize_eq, created.fits.size_le_iff]
    exact agreeable.size region member isSuffix
  unique listing lists size taken := by
    obtain ⟨fd, found⟩ := Option.isSome_iff_exists.mp (createShmem_eq_suffixTaken_iff.mp taken)
    obtain ⟨region, member, -, isSuffix⟩ := agreeable.found sound lists found
    exact ⟨region, member, isSuffix⟩

private theorem Agrees.apart (agrees : Agrees host suffix clientVersion) (sound : host.Sound)
    {region : Region} (member : region ∈ host.regions)
    (goesOn : suffix <+: region.suffix ++ deletedMark) : region.suffix = suffix := by
  obtain ⟨listing, lists, found⟩ := exists_listing_found sound member goesOn
  have taken : createShmem listing host.pid clientVersion suffix 0 = .error .suffixTaken := by
    rw [createShmem_eq_suffixTaken_iff, found]
    rfl
  obtain ⟨named, namedMember, isSuffix⟩ := agrees.unique listing lists 0 taken
  have sameFile : region.file = named.file := by
    have same := agrees.finds listing lists named namedMember isSuffix
    rw [found] at same
    exact Fd.region.inj (Option.some.inj same)
  have sameName : kMemFdPrefix ++ region.suffix = kMemFdPrefix ++ named.suffix := by
    rw [← (sound.created region member).name, sameFile, (sound.created named namedMember).name]
  exact (List.append_cancel_left sameName).trans isSuffix

private theorem Agrees.version_iff (agrees : Agrees host suffix clientVersion) (sound : host.Sound)
    {region : Region} (member : region ∈ host.regions) (isSuffix : region.suffix = suffix)
    (ready : region.file.hdr.ready = true) :
    clientVersion = 0 ↔ clientVersion = region.clientVersion := by
  have goesOn : suffix <+: region.suffix ++ deletedMark :=
    isSuffix ▸ List.prefix_append suffix deletedMark
  obtain ⟨listing, lists, found⟩ := exists_listing_found sound member goesOn
  have asked := agrees.version listing lists region member isSuffix
  rw [connectShmem, found] at asked
  simp only [(sound.created region member).connect ready clientVersion] at asked
  by_cases isZero : clientVersion = 0
  · by_cases isVersion : clientVersion = region.clientVersion
    · exact iff_of_true isZero isVersion
    · rw [if_pos isZero, if_neg isVersion] at asked
      cases asked
  · by_cases isVersion : clientVersion = region.clientVersion
    · rw [if_neg isZero, if_pos isVersion] at asked
      cases asked
    · exact iff_of_false isZero isVersion

/-- Creator and client agree exactly if no name goes on like another, the version is 0 or
refused anyway, and the size leaves room for the header. -/
theorem agrees_iff (reachable : hosts.Reachable host)
    (ready : ∀ region ∈ host.regions, region.suffix = suffix → region.file.hdr.ready = true) :
    Agrees host suffix clientVersion ↔ Agreeable host suffix clientVersion := by
  have sound := hosts_sound reachable
  constructor
  · intro agrees
    refine ⟨fun region member goesOn => agrees.apart sound member goesOn, ?_, ?_⟩
    · intro region member isSuffix
      exact agrees.version_iff sound member isSuffix (ready region member isSuffix)
    · intro region member isSuffix
      have created := sound.created region member
      have large := agrees.size region member isSuffix
      rwa [created.clientSize_eq, created.fits.size_le_iff] at large
  · intro agreeable
    exact agreeable.agrees sound ready

end Agreement

/-! ## Names and versions that do not agree -/

def blobOne : List Char := "blob-1".toList

def blobTen : List Char := "blob-10".toList

def tableSuffix : List Char := "priotable".toList

/-- Process 7 hosts two blobs, and a table of version 1. -/
def threeRegions : Host :=
  ⟨7, [⟨1, tableSuffix, 100, regionFile 7 tableSuffix 100 true⟩,
    ⟨0, blobTen, 100, regionFile 7 blobTen 100 true⟩,
    ⟨0, blobOne, 100, regionFile 7 blobOne 100 true⟩]⟩

def Host.listing (host : Host) : List Fd := host.regions.map fun region => .region region.file

private theorem Host.lists_listing (host : Host) : host.Lists host.listing :=
  ⟨[], by simp, by simp [Host.listing]⟩

theorem threeRegions_reachable : hosts.Reachable threeRegions := by
  have fits : MapFits 100 := ⟨by decide, by decide⟩
  have created : ∀ (host : Host) (clientVersion : BitVec 64) (suffix : List Char),
      openGhostShmemFd host.listing suffix = none → hosts.step host
        (.create host.listing clientVersion suffix 100) { host with
          regions := ⟨clientVersion, suffix, 100, regionFile host.pid suffix 100 false⟩ ::
            host.regions } :=
    fun host _ _ free => .create host.lists_listing (createShmem_eq_ok_iff.mpr ⟨free, fits, rfl⟩)
  exact ⟨⟨7, []⟩, _, rfl, .cons (created _ 0 blobOne rfl) (.cons (created _ 0 blobTen rfl)
    (.cons (created _ 1 tableSuffix rfl) (.cons (@Host.Step.markReady _ blobOne)
    (.cons (@Host.Step.markReady _ blobTen) (.cons (@Host.Step.markReady _ tableSuffix)
    (.nil threeRegions))))))⟩

/-- The tenth blob is found. -/
theorem agrees_blobTen : Agrees threeRegions blobTen 0 := by
  refine (agrees_iff threeRegions_reachable ?_).mpr ⟨?_, ?_, ?_⟩ <;> decide

/-- The first blob is taken for the tenth, the version of the table is refused, and a size that
wraps gets a region that is smaller. -/
theorem threeRegions_disagree :
    (∃ listing, threeRegions.Lists listing ∧ openGhostShmemFd listing blobOne =
      some (.region (regionFile 7 blobTen 100 true))) ∧
    (∃ listing, threeRegions.Lists listing ∧
      connectShmem listing 1 tableSuffix 7 = .fails .clientVersion) ∧
    ¬ Agrees threeRegions blobOne 0 ∧ ¬ Agrees threeRegions tableSuffix 1 ∧
    ∃ size, MapFits size ∧ clientSize size < size := by
  have lists := threeRegions.lists_listing
  have found : openGhostShmemFd threeRegions.listing blobOne =
      some (.region (regionFile 7 blobTen 100 true)) := by decide
  have refused : connectShmem threeRegions.listing 1 tableSuffix 7 = .fails .clientVersion := by
    decide
  refine ⟨⟨_, lists, found⟩, ⟨_, lists, refused⟩, ?_, ?_, ?_⟩
  · intro agrees
    have first := agrees.finds _ lists ⟨0, blobOne, 100, regionFile 7 blobOne 100 true⟩
      (by simp [threeRegions]) rfl
    exact absurd (found.symm.trans first) (by decide)
  · intro agrees
    have accepted := agrees.version _ lists ⟨1, tableSuffix, 100, regionFile 7 tableSuffix 100 true⟩
      (by simp [threeRegions]) rfl
    exact absurd (refused.symm.trans accepted) (by decide)
  · exact ⟨BitVec.ofNat 64 (2 ^ 64 - 4095), ⟨by decide, by decide⟩, by decide⟩

end Ghost.Shared
