import Ghost.Topology.HostProperties
import Ghost.Lib.Pairing

/-!
# The topology as BPF programs see it

The helpers of `third_party/bpf/topology.bpf.h` compute the sibling, the core and the
node of a CPU from a few numbers that `SetBpfTopologyVars` writes. The numbers are
small, and a `__u32` is a `Nat`; in BPF a remainder by zero is the dividend, as it is
here.
-/

set_option autoImplicit false
set_option linter.dupNamespace false

namespace Ghost.Topology

open Lib

/-- The variables of the `rodata` map. -/
structure Rodata where
  nrCpus : Nat
  nrSiblingsPerCore : Nat
  nrCcx : Nat
  nrNuma : Nat
  highestNodeIdx : Nat
  consecutiveSmtNumbering : Bool
  nrCores : Nat
  nrCoresPerNuma : Nat

namespace Rodata

variable (rodata : Rodata)

def siblingOf (cpu : Nat) : Nat :=
  if rodata.nrSiblingsPerCore = 1 then cpu
  else if rodata.consecutiveSmtNumbering then
    if cpu % 2 = 0 then cpu + 1 else cpu - 1
  else
    if rodata.nrCores ≤ cpu then cpu - rodata.nrCores else cpu + rodata.nrCores

def coreOf (cpu : Nat) : Nat :=
  if rodata.nrSiblingsPerCore = 2 then
    if rodata.consecutiveSmtNumbering then
      if cpu % 2 = 0 then cpu else cpu - 1
    else
      if rodata.nrCores ≤ cpu then cpu - rodata.nrCores else cpu
  else cpu % rodata.nrCores

def numaNodeOf (cpu : Nat) : Nat :=
  let coreId := rodata.coreOf cpu
  if rodata.nrNuma ≤ 2 then
    if rodata.nrCoresPerNuma ≤ coreId then 1 else 0
  else coreId / rodata.nrCoresPerNuma

end Rodata

/-- An `int` as a `uint32_t`. -/
def toUint32 (value : Int) : Nat := (value % 2 ^ 32).toNat

/-- An unsigned division in userspace. -/
def divide (dividend divisor : Nat) : Except Fault Nat :=
  if divisor = 0 then .error .undefinedBehaviour else .ok (dividend / divisor)

namespace Topology

def smtCount (topology : Topology) : Except Fault Nat := do
  let first ← topology.rep (.rep 0)
  .ok first.siblings.size.toNat

def numNumaNodes (topology : Topology) : Nat := toUint32 (topology.highestNodeIdx + 1)

/-- `num_ccxs`, which is not computed. -/
def numCcxs (_ : Topology) : Nat := 0

def setBpfTopologyVars (topology : Topology) : Except Fault Rodata := do
  let smtPerCore ← topology.smtCount
  let nrCores ← divide topology.numCpus smtPerCore
  let nrCoresPerNuma ← divide nrCores topology.numNumaNodes
  .ok
    { nrCpus := topology.numCpus
      nrSiblingsPerCore := smtPerCore
      nrCcx := topology.numCcxs
      nrNuma := topology.numNumaNodes
      highestNodeIdx := toUint32 topology.highestNodeIdx
      consecutiveSmtNumbering := topology.consecutiveSmtNumbering
      nrCores := nrCores
      nrCoresPerNuma := nrCoresPerNuma }

/-- The variables of a topology whose first core has `smtPerCore` siblings. -/
def vars (topology : Topology) (smtPerCore : Nat) : Rodata :=
  { nrCpus := topology.numCpus
    nrSiblingsPerCore := smtPerCore
    nrCcx := topology.numCcxs
    nrNuma := topology.numNumaNodes
    highestNodeIdx := toUint32 topology.highestNodeIdx
    consecutiveSmtNumbering := topology.consecutiveSmtNumbering
    nrCores := topology.numCpus / smtPerCore
    nrCoresPerNuma := topology.numCpus / smtPerCore / topology.numNumaNodes }

theorem setBpfTopologyVars_eq {topology : Topology} {first : CpuRep} {smtPerCore : Nat}
    (isFirst : topology.rep (.rep 0) = .ok first)
    (isCount : first.siblings.size.toNat = smtPerCore) (some : 0 < smtPerCore)
    (nodes : 0 < topology.numNumaNodes) :
    topology.setBpfTopologyVars = .ok (topology.vars smtPerCore) := by
  have counts : topology.smtCount = .ok smtPerCore :=
    bind_eq_ok_iff.mpr ⟨first, isFirst, congrArg _ isCount⟩
  simp only [setBpfTopologyVars, bind_eq_ok_iff]
  exact ⟨smtPerCore, counts, _, if_neg some.ne', _, if_neg nodes.ne', rfl⟩

/-! ## The numbering -/

section Numbering

variable {topology : Topology} {first : CpuRep}

theorem numbering_single (isFirst : topology.rep (.rep 0) = .ok first)
    (within : first.siblings.Within) (alone : first.siblings.setCpus = [0])
    {flag : Bool} (returns : topology.checkConsecutiveSmtNumbering = .ok flag) :
    first.siblings.size.toNat = 1 ∧ flag = false := by
  have size : first.siblings.size.toNat = 1 := by
    rw [CpuMap.size_toNat within, alone]
    rfl
  simp only [checkConsecutiveSmtNumbering, bind_eq_ok_iff] at returns
  obtain ⟨first', isFirst', rest⟩ := returns
  cases isFirst.symm.trans isFirst'
  rw [if_pos (by intro same; rw [same] at size; cases size), bind_eq_ok_iff] at rest
  obtain ⟨⟨⟩, -, same⟩ := rest
  exact ⟨size, (Except.ok.inj same).symm⟩

/-- The offset of the siblings of the first core is one, or the number of cores. -/
theorem numbering_pair {upper : CpuRep} {offset : Nat}
    (isFirst : topology.rep (.rep 0) = .ok first) (firstCpu : first.cpu = 0)
    (isUpper : topology.rep (.rep offset) = .ok upper) (upperCpu : upper.cpu = offset)
    (within : first.siblings.Within) (both : first.siblings.setCpus = [0, offset])
    {flag : Bool} (returns : topology.checkConsecutiveSmtNumbering = .ok flag) :
    first.siblings.size.toNat = 2 ∧
    (offset = 1 ∧ flag = true ∨
      offset ≠ 1 ∧ flag = false ∧ ∃ allCores, topology.cores topology.allCpus = .ok allCores ∧
        offset = allCores.size.toNat) := by
  have size : first.siblings.size.toNat = 2 := by
    rw [CpuMap.size_toNat within, both]
    rfl
  have lowest : first.siblings.getNthCpu 0 = .rep 0 := by
    rw [CpuMap.getNthCpu_eq within, both]
    rfl
  have highest : first.siblings.getNthCpu 1 = .rep offset := by
    rw [CpuMap.getNthCpu_eq within, both]
    rfl
  refine ⟨size, ?_⟩
  simp only [checkConsecutiveSmtNumbering, bind_eq_ok_iff] at returns
  obtain ⟨first', isFirst', rest⟩ := returns
  cases isFirst.symm.trans isFirst'
  rw [if_neg (not_not.mpr (BitVec.eq_of_toNat_eq size))] at rest
  simp only [bind_eq_ok_iff, lowest, highest] at rest
  obtain ⟨lower, isLower, upper', isUpper', rest⟩ := rest
  cases isFirst.symm.trans isLower
  cases isUpper.symm.trans isUpper'
  have distance : (first.cpu - upper.cpu).natAbs = offset := by
    rw [firstCpu, upperCpu]
    omega
  rw [distance] at rest
  by_cases next : offset = 1
  · rw [if_pos next] at rest
    exact .inl ⟨next, (Except.ok.inj rest).symm⟩
  · rw [if_neg next] at rest
    simp only [bind_eq_ok_iff] at rest
    obtain ⟨allCores, isCores, ⟨⟩, asMany, same⟩ := rest
    exact .inr ⟨next, (Except.ok.inj same).symm, allCores, isCores, check_eq_ok_iff.mp asMany⟩

end Numbering

/-! ## Agreement with the topology -/

/-- `other` is the other member of the list of `cpu`, or `cpu` itself if it is alone. -/
def OtherMember (siblings : CpuMap) (cpu other : Nat) : Prop :=
  ∀ id, id ∈ siblings.setCpus ↔ id = cpu ∨ id = other

/-- The helpers return the sibling and the core of each CPU. -/
def HelpersAgree (topology : Topology) : Prop :=
  ∃ rodata, topology.setBpfTopologyVars = .ok rodata ∧
    ∀ cpu < topology.numCpus, ∃ rep, topology.rep (.rep cpu) = .ok rep ∧
      OtherMember rep.siblings cpu (rodata.siblingOf cpu) ∧ (rodata.coreOf cpu : Int) = rep.core

/-- The hardware threads of every core are as far apart as those of the others. -/
def SameOffset (host : Host) : Prop :=
  ∃ offset, PairedAt host.hardwareConcurrency host.threadSiblings offset

section Host

variable {host : Host} {topology : Topology} (built : HostBuilt host topology)
include built

theorem HostBuilt.describes_of_rep {cpu : Cpu} {rep : CpuRep}
    (isRep : topology.rep cpu = .ok rep) :
    ∃ i, i < topology.numCpus ∧ cpu = .rep i ∧ Describes host topology.numCpus i rep := by
  cases cpu with
  | kUninitialized => cases isRep
  | rep i =>
      have length := built.cpus.length_eq
      rw [List.length_range] at length
      have inRange : i < topology.numCpus := length ▸ lt_length_of_rep isRep
      obtain ⟨rep', isRep', -, describes⟩ := built.rep inRange
      cases isRep.symm.trans isRep'
      exact ⟨i, inRange, rfl, describes⟩

theorem HostBuilt.nodes : 0 < topology.numNumaNodes := by
  obtain ⟨nonneg, small⟩ := built.highestNodeIdx
  unfold numNumaNodes toUint32
  unfold intMax at small
  omega

/-- The CPU is on a core that begins with `id`. -/
def OnCore (topology : Topology) (id : Nat) (cpu : Cpu) : Prop :=
  ∃ rep, topology.rep cpu = .ok rep ∧ rep.core = id

theorem HostBuilt.cores {cpus allCores : CpuMap} (returns : topology.cores cpus = .ok allCores) :
    allCores.numCpus = topology.numCpus ∧ ∀ id < MAX_CPUS,
      allCores.isSet id = true ↔ ∃ cpu ∈ cpus.visited, topology.OnCore id cpu := by
  obtain ⟨⟨seen, result⟩, folds, same⟩ := bind_eq_ok_iff.mp returns
  cases same
  have invariant := @foldlM_invariant _ _ _ _
    (fun (done : List Cpu) (state : List Int × CpuMap) =>
      state.2.numCpus = topology.numCpus ∧
      (∀ id < MAX_CPUS, state.2.isSet id = true ↔ ∃ cpu ∈ done, topology.OnCore id cpu) ∧
      ∀ id : Nat, (id : Int) ∈ state.1 → ∃ cpu ∈ done, topology.OnCore id cpu)
    ?_ _ [] ([], .emptyCpuList topology.numCpus topology.numCpus_le) (seen, result) ?_ folds
  · exact ⟨invariant.1, invariant.2.1⟩
  · rintro done cpu ⟨seen, result⟩ next ⟨sameCpus, members, known⟩ isNext
    obtain ⟨rep, isRep, rest⟩ := bind_eq_ok_iff.mp isNext
    obtain ⟨i, inRange, rfl, describes⟩ := built.describes_of_rep isRep
    obtain ⟨core, isCore, member, -⟩ := describes.core
    have isHere : ∀ id : Nat, topology.OnCore id (.rep i) ↔ id = core := by
      intro id
      constructor
      · rintro ⟨rep', isRep', same⟩
        cases isRep.symm.trans isRep'
        omega
      · rintro rfl
        exact ⟨rep, isRep, isCore⟩
    simp only [List.mem_append, List.mem_singleton, or_and_right, exists_or, exists_eq_left, isHere]
    by_cases already : rep.core ∈ seen
    · rw [if_pos already] at rest
      cases rest
      rw [isCore] at already
      have before := known core already
      refine ⟨sameCpus, fun id small => ?_, fun id member => .inl (known id member)⟩
      rw [members id small]
      constructor
      · exact .inl
      · rintro (earlier | rfl)
        · exact earlier
        · exact before
    · rw [if_neg already] at rest
      obtain ⟨result', sets, same⟩ := bind_eq_ok_iff.mp rest
      cases same
      rw [isCore] at sets
      have inMap : core < MAX_CPUS := by
        have := (CpuMap.mem_setCpus.mp member).1
        have := rep.siblings.numCpus_le
        omega
      obtain ⟨sameCpus', members'⟩ := (result.set_succeeds inMap).elim sets
      refine ⟨sameCpus'.trans sameCpus, fun id small => ?_, fun id member => ?_⟩
      · simp only [members' id small, Bool.or_eq_true, members id small, decide_eq_true_eq]
      · simp only [List.mem_cons, isCore, Int.natCast_inj] at member
        rcases member with rfl | member
        · exact .inr rfl
        · exact .inl (known id member)
  · refine ⟨rfl, fun id small => ?_, fun id member => absurd member List.not_mem_nil⟩
    simp [CpuMap.isSet_emptyCpuList]

omit built in
theorem Describes.other {i other : Nat} {rep : CpuRep}
    (describes : Describes host topology.numCpus i rep)
    (paired : Paired topology.numCpus host.threadSiblings i other) (inRange : i < topology.numCpus) :
    OtherMember rep.siblings i other ∧ rep.core = (min i other : Nat) := by
  have members : OtherMember rep.siblings i other := by
    intro id
    rw [describes.siblings]
    constructor
    · rintro ⟨below, same⟩
      exact (paired.2 id below).mp same
    · intro isMember
      have below : id < topology.numCpus := by
        rcases isMember with rfl | rfl
        · exact inRange
        · exact paired.1
      exact ⟨below, (paired.2 id below).mpr isMember⟩
  obtain ⟨first, isCore, isMember, least⟩ := describes.core
  have before := least i ((members i).mpr (.inl rfl))
  have before' := least other ((members other).mpr (.inr rfl))
  rw [members] at isMember
  refine ⟨members, ?_⟩
  rw [isCore]
  omega

omit built in
theorem Describes.paired {i other : Nat} {rep : CpuRep}
    (describes : Describes host topology.numCpus i rep)
    (members : OtherMember rep.siblings i other) :
    Paired topology.numCpus host.threadSiblings i other := by
  constructor
  · exact ((describes.siblings other).mp ((members other).mpr (.inr rfl))).1
  · intro id below
    rw [← members id, describes.siblings]
    simp [below]

theorem HostBuilt.helpersAgree {rodata : Rodata} (sets : topology.setBpfTopologyVars = .ok rodata)
    (each : ∀ i < topology.numCpus,
      Paired topology.numCpus host.threadSiblings i (rodata.siblingOf i) ∧
      rodata.coreOf i = min i (rodata.siblingOf i)) : topology.HelpersAgree := by
  refine ⟨rodata, sets, fun i inRange => ?_⟩
  obtain ⟨rep, isRep, -, describes⟩ := built.rep inRange
  obtain ⟨members, isCore⟩ := describes.other (each i inRange).1 inRange
  exact ⟨rep, isRep, members, by rw [(each i inRange).2, isCore]⟩

/-- There are as many pairs as cores. -/
theorem HostBuilt.two_mul_offset {offset : Nat} {allCores : CpuMap} (apart : 0 < offset)
    (pairedAt : PairedAt topology.numCpus host.threadSiblings offset)
    (returns : topology.cores topology.allCpus = .ok allCores)
    (asMany : offset = allCores.size.toNat) : 2 * offset = topology.numCpus := by
  obtain ⟨sameCpus, members⟩ := built.cores returns
  have few := topology.numCpus_le
  have within : allCores.Within := by
    intro id small set
    obtain ⟨cpu, -, rep, isRep, isCore⟩ := (members id small).mp set
    obtain ⟨i, -, -, describes⟩ := built.describes_of_rep isRep
    obtain ⟨first, isFirst, member, -⟩ := describes.core
    have below := (CpuMap.mem_setCpus.mp member).1
    rw [describes.siblings_numCpus] at below
    omega
  have counted := @PairedAt.card_lower _ _ _ _ pairedAt apart allCores.setCpus.toFinset ?_
  · rwa [List.toFinset_card_of_nodup (allCores.setCpus_ascending.imp ne_of_lt),
      ← CpuMap.size_toNat within, ← asMany] at counted
  intro id
  rw [List.mem_toFinset, CpuMap.mem_setCpus, sameCpus, and_congr_right_iff]
  intro below
  rw [members id (by omega), visited_allCpus built.allCpus]
  constructor
  · rintro ⟨cpu, -, rep, isRep, isCore⟩
    obtain ⟨i, inRange, rfl, describes⟩ := built.describes_of_rep isRep
    rcases pairedAt.lower_or_upper inRange with paired | ⟨above, paired⟩
    · have core := (describes.other paired inRange).2
      have isLower : i = id := by omega
      exact isLower ▸ paired
    · have core := (describes.other paired inRange).2
      have isUpper : i - offset = id := by omega
      have isSum : id + offset = i := by omega
      rw [isSum, ← isUpper]
      exact paired.symm inRange
  · intro paired
    obtain ⟨rep, isRep, -, describes⟩ := built.rep below
    have core := (describes.other paired below).2
    refine ⟨.rep id, List.mem_map_of_mem (List.mem_range.mpr below), rep, isRep, ?_⟩
    omega

theorem HostBuilt.agree_single
    (pairedAt : PairedAt topology.numCpus host.threadSiblings 0) : topology.HelpersAgree := by
  have alone : ∀ i < topology.numCpus, Paired topology.numCpus host.threadSiblings i i := by
    intro i inRange
    rcases pairedAt.lower_or_upper inRange with paired | ⟨-, paired⟩
    · exact paired
    · exact paired
  obtain ⟨first, isFirst, -, describes⟩ := built.rep built.nonempty
  have members := (describes.other (alone 0 built.nonempty) built.nonempty).1
  obtain ⟨size, -⟩ := numbering_single isFirst describes.within
    (CpuMap.setCpus_single fun id => by rw [members id, or_self]) built.numbering
  apply built.helpersAgree (setBpfTopologyVars_eq isFirst size Nat.one_pos built.nodes)
  intro i inRange
  refine ⟨alone i inRange, ?_⟩
  change i % (topology.numCpus / 1) = min i i
  rw [Nat.div_one, Nat.mod_eq_of_lt inRange, min_self]

theorem HostBuilt.agree_pairs {offset : Nat} (apart : 0 < offset)
    (pairedAt : PairedAt topology.numCpus host.threadSiblings offset) :
    topology.HelpersAgree := by
  have paired : Paired topology.numCpus host.threadSiblings 0 offset := by
    rcases pairedAt.lower_or_upper built.nonempty with paired | ⟨above, -⟩
    · rwa [Nat.zero_add] at paired
    · omega
  obtain ⟨first, isFirst, -, describes⟩ := built.rep built.nonempty
  obtain ⟨upper, isUpper, -, describesUpper⟩ := built.rep paired.1
  have members := (describes.other paired built.nonempty).1
  obtain ⟨size, numbering⟩ := numbering_pair isFirst (by simpa using describes.cpu) isUpper
    describesUpper.cpu describes.within (CpuMap.setCpus_pair apart members) built.numbering
  apply built.helpersAgree (setBpfTopologyVars_eq isFirst size Nat.two_pos built.nodes)
  intro i inRange
  rcases numbering with ⟨rfl, flag⟩ | ⟨-, flag, allCores, returns, asMany⟩
  · have paired := pairedAt.parity inRange
    have isSibling : (topology.vars 2).siblingOf i = if i % 2 = 0 then i + 1 else i - 1 := by
      simp [Rodata.siblingOf, vars, flag]
    rw [isSibling]
    refine ⟨paired, ?_⟩
    simp only [Rodata.coreOf, vars, flag, if_true]
    split <;> omega
  · have isHalf := built.two_mul_offset apart pairedAt returns asMany
    have cores : topology.numCpus / 2 = offset := by omega
    have isSibling : (topology.vars 2).siblingOf i =
        if offset ≤ i then i - offset else i + offset := by
      simp [Rodata.siblingOf, vars, flag, cores]
    rw [isSibling]
    refine ⟨pairedAt.halves isHalf inRange, ?_⟩
    simp only [Rodata.coreOf, vars, flag, cores, if_true, Bool.false_eq_true, if_false]
    split <;> omega

end Host

theorem siblingOf_offset (rodata : Rodata) :
    ∃ offset, ∀ cpu, rodata.siblingOf cpu = cpu + offset ∨ cpu = rodata.siblingOf cpu + offset := by
  unfold Rodata.siblingOf
  split
  · exact ⟨0, fun cpu => .inl rfl⟩
  · split
    · refine ⟨1, fun cpu => ?_⟩
      split <;> omega
    · refine ⟨rodata.nrCores, fun cpu => ?_⟩
      split <;> omega

/-- On an accepted host the helpers return the sibling and the core of every CPU if
and only if the hardware threads of all cores are equally far apart. -/
theorem helpersAgree_iff (host : Host) (topology : Topology)
    (accepts : initHost host = .ok topology) : topology.HelpersAgree ↔ SameOffset host := by
  have built := hostBuilt_of_initHost accepts
  unfold SameOffset
  rw [← built.numCpus]
  constructor
  · rintro ⟨rodata, -, agree⟩
    obtain ⟨offset, isOffset⟩ := siblingOf_offset rodata
    refine ⟨offset, fun i inRange => ?_⟩
    obtain ⟨rep, isRep, members, -⟩ := agree i inRange
    obtain ⟨rep', isRep', -, describes⟩ := built.rep inRange
    cases isRep.symm.trans isRep'
    exact ⟨_, describes.paired members, isOffset i⟩
  · rintro ⟨offset, pairedAt⟩
    cases offset with
    | zero => exact built.agree_single pairedAt
    | succ offset => exact built.agree_pairs (Nat.succ_pos _) pairedAt

/-- A host of one node without an L3 cache. -/
def flatHost (numCpus : Nat) (threadSiblings : Nat → String) : Host :=
  { hardwareConcurrency := numCpus
    threadSiblings := threadSiblings
    sharedCpuList := fun _ => ""
    numaNodeOfCpu := fun _ => 0
    nodePossible := [some 0] }

/-- Two cores with the CPUs 0 and 2, and 1 and 3. -/
def straightHost : Host := flatHost 4 fun cpu => if cpu % 2 = 0 then "5" else "a"

theorem straightHost_pairedAt : PairedAt 4 straightHost.threadSiblings 2 := by
  have lower : ∀ i < 2, Paired 4 straightHost.threadSiblings i (i + 2) := by
    unfold Paired
    decide
  intro i inRange
  by_cases isLower : i < 2
  · exact ⟨i + 2, lower i isLower, .inl rfl⟩
  · refine ⟨i - 2, ?_, .inr (by omega)⟩
    have paired := (lower (i - 2) (by omega)).symm (by omega)
    rwa [Nat.sub_add_cancel (by omega)] at paired

theorem helpersAgree_iff_straight :
    Succeeds (initHost straightHost) fun topology => topology.HelpersAgree := by
  obtain ⟨topology, accepts, -⟩ : Succeeds (initHost straightHost) fun _ => True := by
    decide +kernel
  exact ⟨topology, accepts,
    (helpersAgree_iff straightHost topology accepts).mpr ⟨2, straightHost_pairedAt⟩⟩

/-- Three cores with the CPUs 0 and 3, 1 and 2, and 4 and 5. -/
def crossedHost : Host := flatHost 6 fun cpu =>
  if cpu = 0 ∨ cpu = 3 then "9" else if cpu = 1 ∨ cpu = 2 then "6" else "30"

/-- The siblings of the first core are as far apart as there are cores, and those of
the others are not: CPU 1 is said to be with CPU 4, and is with CPU 2. -/
theorem crossed_disagrees :
    Succeeds (initHost crossedHost) fun topology =>
      (∀ rep ∈ topology.cpus, rep.siblings.size = 2) ∧ ¬ topology.HelpersAgree := by
  have facts : Succeeds (initHost crossedHost) fun topology =>
      topology.numCpus = 6 ∧ (∀ rep ∈ topology.cpus, rep.siblings.size = 2) ∧
      (Succeeds (topology.setBpfTopologyVars) fun rodata => rodata.siblingOf 1 = 4) ∧
      Succeeds (topology.rep (.rep 1)) fun rep => rep.siblings.setCpus = [1, 2] := by
    decide +kernel
  obtain ⟨topology, accepts, numCpus, pairs, vars, second⟩ := facts
  refine ⟨topology, accepts, pairs, ?_⟩
  rintro ⟨rodata, sets, agree⟩
  obtain ⟨rep, isRep, members, -⟩ := agree 1 (by omega)
  have listed := (members _).mpr (.inr rfl)
  rw [vars.elim sets, second.elim isRep] at listed
  exact absurd listed (by decide)

end Topology

end Ghost.Topology
