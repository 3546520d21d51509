import Ghost.Topology.BpfHelpers

/-!
# The nodes of CPUs as BPF programs see them

`numa_node_of` divides the id of a core by the number of cores of a node. The ids are
dense in one numbering of hardware threads, and even in the other.
-/

set_option autoImplicit false
set_option linter.dupNamespace false

namespace Ghost.Topology

open Lib

/-! ## Layouts -/

/-- One hardware thread per core, or two that are neighbours, or two that are as far
apart as there are cores. -/
inductive Numbering where
  | single
  | consecutive
  | offset
  deriving DecidableEq

namespace Numbering

variable (numbering : Numbering) (cores cpu : Nat)

def smt : Nat :=
  match numbering with
  | .single => 1
  | .consecutive => 2
  | .offset => 2

/-- Which core it is, from the lowest id on. -/
def position : Nat :=
  match numbering with
  | .single => cpu
  | .consecutive => cpu / 2
  | .offset => cpu % cores

/-- The id of the core at a position, which is its first CPU. -/
def coreAt (position : Nat) : Nat :=
  match numbering with
  | .single => position
  | .consecutive => 2 * position
  | .offset => position

/-- The hardware threads of the core at a position. -/
def siblingsAt (position : Nat) : List Nat :=
  match numbering with
  | .single => [position]
  | .consecutive => [2 * position, 2 * position + 1]
  | .offset => [position, position + cores]

end Numbering

namespace Topology

/-- The topology was constructed. -/
def Constructed (topology : Topology) : Prop :=
  (∃ host, initHost host = .ok topology) ∨ ∃ raws, initCustom raws = .ok topology

/-- The cores are divided into blocks of `perNode` cores, one block for each node. -/
structure InBlocks (topology : Topology) (numbering : Numbering) (perNode : Nat) : Prop where
  numCpus : topology.numCpus = numbering.smt * (topology.numNumaNodes * perNode)
  cpu : ∀ cpu < topology.numCpus, Succeeds (topology.rep (.rep cpu)) fun rep =>
    let position := numbering.position (topology.numNumaNodes * perNode) cpu
    rep.siblings.setCpus = numbering.siblingsAt (topology.numNumaNodes * perNode) position ∧
    rep.core = numbering.coreAt position ∧
    rep.numaNode = (position / perNode : Nat)

/-- The helper returns the node of each CPU. -/
def NodesAgree (topology : Topology) : Prop :=
  Succeeds topology.setBpfTopologyVars fun rodata =>
    ∀ cpu < topology.numCpus, Succeeds (topology.rep (.rep cpu)) fun rep =>
      (rodata.numaNodeOf cpu : Int) = rep.numaNode

/-! ## What construction establishes -/

structure Sound (topology : Topology) : Prop where
  length : topology.cpus.length = topology.numCpus
  rep : ∀ i rep, topology.rep (.rep i) = .ok rep → rep.cpu = i ∧ rep.siblings.Within
  numbering : topology.checkConsecutiveSmtNumbering = .ok topology.consecutiveSmtNumbering

theorem numbering_of_finish {topology finished : Topology}
    (finishes : topology.finish = .ok finished) :
    finished.checkConsecutiveSmtNumbering = .ok finished.consecutiveSmtNumbering := by
  simp only [Topology.finish, bind_eq_ok_iff] at finishes
  obtain ⟨⟨⟩, _, _, _, _, _, flag, isFlag, same⟩ := finishes
  cases same
  exact isFlag

theorem Constructed.sound {topology : Topology} (constructed : topology.Constructed) :
    topology.Sound := by
  rcases constructed with ⟨host, accepts⟩ | ⟨raws, accepts⟩
  · have built := hostBuilt_of_initHost accepts
    constructor
    · rw [← built.cpus.length_eq, List.length_range]
    · intro i rep isRep
      obtain ⟨j, -, same, describes⟩ := built.describes_of_rep isRep
      cases same
      exact ⟨describes.cpu, describes.within⟩
    · exact built.numbering
  · have accepted := accepted_of_initCustom accepts
    have built := accepted.built
    have length := built.cpus.length_eq
    rw [List.length_range] at length
    obtain ⟨_, _, _, _, finishes⟩ := accepted.finished
    constructor
    · exact length.symm
    · intro i rep isRep
      have inRange := lt_length_of_rep isRep
      obtain ⟨rep', inRaws, isRep', -, represents⟩ := built.rep (i := i) (by omega)
      cases isRep.symm.trans isRep'
      exact ⟨represents.cpu, represents.siblings.within (built.checked.entry i inRaws).siblings⟩
    · exact numbering_of_finish finishes

/-! ## Cores and nodes -/

section Nodes

variable {topology : Topology} {numbering : Numbering} {perNode : Nat}

theorem InBlocks.coreOf (sound : topology.Sound) (laid : topology.InBlocks numbering perNode) :
    topology.setBpfTopologyVars = .ok (topology.vars numbering.smt) ∧
    0 < topology.numNumaNodes * perNode ∧
    ∀ cpu < topology.numCpus, (topology.vars numbering.smt).coreOf cpu =
      numbering.coreAt (numbering.position (topology.numNumaNodes * perNode) cpu) := by
  have isCount := laid.numCpus
  have nonempty : 0 < topology.numCpus := by
    obtain ⟨first, isFirst, -⟩ := bind_eq_ok_iff.mp sound.numbering
    exact sound.length ▸ lt_length_of_rep isFirst
  obtain ⟨first, isFirst, siblings, -⟩ := laid.cpu 0 nonempty
  obtain ⟨firstCpu, within⟩ := sound.rep 0 first isFirst
  generalize isCores : topology.numNumaNodes * perNode = cores at *
  have some : 0 < cores := by
    by_contra none
    have isZero : cores = 0 := by omega
    rw [isZero, Nat.mul_zero] at isCount
    omega
  have nodes : 0 < topology.numNumaNodes := by
    by_contra none
    have isZero : topology.numNumaNodes = 0 := by omega
    rw [isZero, Nat.zero_mul] at isCores
    omega
  cases numbering with
  | single =>
      obtain ⟨size, -⟩ := numbering_single isFirst within siblings sound.numbering
      refine ⟨setBpfTopologyVars_eq isFirst size Nat.one_pos nodes, some, fun cpu inRange => ?_⟩
      change cpu % (topology.numCpus / 1) = cpu
      rw [Nat.div_one, Nat.mod_eq_of_lt inRange]
  | consecutive =>
      change topology.numCpus = 2 * cores at isCount
      obtain ⟨upper, isUpper, -⟩ := laid.cpu 1 (by omega)
      obtain ⟨size, numbering⟩ := numbering_pair isFirst (by simpa using firstCpu) isUpper
        (sound.rep 1 upper isUpper).1 within siblings sound.numbering
      refine ⟨setBpfTopologyVars_eq isFirst size Nat.two_pos nodes, some, fun cpu inRange => ?_⟩
      rcases numbering with ⟨-, flag⟩ | ⟨different, -⟩
      · simp only [Rodata.coreOf, vars, Numbering.smt, flag, if_true]
        change _ = 2 * (cpu / 2)
        split <;> omega
      · exact absurd rfl different
  | offset =>
      change topology.numCpus = 2 * cores at isCount
      obtain ⟨upper, isUpper, -⟩ := laid.cpu cores (by omega)
      have both : first.siblings.setCpus = [0, cores] := by
        rw [siblings]
        simp [Numbering.siblingsAt, Numbering.position]
      obtain ⟨size, numbering⟩ := numbering_pair isFirst (by simpa using firstCpu) isUpper
        (sound.rep cores upper isUpper).1 within both sound.numbering
      refine ⟨setBpfTopologyVars_eq isFirst size Nat.two_pos nodes, some, fun cpu inRange => ?_⟩
      change _ = cpu % cores
      rcases numbering with ⟨isOne, flag⟩ | ⟨-, flag, -⟩
      · subst isOne
        simp only [Rodata.coreOf, vars, Numbering.smt, flag, if_true]
        split <;> omega
      · have half : topology.numCpus / 2 = cores := by omega
        simp only [Rodata.coreOf, vars, Numbering.smt, flag, half, if_true, Bool.false_eq_true,
          if_false]
        split
        · next above =>
            rw [Nat.mod_eq_sub_mod above, Nat.mod_eq_of_lt (by omega)]
        · next below =>
            rw [Nat.mod_eq_of_lt (by omega)]

/-- What `numa_node_of` makes of a core. -/
def nodeOfCore (nodes perNode core : Nat) : Nat :=
  if nodes ≤ 2 then if perNode ≤ core then 1 else 0 else core / perNode

/-- The shortcut for two nodes divides ids that are dense. -/
theorem nodeOfCore_eq {nodes core : Nat} (inRange : core < nodes * perNode) :
    nodeOfCore nodes perNode core = core / perNode := by
  have positive : 0 < perNode := by
    by_contra none
    have isZero : perNode = 0 := by omega
    rw [isZero, Nat.mul_zero] at inRange
    omega
  have below : core / perNode < nodes := by
    rw [Nat.div_lt_iff_lt_mul positive]
    exact inRange
  unfold nodeOfCore
  split
  · split
    · next above =>
        have := (Nat.le_div_iff_mul_le positive).mpr (by simpa using above : 1 * perNode ≤ core)
        omega
    · next under =>
        rw [Nat.div_eq_of_lt (by omega)]
  · rfl

/-- Even ids outrun the number of cores of a node, unless it is one. -/
theorem nodeOfCore_even_iff {nodes : Nat} (positive : 0 < nodes * perNode) :
    (∀ position < nodes * perNode,
      nodeOfCore nodes perNode (2 * position) = position / perNode) ↔
    perNode = 1 ∧ nodes ≤ 2 := by
  have some : 0 < perNode := Nat.pos_of_mul_pos_left positive
  have one : 0 < nodes := Nat.pos_of_mul_pos_right positive
  constructor
  · intro agree
    have atLeast : perNode ≤ nodes * perNode := Nat.le_mul_of_pos_left _ one
    have last := agree (perNode - 1) (by omega)
    rw [Nat.div_eq_of_lt (by omega : perNode - 1 < perNode)] at last
    unfold nodeOfCore at last
    split at last
    · next few =>
        split at last
        · omega
        · exact ⟨by omega, few⟩
    · next many =>
        have isOne : perNode = 1 := by
          rw [Nat.div_eq_zero_iff] at last
          omega
        subst isOne
        have second := agree 1 (by omega)
        unfold nodeOfCore at second
        rw [if_neg many] at second
        omega
  · rintro ⟨rfl, few⟩ position inRange
    unfold nodeOfCore
    rw [if_pos few, Nat.div_one]
    split <;> omega

theorem Numbering.position_lt {cores cpu : Nat} (some : 0 < cores)
    (inRange : cpu < numbering.smt * cores) : numbering.position cores cpu < cores := by
  cases numbering with
  | single =>
      change cpu < 1 * cores at inRange
      change cpu < cores
      omega
  | consecutive =>
      change cpu < 2 * cores at inRange
      change cpu / 2 < cores
      omega
  | offset => exact Nat.mod_lt cpu some

theorem InBlocks.agree_iff (sound : topology.Sound)
    (laid : topology.InBlocks numbering perNode) :
    topology.NodesAgree ↔ ∀ cpu < topology.numCpus,
      nodeOfCore topology.numNumaNodes perNode
        (numbering.coreAt (numbering.position (topology.numNumaNodes * perNode) cpu)) =
      numbering.position (topology.numNumaNodes * perNode) cpu / perNode := by
  obtain ⟨sets, positive, isCore⟩ := laid.coreOf sound
  have isPerNode : topology.numCpus / numbering.smt / topology.numNumaNodes = perNode := by
    have threads : 0 < numbering.smt := by
      cases numbering with
      | single => exact Nat.one_pos
      | consecutive => exact Nat.two_pos
      | offset => exact Nat.two_pos
    rw [laid.numCpus, Nat.mul_div_cancel_left _ threads,
      Nat.mul_div_cancel_left _ (Nat.pos_of_mul_pos_right positive)]
  have isNode : ∀ cpu < topology.numCpus, (topology.vars numbering.smt).numaNodeOf cpu =
      nodeOfCore topology.numNumaNodes perNode
        (numbering.coreAt (numbering.position (topology.numNumaNodes * perNode) cpu)) := by
    intro cpu inRange
    rw [← isCore cpu inRange]
    change nodeOfCore _ (topology.numCpus / numbering.smt / topology.numNumaNodes) _ = _
    rw [isPerNode]
    rfl
  constructor
  · intro agree cpu inRange
    obtain ⟨rep, isRep, same⟩ := agree.elim sets cpu inRange
    have node := ((laid.cpu cpu inRange).elim isRep).2.2
    rw [isNode cpu inRange, node, Int.natCast_inj] at same
    exact same
  · intro agree
    refine .of_eq sets fun cpu inRange => ?_
    obtain ⟨rep, isRep, -, -, node⟩ := laid.cpu cpu inRange
    exact .of_eq isRep (by rw [isNode cpu inRange, node, agree cpu inRange])

end Nodes

/-- If the cores are in equal blocks, `numa_node_of` returns the node of every CPU if
and only if hardware threads are not numbered consecutively, or there are at most two
nodes of one core each. -/
theorem nodesAgree_iff (topology : Topology) (constructed : topology.Constructed)
    (numbering : Numbering) (perNode : Nat) (laid : topology.InBlocks numbering perNode) :
    topology.NodesAgree ↔
      numbering ≠ .consecutive ∨ perNode = 1 ∧ topology.numNumaNodes ≤ 2 := by
  have sound := constructed.sound
  have positive := (laid.coreOf sound).2.1
  have isCount := laid.numCpus
  rw [laid.agree_iff sound]
  have dense : (∀ position, numbering.coreAt position = position) →
      ∀ cpu < topology.numCpus, nodeOfCore topology.numNumaNodes perNode
        (numbering.coreAt (numbering.position (topology.numNumaNodes * perNode) cpu)) =
      numbering.position (topology.numNumaNodes * perNode) cpu / perNode := by
    intro same cpu inRange
    rw [same]
    exact nodeOfCore_eq (Numbering.position_lt positive (isCount ▸ inRange))
  cases numbering with
  | single => simpa using dense fun _ => rfl
  | offset => simpa using dense fun _ => rfl
  | consecutive =>
      change topology.numCpus = 2 * (topology.numNumaNodes * perNode) at isCount
      rw [← nodeOfCore_even_iff positive]
      constructor
      · intro agree
        right
        intro position inRange
        have same := agree (2 * position) (by omega)
        simp only [Numbering.position, Numbering.coreAt,
          Nat.mul_div_cancel_left position Nat.two_pos] at same
        exact same
      · rintro (different | agree) cpu inRange
        · exact absurd rfl different
        · exact agree (cpu / 2) (by omega)

/-- A host of one node whose two cores are not neighbours. -/
theorem nodesAgree_iff_straight :
    Succeeds (initHost straightHost) fun topology => topology.NodesAgree := by
  have facts : Succeeds (initHost straightHost) fun topology =>
      topology.numCpus = 4 ∧ topology.numNumaNodes = 1 ∧
      ∀ cpu < 4, Succeeds (topology.rep (.rep cpu)) fun rep =>
        rep.siblings.setCpus = [cpu % 2, cpu % 2 + 2] ∧ rep.core = (cpu % 2 : Nat) ∧
        rep.numaNode = 0 := by
    decide +kernel
  obtain ⟨topology, accepts, numCpus, nodes, cpus⟩ := facts
  have laid : topology.InBlocks .offset 2 := by
    constructor
    · rw [numCpus, nodes]
      rfl
    · rw [numCpus, nodes]
      intro cpu inRange
      apply (cpus cpu inRange).mono
      rintro rep ⟨siblings, core, node⟩
      refine ⟨siblings, core, ?_⟩
      change rep.numaNode = (cpu % 2 / 2 : Nat)
      rw [Nat.div_eq_of_lt (by omega)]
      exact node
  exact ⟨topology, accepts,
    (nodesAgree_iff topology (.inl ⟨straightHost, accepts⟩) .offset 2 laid).mpr (.inl (by decide))⟩

/-- Two cores with the CPUs 0 and 1, and 2 and 3. -/
def adjacentHost : Host := flatHost 4 fun cpu => if cpu < 2 then "3" else "c"

/-- The only node has two cores, and the second one is said to be on another node. -/
theorem adjacent_disagrees :
    Succeeds (initHost adjacentHost) fun topology =>
      topology.InBlocks .consecutive 2 ∧ topology.numNumaNodes = 1 ∧
      (Succeeds topology.setBpfTopologyVars fun rodata => rodata.numaNodeOf 2 = 1) ∧
      ¬ topology.NodesAgree := by
  have facts : Succeeds (initHost adjacentHost) fun topology =>
      topology.numCpus = 4 ∧ topology.numNumaNodes = 1 ∧
      (∀ cpu < 4, Succeeds (topology.rep (.rep cpu)) fun rep =>
        rep.siblings.setCpus = [2 * (cpu / 2), 2 * (cpu / 2) + 1] ∧
        rep.core = (2 * (cpu / 2) : Nat) ∧ rep.numaNode = (cpu / 2 / 2 : Nat)) ∧
      Succeeds topology.setBpfTopologyVars fun rodata => rodata.numaNodeOf 2 = 1 := by
    decide +kernel
  obtain ⟨topology, accepts, numCpus, nodes, cpus, second⟩ := facts
  have laid : topology.InBlocks .consecutive 2 := by
    constructor
    · rw [numCpus, nodes]
      rfl
    · rw [numCpus, nodes]
      exact cpus
  refine ⟨topology, accepts, laid, nodes, second, ?_⟩
  rintro ⟨rodata, sets, agree⟩
  obtain ⟨rep, isRep, same⟩ := agree 2 (by omega)
  have node := ((cpus 2 (by omega)).elim isRep).2.2
  rw [second.elim sets, node] at same
  exact absurd same (by decide)

end Topology

end Ghost.Topology
