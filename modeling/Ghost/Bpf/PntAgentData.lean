import Ghost.Bpf.PntRing

/-!
# The agent data of a task in a ring

`pnt_ring_to_agent_data` of `pntring.bpf.h` and the functions that read it back. The ring
id is shifted in 32 bits before it meets the 64 bits of the result.
-/

set_option autoImplicit false

namespace Ghost.Bpf.Pnt

/-- `__PNT_RING_SLOT_ORDER`. -/
def ringSlotOrder : Nat := 6

/-- `NR_PNT_RING_SLOTS - 1`. -/
def slotMask (width : Nat) : BitVec width := BitVec.ofNat width (nrSlots - 1)

/-- The bit of a used entry. -/
def entryUsed : BitVec 64 := 1#64 <<< 63

def pntRingToAgentData (ringId ringIndex : BitVec 32) : BitVec 64 :=
  entryUsed ||| (ringId <<< ringSlotOrder).setWidth 64 ||| (ringIndex &&& slotMask 32).setWidth 64

def pntAgentDataToRingId (agentData : BitVec 64) : BitVec 64 :=
  (agentData &&& ~~~entryUsed) >>> ringSlotOrder

def pntAgentDataToRingIndex (agentData : BitVec 64) : BitVec 64 := agentData &&& slotMask 64

variable {ringId ringIndex ringId' ringIndex' : BitVec 32} {agentData : BitVec 64}

/-! ## The three fields -/

private theorem toNat_pntRingToAgentData :
    (pntRingToAgentData ringId ringIndex).toNat =
      2 ^ 63 + ringId.toNat % 2 ^ 26 * 64 + ringIndex.toNat % 64 := by
  have low : ringIndex.toNat % 64 < 2 ^ 6 := Nat.mod_lt _ (by decide)
  have middle : ringId.toNat % 2 ^ 26 < 2 ^ 26 := Nat.mod_lt _ (by decide)
  have index : (ringIndex &&& slotMask 32).toNat = ringIndex.toNat % 64 := by
    rw [BitVec.toNat_and]
    exact Nat.and_two_pow_sub_one_eq_mod _ 6
  have id : (ringId <<< ringSlotOrder).toNat = (ringId.toNat % 2 ^ 26) <<< 6 := by
    rw [BitVec.toNat_shiftLeft, Nat.shiftLeft_eq, Nat.shiftLeft_eq]
    simp only [ringSlotOrder]
    omega
  have used : entryUsed.toNat = 1 <<< 63 := by decide
  have below : (ringId.toNat % 2 ^ 26) <<< 6 < 2 ^ 63 := by
    rw [Nat.shiftLeft_eq]
    omega
  have joined : 1 <<< 63 + (ringId.toNat % 2 ^ 26) <<< 6 =
      (2 ^ 57 + ringId.toNat % 2 ^ 26) <<< 6 := by
    rw [Nat.shiftLeft_eq, Nat.shiftLeft_eq, Nat.shiftLeft_eq]
    omega
  have wideId : (ringId.toNat % 2 ^ 26) <<< 6 % 2 ^ 64 = (ringId.toNat % 2 ^ 26) <<< 6 :=
    Nat.mod_eq_of_lt (by omega)
  have wideIndex : ringIndex.toNat % 64 % 2 ^ 64 = ringIndex.toNat % 64 :=
    Nat.mod_eq_of_lt (by omega)
  unfold pntRingToAgentData
  rw [BitVec.toNat_or, BitVec.toNat_or, BitVec.toNat_setWidth, BitVec.toNat_setWidth, index, id,
    used, wideId, wideIndex, ← Nat.shiftLeft_add_eq_or_of_lt below, joined,
    ← Nat.shiftLeft_add_eq_or_of_lt low, Nat.shiftLeft_eq]
  omega

private theorem pntRingToAgentData_ne_zero : pntRingToAgentData ringId ringIndex ≠ 0 := by
  intro isZero
  have value := congrArg BitVec.toNat isZero
  rw [toNat_pntRingToAgentData] at value
  simp at value

private theorem toNat_pntAgentDataToRingId :
    (pntAgentDataToRingId agentData).toNat = agentData.toNat % 2 ^ 63 / 64 := by
  have cleared : (agentData &&& ~~~entryUsed).toNat = agentData.toNat % 2 ^ 63 := by
    rw [BitVec.toNat_and]
    exact Nat.and_two_pow_sub_one_eq_mod _ 63
  rw [pntAgentDataToRingId, BitVec.toNat_ushiftRight, cleared, Nat.shiftRight_eq_div_pow]
  rfl

private theorem toNat_pntAgentDataToRingIndex :
    (pntAgentDataToRingIndex agentData).toNat = agentData.toNat % 64 := by
  rw [pntAgentDataToRingIndex, BitVec.toNat_and]
  exact Nat.and_two_pow_sub_one_eq_mod _ 6

/-- The six high bits of the ring id are lost. -/
theorem toNat_ringId_of_agentData :
    (pntAgentDataToRingId (pntRingToAgentData ringId ringIndex)).toNat =
      ringId.toNat % 2 ^ 26 := by
  rw [toNat_pntAgentDataToRingId, toNat_pntRingToAgentData]
  omega

private theorem toNat_ringIndex_of_agentData :
    (pntAgentDataToRingIndex (pntRingToAgentData ringId ringIndex)).toNat =
      ringIndex.toNat % 64 := by
  rw [toNat_pntAgentDataToRingIndex, toNat_pntRingToAgentData]
  omega

private theorem pntRingToAgentData_eq_iff :
    pntRingToAgentData ringId ringIndex = pntRingToAgentData ringId' ringIndex' ↔
      ringId.toNat % 2 ^ 26 = ringId'.toNat % 2 ^ 26 ∧
        ringIndex.toNat % 64 = ringIndex'.toNat % 64 := by
  rw [← BitVec.toNat_inj, toNat_pntRingToAgentData, toNat_pntRingToAgentData]
  omega

/-! ## The documented layout -/

/-- The fields come back, and the entry is marked as used. -/
structure Decodes (ringId ringIndex : BitVec 32) : Prop where
  id : pntAgentDataToRingId (pntRingToAgentData ringId ringIndex) = ringId.setWidth 64
  index : (pntAgentDataToRingIndex (pntRingToAgentData ringId ringIndex)).toNat =
    ringIndex.toNat % 64
  used : pntRingToAgentData ringId ringIndex ≠ 0

/-- Both decode, and they are told apart. -/
structure AgentDataLaw (ringId ringIndex ringId' ringIndex' : BitVec 32) : Prop where
  decodes : Decodes ringId ringIndex
  decodes' : Decodes ringId' ringIndex'
  same : pntRingToAgentData ringId ringIndex = pntRingToAgentData ringId' ringIndex' ↔
    ringId = ringId' ∧ ringIndex.toNat % 64 = ringIndex'.toNat % 64

private theorem decodes_iff : Decodes ringId ringIndex ↔ ringId.toNat < 2 ^ 26 := by
  have wide : (ringId.setWidth 64).toNat = ringId.toNat := by
    rw [BitVec.toNat_setWidth]
    exact Nat.mod_eq_of_lt (by have := ringId.isLt; omega)
  constructor
  · intro decodes
    have id := congrArg BitVec.toNat decodes.id
    rw [toNat_ringId_of_agentData, wide] at id
    omega
  · intro small
    refine ⟨?_, toNat_ringIndex_of_agentData, pntRingToAgentData_ne_zero⟩
    rw [← BitVec.toNat_inj, toNat_ringId_of_agentData, wide]
    exact Nat.mod_eq_of_lt small

/-- The encoding is as documented exactly for ring ids of 26 bits. -/
theorem agentDataLaw_iff (ringId ringIndex ringId' ringIndex' : BitVec 32) :
    AgentDataLaw ringId ringIndex ringId' ringIndex' ↔
      ringId.toNat < 2 ^ 26 ∧ ringId'.toNat < 2 ^ 26 := by
  constructor
  · intro law
    exact ⟨decodes_iff.mp law.decodes, decodes_iff.mp law.decodes'⟩
  · rintro ⟨small, small'⟩
    refine ⟨decodes_iff.mpr small, decodes_iff.mpr small', ?_⟩
    rw [pntRingToAgentData_eq_iff, Nat.mod_eq_of_lt small, Nat.mod_eq_of_lt small',
      BitVec.toNat_inj]

/-- Ring `2 ^ 26` passes for ring 0. -/
theorem ringId_lost :
    ¬ AgentDataLaw (BitVec.ofNat 32 (2 ^ 26)) 0 0 0 ∧
    pntAgentDataToRingId (pntRingToAgentData (BitVec.ofNat 32 (2 ^ 26)) 0) = 0 ∧
    pntRingToAgentData (BitVec.ofNat 32 (2 ^ 26)) 0 = pntRingToAgentData 0 0 := by
  refine ⟨?_, by decide, by decide⟩
  intro law
  have differ := (law.same.mp (by decide)).1
  exact absurd differ (by decide)

end Ghost.Bpf.Pnt
