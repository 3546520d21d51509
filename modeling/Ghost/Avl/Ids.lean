import Mathlib.Tactic

/-!
# Identifiers and pointers

`el_off`, `__avl_id_to_node` and `__avl_node_to_id` of `lib/avl.bpf.h` over addresses of 64
bits, with `BOUNDED_ARRAY_IDX` as BPF and userspace define it. All other functions of the
header are the same in both.
-/

set_option autoImplicit false

namespace Ghost.Avl.Ids

abbrev Ptr : Type := BitVec 64

inductive Target where
  | bpf
  | userspace
  deriving DecidableEq

/-- `BOUNDED_ARRAY_IDX` over an array of bytes. -/
def boundedArrayIdx (target : Target) (arr : Ptr) (bound idx : BitVec 64) : Ptr :=
  match target with
  | .bpf => if arr = 0 then arr else if bound ≤ idx then 0 else arr + idx
  | .userspace => arr + idx

def elOff (elemSz fieldOff : BitVec 64) : BitVec 64 := elemSz <<< 32 ||| fieldOff

def elOffElem (elOff : BitVec 64) : BitVec 64 := elOff >>> 32

def elOffField (elOff : BitVec 64) : BitVec 64 := elOff &&& BitVec.ofNat 64 (2 ^ 32 - 1)

def avlIdToNode (target : Target) (arr : Ptr) (arrSz elOff : BitVec 64) (id : BitVec 32) : Ptr :=
  let elemSz := elOffElem elOff
  let fieldOff := elOffField elOff
  if id = 0 then 0
  else
    boundedArrayIdx target arr ((arrSz - 1) * elemSz + fieldOff)
      ((id - 1).setWidth 64 * elemSz + fieldOff)

def avlNodeToId (arr : Ptr) (elOff : BitVec 64) (node : Ptr) : BitVec 32 :=
  let elemSz := elOffElem elOff
  let fieldOff := elOffField elOff
  if node = 0 then 0 else ((node - fieldOff - arr) / elemSz + 1).setWidth 32

/-- `sizeof(struct avl_node)`. -/
def avlNodeSize : Nat := 40

/-- An array in memory with a node in each element. -/
structure NodeArray where
  arr : Ptr
  arrSz : Nat
  elemSz : Nat
  fieldOff : Nat
  present : arr ≠ 0
  nonempty : 1 ≤ arrSz
  elemSz_lt : elemSz < 2 ^ 32
  fieldOff_lt : fieldOff < 2 ^ 32
  node_fits : fieldOff + avlNodeSize ≤ elemSz
  in_memory : arr.toNat + arrSz * elemSz ≤ 2 ^ 64

namespace NodeArray

variable (array : NodeArray)

def elOff : BitVec 64 := Ids.elOff (BitVec.ofNat 64 array.elemSz) (BitVec.ofNat 64 array.fieldOff)

/-- The address of the node in element `i`. -/
def node (i : Nat) : Ptr := array.arr + BitVec.ofNat 64 (i * array.elemSz + array.fieldOff)

def idToNode (target : Target) (id : BitVec 32) : Ptr :=
  avlIdToNode target array.arr (BitVec.ofNat 64 array.arrSz) array.elOff id

def nodeToId (node : Ptr) : BitVec 32 := avlNodeToId array.arr array.elOff node

end NodeArray

/-! ## The packed word -/

private theorem toNat_elOff {elemSz fieldOff : BitVec 64} (elemSz_lt : elemSz.toNat < 2 ^ 32)
    (fieldOff_lt : fieldOff.toNat < 2 ^ 32) :
    (elOff elemSz fieldOff).toNat = elemSz.toNat * 2 ^ 32 + fieldOff.toNat := by
  have shifted : (elemSz <<< 32).toNat = elemSz.toNat <<< 32 := by
    rw [BitVec.toNat_shiftLeft, Nat.mod_eq_of_lt]
    rw [Nat.shiftLeft_eq]
    omega
  rw [elOff, BitVec.toNat_or, shifted, ← Nat.shiftLeft_add_eq_or_of_lt fieldOff_lt,
    Nat.shiftLeft_eq]

private theorem elOffElem_elOff {elemSz fieldOff : BitVec 64} (elemSz_lt : elemSz.toNat < 2 ^ 32)
    (fieldOff_lt : fieldOff.toNat < 2 ^ 32) : elOffElem (elOff elemSz fieldOff) = elemSz := by
  rw [← BitVec.toNat_inj, elOffElem, BitVec.toNat_ushiftRight, toNat_elOff elemSz_lt fieldOff_lt,
    Nat.shiftRight_eq_div_pow]
  omega

private theorem elOffField_elOff {elemSz fieldOff : BitVec 64} (elemSz_lt : elemSz.toNat < 2 ^ 32)
    (fieldOff_lt : fieldOff.toNat < 2 ^ 32) : elOffField (elOff elemSz fieldOff) = fieldOff := by
  have masked : (elOffField (elOff elemSz fieldOff)).toNat =
      (elOff elemSz fieldOff).toNat % 2 ^ 32 := by
    rw [elOffField, BitVec.toNat_and]
    exact Nat.and_two_pow_sub_one_eq_mod _ 32
  rw [← BitVec.toNat_inj, masked, toNat_elOff elemSz_lt fieldOff_lt]
  omega

namespace NodeArray

variable {array : NodeArray} {i : Nat} {id : BitVec 32}

private theorem toNat_elemSz : (BitVec.ofNat 64 array.elemSz).toNat = array.elemSz := by
  have elemSz_lt := array.elemSz_lt
  rw [BitVec.toNat_ofNat]
  omega

private theorem toNat_fieldOff : (BitVec.ofNat 64 array.fieldOff).toNat = array.fieldOff := by
  have fieldOff_lt := array.fieldOff_lt
  rw [BitVec.toNat_ofNat]
  omega

private theorem elOff_elem : elOffElem array.elOff = BitVec.ofNat 64 array.elemSz :=
  elOffElem_elOff (by rw [toNat_elemSz]; exact array.elemSz_lt)
    (by rw [toNat_fieldOff]; exact array.fieldOff_lt)

private theorem elOff_field : elOffField array.elOff = BitVec.ofNat 64 array.fieldOff :=
  elOffField_elOff (by rw [toNat_elemSz]; exact array.elemSz_lt)
    (by rw [toNat_fieldOff]; exact array.fieldOff_lt)

/-! ## Addresses -/

private theorem elemSz_pos : 0 < array.elemSz := by
  have node_fits := array.node_fits
  unfold avlNodeSize at node_fits
  omega

private theorem fieldOff_lt_elemSz : array.fieldOff < array.elemSz := by
  have node_fits := array.node_fits
  unfold avlNodeSize at node_fits
  omega

/-- The offsets of the nodes lie within the array. -/
theorem offset_lt (inside : i < array.arrSz) :
    array.arr.toNat + (i * array.elemSz + array.fieldOff) < 2 ^ 64 := by
  have below : (i + 1) * array.elemSz ≤ array.arrSz * array.elemSz := Nat.mul_le_mul_right _ inside
  have in_memory := array.in_memory
  have fieldOff_lt := array.fieldOff_lt_elemSz
  rw [Nat.add_mul] at below
  omega

private theorem toNat_node (inside : i < array.arrSz) :
    (array.node i).toNat = array.arr.toNat + (i * array.elemSz + array.fieldOff) := by
  have below := offset_lt inside
  rw [node, BitVec.toNat_add, BitVec.toNat_ofNat]
  omega

private theorem node_ne_zero (inside : i < array.arrSz) : array.node i ≠ 0 := by
  intro isZero
  have value := toNat_node inside
  have present := array.present
  rw [isZero] at value
  apply present
  rw [← BitVec.toNat_inj]
  simp at value ⊢
  omega

private theorem node_inj {j : Nat} (inside : i < array.arrSz) (inside' : j < array.arrSz)
    (same : array.node i = array.node j) : i = j := by
  have value := congrArg BitVec.toNat same
  rw [toNat_node inside, toNat_node inside'] at value
  have product : i * array.elemSz = j * array.elemSz := by omega
  exact Nat.eq_of_mul_eq_mul_right array.elemSz_pos product

/-- Identifiers have 32 bits. -/
theorem toNat_nodeToId (inside : i < array.arrSz) :
    (array.nodeToId (array.node i)).toNat = (i + 1) % 2 ^ 32 := by
  have offset : (array.node i - BitVec.ofNat 64 array.fieldOff - array.arr).toNat =
      i * array.elemSz := by
    have below := offset_lt inside
    have isNode : array.node i = array.arr + BitVec.ofNat 64 (i * array.elemSz) +
        BitVec.ofNat 64 array.fieldOff := by
      rw [node, BitVec.ofNat_add, BitVec.add_assoc]
    rw [isNode, BitVec.add_sub_cancel, BitVec.add_comm, BitVec.add_sub_cancel,
      BitVec.toNat_ofNat, Nat.mod_eq_of_lt (by omega)]
  have below := offset_lt inside
  have divided : (i * array.elemSz) / array.elemSz = i := Nat.mul_div_cancel _ array.elemSz_pos
  have small : i < 2 ^ 64 := by
    have : i * 1 ≤ i * array.elemSz := Nat.mul_le_mul_left _ array.elemSz_pos
    omega
  unfold nodeToId avlNodeToId
  rw [if_neg (node_ne_zero inside), elOff_elem, elOff_field, BitVec.toNat_setWidth,
    BitVec.toNat_add, BitVec.toNat_udiv, offset, toNat_elemSz, divided]
  show (i + 1) % 2 ^ 64 % 2 ^ 32 = _
  omega

/-- The bound is the offset of the last node. -/
theorem toNat_bound :
    ((BitVec.ofNat 64 array.arrSz - 1) * BitVec.ofNat 64 array.elemSz +
      BitVec.ofNat 64 array.fieldOff).toNat =
      (array.arrSz - 1) * array.elemSz + array.fieldOff := by
  have nonempty := array.nonempty
  have below := array.offset_lt (Nat.sub_lt nonempty Nat.one_pos)
  have counted : BitVec.ofNat 64 array.arrSz - 1 = BitVec.ofNat 64 (array.arrSz - 1) := by
    obtain ⟨n, isSize⟩ := Nat.exists_eq_add_of_le nonempty
    rw [isSize, Nat.add_sub_cancel_left, Nat.add_comm 1 n, BitVec.ofNat_add]
    exact BitVec.add_sub_cancel ..
  rw [counted, ← BitVec.ofNat_mul, ← BitVec.ofNat_add, BitVec.toNat_ofNat,
    Nat.mod_eq_of_lt (by omega)]

/-- The offset that an identifier names. -/
theorem toNat_offset (used : id ≠ 0) :
    ((id - 1).setWidth 64 * BitVec.ofNat 64 array.elemSz + BitVec.ofNat 64 array.fieldOff).toNat =
      (id.toNat - 1) * array.elemSz + array.fieldOff := by
  have isLt := id.isLt
  have positive : 1 ≤ id.toNat := by
    rw [Nat.one_le_iff_ne_zero]
    intro isZero
    exact used (BitVec.toNat_inj.mp isZero)
  have index : ((id - 1).setWidth 64).toNat = id.toNat - 1 := by
    rw [BitVec.toNat_setWidth, BitVec.toNat_sub]
    show (2 ^ 32 - 1 + id.toNat) % 2 ^ 32 % 2 ^ 64 = _
    omega
  have product : (id.toNat - 1) * array.elemSz ≤ (2 ^ 32 - 2) * (2 ^ 32 - 1) :=
    Nat.mul_le_mul (by omega) (by have := array.elemSz_lt; omega)
  have fieldOff_lt := array.fieldOff_lt
  rw [BitVec.toNat_add, BitVec.toNat_mul, index, toNat_elemSz, toNat_fieldOff,
    Nat.mod_eq_of_lt (by omega), Nat.mod_eq_of_lt (by omega)]

private theorem idToNode_zero (target : Target) : array.idToNode target 0 = 0 := by
  rw [idToNode, avlIdToNode, if_pos rfl]

private theorem idToNode_userspace (used : id ≠ 0) :
    array.idToNode .userspace id = array.node (id.toNat - 1) := by
  rw [idToNode, avlIdToNode, if_neg used, elOff_elem, elOff_field, boundedArrayIdx, node]
  congr 1
  rw [← BitVec.toNat_inj, toNat_offset used, BitVec.toNat_ofNat]
  have isLt := ((id - 1).setWidth 64 * BitVec.ofNat 64 array.elemSz +
    BitVec.ofNat 64 array.fieldOff).isLt
  rw [toNat_offset used] at isLt
  exact (Nat.mod_eq_of_lt isLt).symm

/-- In BPF the last element has no identifier. -/
theorem idToNode_bpf (used : id ≠ 0) :
    array.idToNode .bpf id =
      if array.arrSz ≤ id.toNat then 0 else array.idToNode .userspace id := by
  have bounded : (BitVec.ofNat 64 array.arrSz - 1) * BitVec.ofNat 64 array.elemSz +
      BitVec.ofNat 64 array.fieldOff ≤ (id - 1).setWidth 64 * BitVec.ofNat 64 array.elemSz +
        BitVec.ofNat 64 array.fieldOff ↔ array.arrSz ≤ id.toNat := by
    have nonempty := array.nonempty
    have positive : id.toNat ≠ 0 := fun isZero => used (BitVec.toNat_inj.mp isZero)
    rw [BitVec.le_def, toNat_bound, toNat_offset used, Nat.add_le_add_iff_right,
      Nat.mul_le_mul_right_iff array.elemSz_pos]
    omega
  simp only [idToNode, avlIdToNode, if_neg used, elOff_elem, elOff_field, boundedArrayIdx,
    if_neg array.present, bounded]

end NodeArray

/-! ## Elements and identifiers -/

/-- What the identifier of element `i` does in BPF. -/
structure ElementLaw (array : NodeArray) (i : Nat) : Prop where
  roundTrip : array.idToNode .bpf (array.nodeToId (array.node i)) = array.node i
  packed : elOffElem array.elOff = BitVec.ofNat 64 array.elemSz ∧
    elOffField array.elOff = BitVec.ofNat 64 array.fieldOff
  null : array.idToNode .bpf 0 = 0 ∧
    ∀ id : BitVec 32, array.arrSz < id.toNat → array.idToNode .bpf id = 0
  /-- The only place where the builds differ. -/
  alike : array.idToNode .bpf (array.nodeToId (array.node i)) =
    array.idToNode .userspace (array.nodeToId (array.node i))

private theorem NodeArray.null_above {array : NodeArray} {id : BitVec 32}
    (above : array.arrSz < id.toNat) : array.idToNode .bpf id = 0 := by
  have used : id ≠ 0 := by
    rintro rfl
    exact absurd above (Nat.not_lt_zero _)
  rw [idToNode_bpf used, if_pos above.le]

private theorem ElementLaw.visible {array : NodeArray} {i : Nat} (law : ElementLaw array i)
    (inside : i < array.arrSz) : i + 1 < array.arrSz ∧ i + 1 < 2 ^ 32 := by
  have isId := NodeArray.toNat_nodeToId inside
  have roundTrip := law.roundTrip
  have used : array.nodeToId (array.node i) ≠ 0 := by
    intro isZero
    rw [isZero, NodeArray.idToNode_zero] at roundTrip
    exact NodeArray.node_ne_zero inside roundTrip.symm
  have positive : (array.nodeToId (array.node i)).toNat ≠ 0 :=
    fun isZero => used (BitVec.toNat_inj.mp isZero)
  rw [NodeArray.idToNode_bpf used] at roundTrip
  split at roundTrip
  · exact absurd roundTrip.symm (NodeArray.node_ne_zero inside)
  · next notLast =>
      rw [NodeArray.idToNode_userspace used] at roundTrip
      have same := NodeArray.node_inj (by omega) inside roundTrip
      omega

private theorem elementLaw_of_visible {array : NodeArray} {i : Nat} (notLast : i + 1 < array.arrSz)
    (fits : i + 1 < 2 ^ 32) : ElementLaw array i := by
  have inside : i < array.arrSz := by omega
  have isId := NodeArray.toNat_nodeToId inside
  rw [Nat.mod_eq_of_lt fits] at isId
  have used : array.nodeToId (array.node i) ≠ 0 := by
    intro isZero
    rw [isZero] at isId
    cases isId
  have bpf : array.idToNode .bpf (array.nodeToId (array.node i)) =
      array.idToNode .userspace (array.nodeToId (array.node i)) := by
    rw [NodeArray.idToNode_bpf used, if_neg (by omega)]
  have userspace : array.idToNode .userspace (array.nodeToId (array.node i)) =
      array.node i := by
    rw [NodeArray.idToNode_userspace used, isId, Nat.add_sub_cancel]
  exact ⟨bpf.trans userspace, ⟨NodeArray.elOff_elem, NodeArray.elOff_field⟩,
    ⟨NodeArray.idToNode_zero .bpf, fun _ => NodeArray.null_above⟩, bpf⟩

/-- An element is in bijection with its identifier in BPF, as it is in userspace, exactly
if it is not the last one and its identifier fits; so on no array are all elements. -/
theorem elementLaw_iff (array : NodeArray) :
    (∀ i < array.arrSz, ElementLaw array i ↔ i + 1 < array.arrSz ∧ i + 1 < 2 ^ 32) ∧
    ¬ ∀ i < array.arrSz, ElementLaw array i := by
  constructor
  · intro i inside
    exact ⟨fun law => law.visible inside, fun visible => elementLaw_of_visible visible.1 visible.2⟩
  · intro law
    have nonempty := array.nonempty
    have last := (law (array.arrSz - 1) (by omega)).visible (by omega)
    omega

private theorem twoNodes_fits : BitVec.ofNat 64 4096 ≠ 0 ∧ 1 ≤ 2 ∧ 64 < 2 ^ 32 ∧ 8 < 2 ^ 32 ∧
    8 + avlNodeSize ≤ 64 ∧ (BitVec.ofNat 64 4096).toNat + 2 * 64 ≤ 2 ^ 64 := by decide

def twoNodes : NodeArray where
  arr := BitVec.ofNat 64 4096
  arrSz := 2
  elemSz := 64
  fieldOff := 8
  present := twoNodes_fits.1
  nonempty := twoNodes_fits.2.1
  elemSz_lt := twoNodes_fits.2.2.1
  fieldOff_lt := twoNodes_fits.2.2.2.1
  node_fits := twoNodes_fits.2.2.2.2.1
  in_memory := twoNodes_fits.2.2.2.2.2

/-- The second of two elements is null in BPF. -/
theorem last_element_null :
    twoNodes.idToNode .bpf (twoNodes.nodeToId (twoNodes.node 1)) = 0 ∧
    twoNodes.idToNode .userspace (twoNodes.nodeToId (twoNodes.node 1)) = twoNodes.node 1 ∧
    ¬ ElementLaw twoNodes 1 := by
  refine ⟨by decide, by decide, ?_⟩
  intro law
  exact absurd law.alike (by decide)

end Ghost.Avl.Ids
