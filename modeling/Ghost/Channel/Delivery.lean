import Ghost.Channel.Ring
import Ghost.Lib.Bits

/-!
# Delivery

The slots between tail and head are messages laid out one after another. What the
kernel writes stands behind them, and what the agent reads is the first of them.
-/

set_option autoImplicit false

namespace Ghost.Channel

open Lib

section Arithmetic

private theorem consumedSlots_toNat (length : BitVec 16) :
    (consumedSlots length).toNat = slotsFor length.toNat := by
  have below := length.isLt
  have size : slotSize = BitVec.twoPow 32 3 := by decide
  have sizeNat : slotSize.toNat = 8 := rfl
  have lessNat : (slotSize - 1).toNat = 7 := rfl
  have rounded := toNat_and_not_twoPow_sub_one (by decide : 3 < 32)
    (length.setWidth 32 + (slotSize - 1))
  rw [← size, BitVec.toNat_add, BitVec.toNat_setWidth, lessNat] at rounded
  unfold consumedSlots roundup2
  rw [BitVec.toNat_udiv, rounded, sizeNat]
  unfold slotsFor
  omega

private theorem msgType_nop (seqnum : BitVec 32) (room : Nat) :
    msgType (nop seqnum room) = MSG_NOP := by
  unfold msgType nop
  apply BitVec.eq_of_getLsbD_eq
  intro i inRange
  simp only [BitVec.getLsbD_extractLsb', BitVec.getLsbD_append]
  simp [inRange, show i < 32 by omega]

private theorem msgLength_nop (seqnum : BitVec 32) (room : Nat) :
    msgLength (nop seqnum room) = BitVec.ofNat 16 (8 * room) := by
  unfold msgLength nop
  apply BitVec.eq_of_getLsbD_eq
  intro i inRange
  simp only [BitVec.getLsbD_extractLsb', BitVec.getLsbD_append]
  simp [inRange, show 16 + i < 32 by omega]

namespace RingSize

variable (size : RingSize)

private theorem nelems_toNat : size.nelems.toNat = 2 ^ size.log := by
  unfold nelems
  rw [BitVec.toNat_twoPow]
  exact Nat.mod_eq_of_lt (Nat.pow_lt_pow_right (by decide) size.fits)

private theorem nelems_pos : 0 < size.nelems.toNat := by
  rw [nelems_toNat]
  exact Nat.two_pow_pos _

private theorem nelems_lt : size.nelems.toNat < 2 ^ 32 := size.nelems.isLt

private theorem nelems_dvd : size.nelems.toNat ∣ 2 ^ 32 := by
  rw [nelems_toNat]
  exact Nat.pow_dvd_pow 2 size.fits.le

/-- The mask takes the index modulo the ring. -/
theorem slot_eq_mod (index : BitVec 32) : size.slot index = index.toNat % size.nelems.toNat := by
  have positive : (1 : BitVec 32) ≤ size.nelems := BitVec.le_def.mpr size.nelems_pos
  unfold slot
  rw [BitVec.toNat_and, BitVec.toNat_sub_of_le positive, nelems_toNat]
  exact Nat.and_two_pow_sub_one_eq_mod _ _

/-- The ring does not notice that the indices wrap. -/
theorem add_mod (index : BitVec 32) (count : Nat) :
    (index + BitVec.ofNat 32 count).toNat % size.nelems.toNat =
      (index.toNat + count) % size.nelems.toNat := by
  rw [BitVec.toNat_add, BitVec.toNat_ofNat, Nat.add_mod_mod,
    Nat.mod_mod_of_dvd _ size.nelems_dvd]

end RingSize

end Arithmetic

/-! ## Messages in the ring -/

/-- A block that the agent can take for a message: its header tells its size, and
a `MSG_NOP` consists of its header. -/
def Framed (block : Block (BitVec 64)) : Prop :=
  ∃ header payload, block.cells = header :: payload ∧ 0 < block.size ∧
    block.size = slotsFor (msgLength header).toNat ∧
    block.cells.length = if msgType header = MSG_NOP then 1 else block.size

def GhostMsg.block (msg : GhostMsg) : Block (BitVec 64) := ⟨msg.slots, msg.slots.length, le_rfl⟩

private theorem GhostMsg.framed (msg : GhostMsg) : Framed msg.block := by
  refine ⟨msg.header, msg.payload, rfl, Nat.succ_pos _, msg.payloadLength, ?_⟩
  rw [if_neg msg.notNop]
  rfl

private theorem GhostMsg.isNop_slots (msg : GhostMsg) : isNop msg.slots = false :=
  decide_eq_false msg.notNop

/-- Padding is needed only before a message that is longer, so its length fits. -/
theorem framed_nop (seqnum : BitVec 32) {room : Nat} (positive : 0 < room) (short : room < 8192) :
    Framed ⟨[nop seqnum room], room, positive⟩ := by
  refine ⟨nop seqnum room, [], rfl, positive, ?_, ?_⟩
  · rw [msgLength_nop, BitVec.toNat_ofNat]
    unfold slotsFor
    dsimp only
    omega
  · rw [if_pos (msgType_nop seqnum room)]
    rfl

private theorem GhostMsg.slots_le (msg : GhostMsg) : msg.slots.length ≤ 8192 := by
  have below := (msgLength msg.header).isLt
  have count : msg.slots.length = slotsFor (msgLength msg.header).toNat := msg.payloadLength
  rw [count]
  unfold slotsFor
  omega

/-- The messages among the blocks. -/
def delivered (blocks : List (Block (BitVec 64))) : List (List (BitVec 64)) :=
  (blocks.map Block.cells).filter fun cells => !isNop cells

private theorem delivered_append (front back : List (Block (BitVec 64))) :
    delivered (front ++ back) = delivered front ++ delivered back := by
  simp [delivered]

@[simp] theorem delivered_block (msg : GhostMsg) : delivered [msg.block] = [msg.slots] := by
  simp [delivered, GhostMsg.block, msg.isNop_slots]

@[simp] theorem messages_cons (kind : ChannelLabel → Option (List (BitVec 64)))
    (label : ChannelLabel) (history : List ChannelLabel) :
    messages kind (label :: history) = messages kind history ++ (kind label).toList := by
  unfold messages
  cases kept : kind label with
  | none => simp [List.filterMap_cons_none kept]
  | some msg => simp [List.filterMap_cons_some kept]

/-! ## The invariant -/

/-- The kernel has room for what it is writing, and has written it up to here. -/
def KernelReady (size : RingSize) (ring : GhostRing) (used : Nat) : KernelPc → Prop
  | .idle => True
  | .padding msg => size.nelems.toNat < size.slot ring.head + msg.slots.length ∧
      used + size.room ring.head + msg.slots.length ≤ size.nelems.toNat
  | .padded msg => used + size.room ring.head + msg.slots.length ≤ size.nelems.toNat ∧
      ∃ pad, Framed pad ∧ delivered [pad] = [] ∧ pad.size = size.room ring.head ∧
        Laid size.nelems.toNat ring.msgs ring.head.toNat [pad]
  | .writing staged msg written => ∃ pads, Block.total pads = staged ∧
      (∀ pad ∈ pads, Framed pad) ∧ delivered pads = [] ∧
      Laid size.nelems.toNat ring.msgs ring.head.toNat pads ∧
      (ring.head.toNat + staged) % size.nelems.toNat + msg.slots.length ≤ size.nelems.toNat ∧
      used + staged + msg.slots.length ≤ size.nelems.toNat ∧ written ≤ msg.slots.length ∧
      Stands ring.msgs ((ring.head.toNat + staged) % size.nelems.toNat) (msg.slots.take written)

/-- The agent is at the first unread message. -/
def AgentReady (size : RingSize) (tail : BitVec 32) (unread : List (Block (BitVec 64)))
    (seen consumed : List (List (BitVec 64))) : AgentPc → Prop
  | .idle => seen = consumed
  | .tailLoaded loaded => loaded = tail ∧ seen = consumed
  | .headLoaded loaded => loaded = tail ∧ unread ≠ [] ∧ seen = consumed
  | .dispatching tidx read => tidx = size.slot tail ∧ seen = consumed ∧
      ∃ block rest, unread = block :: rest ∧ read <+: block.cells
  | .dispatched tidx msg => tidx = size.slot tail ∧
      ∃ block rest, unread = block :: rest ∧ msg = block.cells ∧
        seen = consumed ++ delivered [block]
  | .consuming tidx msg loaded => loaded = tail ∧ tidx = size.slot tail ∧
      ∃ block rest, unread = block :: rest ∧ msg = block.cells ∧
        seen = consumed ++ delivered [block]
  | .checkFailed => False

structure Delivers (size : RingSize) (state : ChannelState × List ChannelLabel)
    (unread : List (Block (BitVec 64))) : Prop where
  framed : ∀ block ∈ unread, Framed block
  laid : Laid size.nelems.toNat state.1.ring.msgs state.1.ring.tail.toNat unread
  head : state.1.ring.head = state.1.ring.tail + BitVec.ofNat 32 (Block.total unread)
  bounded : Block.total unread ≤ size.nelems.toNat
  overflow : state.1.ring.overflow = 0
  kernel : KernelReady size state.1.ring (Block.total unread) state.1.kernel
  agent : AgentReady size state.1.ring.tail unread
    (messages ChannelLabel.seen state.2) (messages ChannelLabel.consumed state.2) state.1.agent
  published : messages ChannelLabel.published state.2 =
    messages ChannelLabel.consumed state.2 ++ delivered unread

section Invariant

variable {size : RingSize} {state next : ChannelState × List ChannelLabel}
  {unread : List (Block (BitVec 64))}

private theorem Delivers.used (delivers : Delivers size state unread) :
    state.1.ring.used = Block.total unread := by
  have small := delivers.bounded.trans_lt size.nelems_lt
  unfold GhostRing.used
  rw [delivers.head, BitVec.add_comm, BitVec.add_sub_cancel, BitVec.toNat_ofNat,
    Nat.mod_eq_of_lt small]

/-- Positions counted from the head are positions behind the unread messages. -/
theorem Delivers.head_mod (delivers : Delivers size state unread) (offset : Nat) :
    (state.1.ring.head.toNat + offset) % size.nelems.toNat =
      (state.1.ring.tail.toNat + (Block.total unread + offset)) % size.nelems.toNat := by
  rw [← Nat.add_assoc, delivers.head]
  exact Nat.ModEq.add_right offset (size.add_mod _ _)

private theorem AgentReady.append {tail : BitVec 32} {seen consumed : List (List (BitVec 64))}
    {pc : AgentPc} (ready : AgentReady size tail unread seen consumed pc)
    (more : List (Block (BitVec 64))) :
    AgentReady size tail (unread ++ more) seen consumed pc := by
  cases pc with
  | headLoaded loaded =>
      obtain ⟨same, nonempty, none⟩ := ready
      exact ⟨same, List.append_ne_nil_of_left_ne_nil nonempty more, none⟩
  | dispatching tidx read =>
      obtain ⟨same, none, block, rest, rfl, reads⟩ := ready
      exact ⟨same, none, block, rest ++ more, rfl, reads⟩
  | dispatched tidx msg =>
      obtain ⟨same, block, rest, rfl, reads, one⟩ := ready
      exact ⟨same, block, rest ++ more, rfl, reads, one⟩
  | consuming tidx msg loaded =>
      obtain ⟨current, same, block, rest, rfl, reads, one⟩ := ready
      exact ⟨current, same, block, rest ++ more, rfl, reads, one⟩
  | _ => exact ready

private theorem KernelReady.mono {ring : GhostRing} {used used' : Nat} {pc : KernelPc}
    (ready : KernelReady size ring used pc) (fewer : used' ≤ used) :
    KernelReady size ring used' pc := by
  cases pc with
  | idle => trivial
  | padding msg =>
      obtain ⟨wraps, space⟩ := ready
      exact ⟨wraps, by omega⟩
  | padded msg =>
      obtain ⟨space, pad⟩ := ready
      exact ⟨by omega, pad⟩
  | writing staged msg written =>
      obtain ⟨pads, count, framed, silent, laid, contiguous, space, rest⟩ := ready
      exact ⟨pads, count, framed, silent, laid, contiguous, by omega, rest⟩

/-- The kernel writes behind the unread messages, or writes nothing. -/
theorem Delivers.rewrite (delivers : Delivers size state unread) {msgs : Nat → BitVec 64}
    {kernel : KernelPc} {action : KernelAction}
    (laid : Laid size.nelems.toNat msgs state.1.ring.tail.toNat unread)
    (unpublished : (ChannelLabel.kernel action).published = none)
    (ready : KernelReady size { state.1.ring with msgs } (Block.total unread) kernel) :
    Delivers size (⟨{ state.1.ring with msgs }, kernel, state.1.agent⟩,
      .kernel action :: state.2) unread where
  framed := delivers.framed
  laid := laid
  head := delivers.head
  bounded := delivers.bounded
  overflow := delivers.overflow
  kernel := ready
  agent := by
    have same := delivers.agent
    simp only [messages_cons, ChannelLabel.seen, ChannelLabel.consumed, Option.toList_none,
      List.append_nil]
    exact same
  published := by
    have same := delivers.published
    simp only [messages_cons, unpublished, ChannelLabel.consumed, Option.toList_none,
      List.append_nil]
    exact same

private theorem Delivers.laid_store (delivers : Delivers size state unread) (offset : Nat)
    (space : Block.total unread + offset < size.nelems.toNat) (value : BitVec 64) :
    Laid size.nelems.toNat (Function.update state.1.ring.msgs
      ((state.1.ring.head.toNat + offset) % size.nelems.toNat) value)
      state.1.ring.tail.toNat unread := by
  rw [delivers.head_mod]
  exact delivers.laid.update (Nat.le_add_right ..) space

/-- The kernel advances the head over what it has written. -/
theorem Delivers.publish (delivers : Delivers size state unread) {kernel : KernelPc}
    {action : KernelAction} {more : List (Block (BitVec 64))}
    (framed : ∀ block ∈ more, Framed block)
    (laid : Laid size.nelems.toNat state.1.ring.msgs state.1.ring.head.toNat more)
    (space : Block.total unread + Block.total more ≤ size.nelems.toNat)
    (published : (ChannelLabel.kernel action).published.toList = delivered more)
    (ready : KernelReady size { state.1.ring with
        head := state.1.ring.head + BitVec.ofNat 32 (Block.total more) }
      (Block.total (unread ++ more)) kernel) :
    Delivers size (⟨{ state.1.ring with
        head := state.1.ring.head + BitVec.ofNat 32 (Block.total more) }, kernel, state.1.agent⟩,
      .kernel action :: state.2) (unread ++ more) where
  framed := by
    intro block member
    cases List.mem_append.mp member with
    | inl earlier => exact delivers.framed block earlier
    | inr new => exact framed block new
  laid := laid_append.mpr ⟨delivers.laid, laid.congr (delivers.head_mod 0)⟩
  head := by
    dsimp only
    rw [delivers.head, Block.total_append, BitVec.ofNat_add, BitVec.add_assoc]
  bounded := by
    rw [Block.total_append]
    exact space
  overflow := delivers.overflow
  kernel := ready
  agent := by
    have same := delivers.agent.append more
    simp only [messages_cons, ChannelLabel.seen, ChannelLabel.consumed, Option.toList_none,
      List.append_nil]
    exact same
  published := by
    have same := delivers.published
    simp only [messages_cons, published, ChannelLabel.consumed, Option.toList_none,
      List.append_nil, delivered_append]
    rw [same, List.append_assoc]

private theorem Delivers.kernelStep (delivers : Delivers size state unread) {action : KernelAction}
    (moved : (channels size).step state (.kernel action) next) :
    ∃ unread', Delivers size next unread' := by
  have used := delivers.used
  have headSlot := size.slot_eq_mod state.1.ring.head
  have inRing := Nat.mod_lt state.1.ring.head.toNat size.nelems_pos
  have ready := delivers.kernel
  have storeLaid := delivers.laid_store
  obtain ⟨⟨ring, kernel, agent⟩, past⟩ := state
  obtain ⟨⟨ring', kernel', agent'⟩, past'⟩ := next
  obtain ⟨⟨moved, sameAgent⟩, history⟩ := moved
  dsimp only at used headSlot ready moved sameAgent history inRing storeLaid
  subst sameAgent history
  have roomEq : size.room ring.head = size.nelems.toNat - ring.head.toNat % size.nelems.toNat :=
    congrArg (size.nelems.toNat - ·) headSlot
  have wrapped : (ring.head.toNat + size.room ring.head) % size.nelems.toNat = 0 := by
    rw [roomEq, ← Nat.mod_add_mod, Nat.add_sub_cancel' inRing.le, Nat.mod_self]
  cases moved with
  | produceFits contiguous space =>
      rw [headSlot] at contiguous
      rw [used] at space
      refine ⟨unread, delivers.rewrite delivers.laid rfl ?_⟩
      exact ⟨[], rfl, nofun, rfl, trivial, contiguous, space, Nat.zero_le _, nofun⟩
  | produceWraps wraps space =>
      rw [used] at space
      exact ⟨unread, delivers.rewrite delivers.laid rfl ⟨wraps, space⟩⟩
  | @pad msg seqnum =>
      obtain ⟨wraps, space⟩ := ready
      have short := msg.slots_le
      have positive : 0 < size.room ring.head := by omega
      refine ⟨unread, delivers.rewrite ?_ rfl ⟨space, ?_⟩⟩
      · rw [headSlot]
        exact storeLaid 0 (by omega) _
      · refine ⟨⟨[nop seqnum (size.room ring.head)], size.room ring.head, positive⟩,
          framed_nop seqnum positive (by omega), ?_, rfl, ?_⟩
        · simp [delivered, isNop, msgType_nop]
        · refine ⟨?_, ?_, trivial⟩
          · dsimp only
            omega
          · rw [headSlot]
            exact stands_singleton _ _
  | @publishPad msg =>
      obtain ⟨space, pad, framed, silent, padSize, laid⟩ := ready
      have padTotal : Block.total [pad] = size.room ring.head := by simp [padSize]
      have atStart : (ring.head + BitVec.ofNat 32 (Block.total [pad])).toNat %
          size.nelems.toNat = 0 := by
        rw [padTotal, size.add_mod]
        exact wrapped
      rw [← padTotal] at space ⊢
      refine ⟨unread ++ [pad], delivers.publish (by simpa using framed) laid (by omega)
        silent.symm ⟨[], rfl, nofun, rfl, trivial, ?_, ?_, Nat.zero_le _, nofun⟩⟩
      · rw [Nat.add_zero, atStart]
        omega
      · rw [Block.total_append]
        omega
  | @holdPad msg =>
      obtain ⟨space, pad, framed, silent, padSize, laid⟩ := ready
      refine ⟨unread, delivers.rewrite delivers.laid rfl ⟨[pad], by simp [padSize],
        by simpa using framed, silent, laid, ?_, space, Nat.zero_le _, nofun⟩⟩
      rw [wrapped]
      omega
  | @store staged msg written inRange =>
      obtain ⟨pads, count, framed, silent, laid, contiguous, space, short, stands⟩ := ready
      have address : size.slot (ring.head + BitVec.ofNat 32 staged) + written =
          (ring.head.toNat + (staged + written)) % size.nelems.toNat := by
        rw [size.slot_eq_mod, size.add_mod, ← Nat.add_assoc,
          Nat.add_mod (ring.head.toNat + staged), Nat.mod_eq_of_lt (by omega : written < _)]
        exact (Nat.mod_eq_of_lt (by omega)).symm
      refine ⟨unread, delivers.rewrite ?_ rfl
        ⟨pads, count, framed, silent, ?_, contiguous, space, inRange, ?_⟩⟩
      · rw [address]
        exact storeLaid (staged + written) (by omega) _
      · dsimp only
        rw [address]
        exact laid.update (by omega) (by omega)
      · dsimp only
        rw [size.slot_eq_mod, size.add_mod]
        exact stands.extend inRange
  | @publish staged msg =>
      obtain ⟨pads, count, framed, silent, laid, contiguous, space, short, stands⟩ := ready
      have total : Block.total (pads ++ [msg.block]) = staged + msg.slots.length := by
        simp [count, GhostMsg.block]
      rw [← total]
      refine ⟨unread ++ (pads ++ [msg.block]), delivers.publish ?_ ?_ ?_ ?_ trivial⟩
      · intro block member
        cases List.mem_append.mp member with
        | inl pad => exact framed block pad
        | inr last =>
            obtain rfl := List.mem_singleton.mp last
            exact msg.framed
      · rw [List.take_length] at stands
        refine laid_append.mpr ⟨laid, ?_, ?_, trivial⟩
        · rw [count]
          exact contiguous
        · rw [count]
          exact stands
      · rw [total]
        omega
      · rw [delivered_append, silent, delivered_block]
        rfl

/-! ## Steps of the agent -/

/-- Nothing but a whole block stops `DispatchMessage` from reading on. -/
theorem Framed.dispatchReads {block : Block (BitVec 64)} (framed : Framed block)
    {read : List (BitVec 64)} (reads : read <+: block.cells) :
    read.length < Channel.dispatchReads read ↔ read ≠ block.cells := by
  obtain ⟨header, payload, isCells, positive, isSize, count⟩ := framed
  cases read with
  | nil => simp [Channel.dispatchReads, isCells]
  | cons first others =>
      have isHeader : first = header := by
        rw [isCells] at reads
        exact (List.cons_prefix_cons.mp reads).1
      have needed : Channel.dispatchReads (first :: others) = block.cells.length := by
        rw [isHeader, count, isSize, ← consumedSlots_toNat]
        rfl
      rw [needed]
      constructor
      · intro shorter same
        rw [same] at shorter
        exact absurd shorter (Nat.lt_irrefl _)
      · intro different
        exact Nat.lt_of_le_of_ne reads.length_le fun same => different (reads.eq_of_length same)

private theorem delivered_singleton (block : Block (BitVec 64)) :
    delivered [block] = (if isNop block.cells then none else some block.cells).toList := by
  by_cases silent : isNop block.cells <;> simp [delivered, silent]

/-- The agent loads something. -/
theorem Delivers.observe (delivers : Delivers size state unread) {agent : AgentPc}
    {action : AgentAction} (unconsumed : (ChannelLabel.agent action).consumed = none)
    (ready : AgentReady size state.1.ring.tail unread
      (messages ChannelLabel.seen (.agent action :: state.2))
      (messages ChannelLabel.consumed state.2) agent) :
    Delivers size (⟨state.1.ring, state.1.kernel, agent⟩, .agent action :: state.2) unread where
  framed := delivers.framed
  laid := delivers.laid
  head := delivers.head
  bounded := delivers.bounded
  overflow := delivers.overflow
  kernel := delivers.kernel
  agent := by
    rw [messages_cons ChannelLabel.consumed, unconsumed, Option.toList_none, List.append_nil]
    exact ready
  published := by
    have same := delivers.published
    rw [messages_cons, messages_cons, unconsumed]
    simpa [ChannelLabel.published] using same

/-- The agent advances the tail over the first message. -/
theorem Delivers.consume {block : Block (BitVec 64)} {rest : List (Block (BitVec 64))}
    (delivers : Delivers size state (block :: rest)) {tail : BitVec 32}
    (advanced : tail = state.1.ring.tail +
      consumedSlots (msgLength (state.1.ring.msgs (size.slot state.1.ring.tail))))
    (one : messages ChannelLabel.seen state.2 =
      messages ChannelLabel.consumed state.2 ++ delivered [block]) :
    Delivers size (⟨{ state.1.ring with tail }, state.1.kernel, .idle⟩,
      .agent (.consume block.cells) :: state.2) rest := by
  obtain ⟨contiguous, stands, laid⟩ := delivers.laid
  have bounded := delivers.bounded
  have head := delivers.head
  rw [Block.total_cons] at bounded head
  have isTail : tail = state.1.ring.tail + BitVec.ofNat 32 block.size := by
    obtain ⟨header, payload, isCells, positive, isSize, count⟩ :=
      delivers.framed block List.mem_cons_self
    have isHeader : state.1.ring.msgs (size.slot state.1.ring.tail) = header := by
      have first := stands 0 (by rw [isCells]; exact Nat.succ_pos _)
      rw [← size.slot_eq_mod, Nat.add_zero] at first
      simpa [isCells] using first
    rw [advanced, isHeader, isSize, ← consumedSlots_toNat, BitVec.ofNat_toNat,
      BitVec.setWidth_eq]
  constructor
  · intro other member
    exact delivers.framed other (List.mem_cons_of_mem _ member)
  · refine laid.congr ?_
    rw [isTail]
    exact (size.add_mod _ _).symm
  · dsimp only
    rw [head, isTail, BitVec.ofNat_add, BitVec.add_assoc]
  · exact (Nat.le_add_left ..).trans bounded
  · exact delivers.overflow
  · refine KernelReady.mono ?_ (Nat.le_add_left (Block.total rest) block.size)
    have ready := delivers.kernel
    rw [Block.total_cons] at ready
    exact ready
  · rw [messages_cons, messages_cons, one, delivered_singleton]
    exact List.append_nil _
  · have published := delivers.published
    have split : delivered (block :: rest) = delivered [block] ++ delivered rest :=
      delivered_append [block] rest
    rw [messages_cons, messages_cons, published, split, delivered_singleton, ← List.append_assoc]
    exact List.append_nil _

private theorem Delivers.agentStep (delivers : Delivers size state unread) {action : AgentAction}
    (moved : (channels size).step state (.agent action) next) :
    ∃ unread', Delivers size next unread' := by
  have ready := delivers.agent
  obtain ⟨⟨ring, kernel, agent⟩, past⟩ := state
  obtain ⟨⟨ring', kernel', agent'⟩, past'⟩ := next
  obtain ⟨⟨moved, sameKernel⟩, history⟩ := moved
  dsimp only at ready moved sameKernel history
  subst sameKernel history
  cases moved with
  | loadTail =>
      refine ⟨unread, delivers.observe rfl ⟨rfl, ?_⟩⟩
      simpa [AgentReady, ChannelLabel.seen] using ready
  | loadHeadEmpty =>
      refine ⟨unread, delivers.observe rfl ?_⟩
      simpa [AgentReady, ChannelLabel.seen] using ready.2
  | loadHead different =>
      obtain ⟨current, none⟩ := ready
      refine ⟨unread, delivers.observe rfl ⟨current, ?_, ?_⟩⟩
      · intro empty
        have head := delivers.head
        rw [empty] at head
        refine different (current.trans ?_)
        simpa using head.symm
      · simpa [ChannelLabel.seen] using none
  | loadOverflow =>
      obtain ⟨current, nonempty, none⟩ := ready
      have calm : ring.overflow = 0 := delivers.overflow
      rw [if_pos calm]
      cases unread with
      | nil => exact absurd rfl nonempty
      | cons block rest =>
          refine ⟨block :: rest, delivers.observe rfl
            ⟨congrArg size.slot current, ?_, block, rest, rfl, List.nil_prefix⟩⟩
          simpa [ChannelLabel.seen] using none
  | @read tidx read more =>
      obtain ⟨current, none, block, rest, rfl, reads⟩ := ready
      have framed := delivers.framed block List.mem_cons_self
      have shorter : read.length < block.cells.length :=
        Nat.lt_of_le_of_ne reads.length_le fun same =>
          (framed.dispatchReads reads).mp more (reads.eq_of_length same)
      have value : ring.msgs (tidx + read.length) = block.cells[read.length] := by
        rw [current, size.slot_eq_mod]
        exact delivers.laid.2.1 read.length shorter
      refine ⟨block :: rest, delivers.observe rfl ⟨current, ?_, block, rest, rfl, ?_⟩⟩
      · simpa [ChannelLabel.seen] using none
      · rw [value]
        exact List.concat_get_prefix reads shorter
  | @dispatch tidx msg whole =>
      obtain ⟨current, none, block, rest, rfl, reads⟩ := ready
      have framed := delivers.framed block List.mem_cons_self
      have complete : msg = block.cells := by
        by_contra partly
        exact whole ((framed.dispatchReads reads).mpr partly)
      refine ⟨block :: rest, delivers.observe rfl ⟨current, block, rest, rfl, complete, ?_⟩⟩
      rw [messages_cons, none, complete, delivered_singleton]
      rfl
  | consumeLoad =>
      obtain ⟨current, first⟩ := ready
      refine ⟨unread, delivers.observe rfl ⟨rfl, current, ?_⟩⟩
      simpa [ChannelLabel.seen] using first
  | consume =>
      obtain ⟨rfl, rfl, block, rest, rfl, rfl, one⟩ := ready
      exact ⟨rest, delivers.consume rfl one⟩

/-! ## The result -/

private theorem channels_deliver (reachable : (channels size).Reachable state) :
    ∃ unread, Delivers size state unread := by
  refine reachable.invariant (fun state => ∃ unread, Delivers size state unread) ?_ ?_
  · intro state starts
    obtain ⟨⟨empty, calm, kernelIdle, agentIdle⟩, noHistory⟩ := starts
    refine ⟨[], ⟨nofun, trivial, ?_, Nat.zero_le _, calm, ?_, ?_, ?_⟩⟩
    · rw [empty]
      exact (BitVec.add_zero _).symm
    · rw [kernelIdle]
      trivial
    · rw [agentIdle, noHistory]
      rfl
    · rw [noHistory]
      rfl
  · intro state label next found moved
    obtain ⟨unread, delivers⟩ := found
    cases label with
    | kernel action => exact delivers.kernelStep moved
    | agent action => exact delivers.agentStep moved

private theorem AgentReady.seen {tail : BitVec 32} {seen consumed : List (List (BitVec 64))}
    {pc : AgentPc}
    (ready : AgentReady size tail unread seen consumed pc) :
    seen = consumed ∨
      ∃ block rest, unread = block :: rest ∧ seen = consumed ++ delivered [block] := by
  cases pc with
  | idle => exact .inl ready
  | tailLoaded loaded => exact .inl ready.2
  | headLoaded loaded => exact .inl ready.2.2
  | dispatching tidx read => exact .inl ready.2.1
  | dispatched tidx msg =>
      obtain ⟨-, block, rest, isUnread, -, one⟩ := ready
      exact .inr ⟨block, rest, isUnread, one⟩
  | consuming tidx msg loaded =>
      obtain ⟨-, -, block, rest, isUnread, -, one⟩ := ready
      exact .inr ⟨block, rest, isUnread, one⟩
  | checkFailed => cases ready

private theorem Delivers.seen_prefix (delivers : Delivers size state unread) :
    messages ChannelLabel.seen state.2 <+: messages ChannelLabel.published state.2 := by
  rw [delivers.published]
  rcases delivers.agent.seen with none | ⟨block, rest, isUnread, one⟩
  · rw [none]
    exact List.prefix_append ..
  · have split : delivered unread = delivered [block] ++ delivered rest := by
      rw [isUnread]
      exact delivered_append [block] rest
    rw [one, split, ← List.append_assoc]
    exact List.prefix_append ..

/-- The indices are equal only when nothing is unread, however often they wrapped. -/
theorem Delivers.empty (delivers : Delivers size state unread)
    (equal : state.1.ring.tail = state.1.ring.head) : unread = [] := by
  have none : Block.total unread = 0 := by
    rw [← delivers.used]
    unfold GhostRing.used
    rw [equal, BitVec.sub_self]
    rfl
  cases unread with
  | nil => rfl
  | cons block rest =>
      obtain ⟨header, payload, isCells, positive, -⟩ := delivers.framed block List.mem_cons_self
      rw [Block.total_cons] at none
      omega

/-- The agent sees the messages that the kernel published, each once and in order;
an empty `Peek` has consumed all of them; and its `CHECK` never fails. -/
theorem channels_deliver_in_order (reachable : (channels size).Reachable state) :
    messages ChannelLabel.seen state.2 <+: messages ChannelLabel.published state.2 ∧
      (∀ next, (channels size).step state (.agent (.loadHead true)) next →
        messages ChannelLabel.consumed state.2 = messages ChannelLabel.published state.2 ∧
          messages ChannelLabel.seen state.2 = messages ChannelLabel.published state.2) ∧
      state.1.agent ≠ .checkFailed := by
  obtain ⟨unread, delivers⟩ := channels_deliver reachable
  refine ⟨delivers.seen_prefix, ?_, ?_⟩
  · intro next moved
    have ready := delivers.agent
    have published := delivers.published
    have empty := delivers.empty
    obtain ⟨⟨ring, kernel, agent⟩, past⟩ := state
    obtain ⟨⟨ring', kernel', agent'⟩, past'⟩ := next
    obtain ⟨⟨moved, -⟩, -⟩ := moved
    dsimp only at moved ready published empty
    cases moved with
    | loadHeadEmpty equal =>
        obtain ⟨current, none⟩ := ready
        rw [empty (current.symm.trans equal)] at published
        have all : messages ChannelLabel.published past = messages ChannelLabel.consumed past :=
          published.trans (List.append_nil _)
        exact ⟨all.symm, none.trans all.symm⟩
  · intro failed
    have ready := delivers.agent
    rw [failed] at ready
    exact ready

end Invariant

def twoSlots : RingSize := ⟨1, by decide⟩

def headerOnly : GhostMsg := ⟨0x80040, [], by decide, by decide, by decide⟩

/-- The indices are about to wrap. -/
def emptyRing : GhostRing := ⟨0xffffffff, 0xffffffff, 0, fun _ => 0⟩

def writtenRing : GhostRing := emptyRing.store 1 0x80040

def fullRing : GhostRing := { writtenRing with head := 0 }

def consumedRing : GhostRing := { fullRing with tail := 0 }

/-- In a ring of two slots whose indices wrap, the agent consumes the one message
and then finds the ring empty. -/
theorem channels_deliver_in_order_wrapping :
    ∃ state next, (channels twoSlots).Reachable state ∧
      (channels twoSlots).step state (.agent (.loadHead true)) next ∧
      messages ChannelLabel.consumed state.2 = [[0x80040]] ∧
      messages ChannelLabel.consumed state.2 = messages ChannelLabel.published state.2 := by
  let step := (channels twoSlots).step
  let produced : List ChannelLabel :=
    [.kernel (.publish headerOnly), .kernel .store, .kernel (.produce headerOnly)]
  let dispatched : List ChannelLabel := .agent (.dispatch [0x80040]) :: .agent .read ::
    .agent .loadOverflow :: .agent (.loadHead false) :: .agent .loadTail :: produced
  let consumed : List ChannelLabel :=
    .agent .loadTail :: .agent (.consume [0x80040]) :: .agent .consumeLoad :: dispatched
  have produces : step (⟨emptyRing, .idle, .idle⟩, []) (.kernel (.produce headerOnly))
      (⟨emptyRing, .writing 0 headerOnly 0, .idle⟩, produced.drop 2) :=
    ⟨⟨.produceFits (by decide) (by decide), rfl⟩, rfl⟩
  have stores : step (⟨emptyRing, .writing 0 headerOnly 0, .idle⟩, produced.drop 2)
      (.kernel .store) (⟨writtenRing, .writing 0 headerOnly 1, .idle⟩, produced.drop 1) :=
    ⟨⟨@KernelStep.store twoSlots emptyRing 0 headerOnly 0 Nat.one_pos, rfl⟩, rfl⟩
  have publishes : step (⟨writtenRing, .writing 0 headerOnly 1, .idle⟩, produced.drop 1)
      (.kernel (.publish headerOnly)) (⟨fullRing, .idle, .idle⟩, produced) :=
    ⟨⟨@KernelStep.publish twoSlots writtenRing 0 headerOnly, rfl⟩, rfl⟩
  have loadsTail : step (⟨fullRing, .idle, .idle⟩, produced) (.agent .loadTail)
      (⟨fullRing, .idle, .tailLoaded 0xffffffff⟩, dispatched.drop 4) :=
    ⟨⟨.loadTail _, rfl⟩, rfl⟩
  have loadsHead : step (⟨fullRing, .idle, .tailLoaded 0xffffffff⟩, dispatched.drop 4)
      (.agent (.loadHead false)) (⟨fullRing, .idle, .headLoaded 0xffffffff⟩, dispatched.drop 3) :=
    ⟨⟨.loadHead (by decide), rfl⟩, rfl⟩
  have loadsOverflow : step (⟨fullRing, .idle, .headLoaded 0xffffffff⟩, dispatched.drop 3)
      (.agent .loadOverflow) (⟨fullRing, .idle, .dispatching 1 []⟩, dispatched.drop 2) :=
    ⟨⟨.loadOverflow _, rfl⟩, rfl⟩
  have reads : step (⟨fullRing, .idle, .dispatching 1 []⟩, dispatched.drop 2) (.agent .read)
      (⟨fullRing, .idle, .dispatching 1 [0x80040]⟩, dispatched.drop 1) :=
    ⟨⟨.read (by decide), rfl⟩, rfl⟩
  have dispatches : step (⟨fullRing, .idle, .dispatching 1 [0x80040]⟩, dispatched.drop 1)
      (.agent (.dispatch [0x80040])) (⟨fullRing, .idle, .dispatched 1 [0x80040]⟩, dispatched) :=
    ⟨⟨.dispatch (by decide), rfl⟩, rfl⟩
  have loadsAgain : step (⟨fullRing, .idle, .dispatched 1 [0x80040]⟩, dispatched)
      (.agent .consumeLoad)
      (⟨fullRing, .idle, .consuming 1 [0x80040] 0xffffffff⟩, consumed.drop 2) :=
    ⟨⟨.consumeLoad _, rfl⟩, rfl⟩
  have consumes : step (⟨fullRing, .idle, .consuming 1 [0x80040] 0xffffffff⟩, consumed.drop 2)
      (.agent (.consume [0x80040])) (⟨consumedRing, .idle, .idle⟩, consumed.drop 1) :=
    ⟨⟨.consume fullRing, rfl⟩, rfl⟩
  have peeks : step (⟨consumedRing, .idle, .idle⟩, consumed.drop 1) (.agent .loadTail)
      (⟨consumedRing, .idle, .tailLoaded 0⟩, consumed) := ⟨⟨.loadTail _, rfl⟩, rfl⟩
  have finds : step (⟨consumedRing, .idle, .tailLoaded 0⟩, consumed)
      (.agent (.loadHead true)) (⟨consumedRing, .idle, .idle⟩, _) :=
    ⟨⟨.loadHeadEmpty rfl, rfl⟩, rfl⟩
  have reachable : (channels twoSlots).Reachable
      (⟨consumedRing, .idle, .tailLoaded 0⟩, consumed) :=
    ⟨_, _, ⟨⟨rfl, rfl, rfl, rfl⟩, rfl⟩, .cons produces (.cons stores (.cons publishes
      (.cons loadsTail (.cons loadsHead (.cons loadsOverflow (.cons reads (.cons dispatches
        (.cons loadsAgain (.cons consumes (.cons peeks (.nil _)))))))))))⟩
  exact ⟨_, _, reachable, finds, rfl, ((channels_deliver_in_order reachable).2.1 _ finds).1⟩

end Ghost.Channel
