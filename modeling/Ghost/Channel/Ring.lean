import Ghost.Lib.Machine
import Ghost.Lib.RingLayout

/-!
# The message ring

`LocalChannel::Peek` and `LocalChannel::Consume` of `lib/channel.cc`, called by the
loop of `Schedule`, against the kernel as the only producer. Every load and store
of either side is a step of its own. A slot is one `ghost_msg` of 8 bytes, a
message its header slot and the slots of its payload.
-/

set_option autoImplicit false

namespace Ghost.Channel

open Lib

def MSG_NOP : BitVec 16 := 0

def msgType (header : BitVec 64) : BitVec 16 := header.extractLsb' 0 16

def msgLength (header : BitVec 64) : BitVec 16 := header.extractLsb' 16 16

def roundup2 (x y : BitVec 32) : BitVec 32 := (x + (y - 1)) &&& ~~~(y - 1)

/-- `sizeof(ghost_msg)`. -/
def slotSize : BitVec 32 := 8

/-- The slots by which `Consume` advances for a message of this length. -/
def consumedSlots (length : BitVec 16) : BitVec 32 :=
  roundup2 (length.setWidth 32) slotSize / slotSize

/-- The slots the kernel writes for a length in bytes. -/
def slotsFor (length : Nat) : Nat := (length + 7) / 8

/-- A message that the kernel produces. -/
structure GhostMsg where
  header : BitVec 64
  payload : List (BitVec 64)
  notNop : msgType header ≠ MSG_NOP
  lengthAtLeast : 8 ≤ (msgLength header).toNat
  payloadLength : payload.length + 1 = slotsFor (msgLength header).toNat

def GhostMsg.slots (msg : GhostMsg) : List (BitVec 64) := msg.header :: msg.payload

/-- The header of the message that fills the ring up to its end. -/
def nop (seqnum : BitVec 32) (room : Nat) : BitVec 64 :=
  seqnum ++ (BitVec.ofNat 16 (8 * room) ++ MSG_NOP : BitVec 32)

/-- `nelems` is a power of two. -/
structure RingSize where
  log : Nat
  fits : log < 32

namespace RingSize

def nelems (size : RingSize) : BitVec 32 := BitVec.twoPow 32 size.log

/-- `index & (nelems - 1)`. -/
def slot (size : RingSize) (index : BitVec 32) : Nat := (index &&& (size.nelems - 1)).toNat

/-- The slots from an index to the end of the ring. -/
def room (size : RingSize) (index : BitVec 32) : Nat := size.nelems.toNat - size.slot index

end RingSize

structure GhostRing where
  head : BitVec 32
  tail : BitVec 32
  overflow : BitVec 32
  msgs : Nat → BitVec 64

namespace GhostRing

/-- The slots that the agent has not consumed yet. -/
def used (ring : GhostRing) : Nat := (ring.head - ring.tail).toNat

def store (ring : GhostRing) (slot : Nat) (value : BitVec 64) : GhostRing :=
  { ring with msgs := Function.update ring.msgs slot value }

end GhostRing

/-! ## The kernel -/

inductive KernelPc where
  | idle
  /-- The message would wrap. -/
  | padding (msg : GhostMsg)
  /-- The padding is written and not yet published. -/
  | padded (msg : GhostMsg)
  /-- The message is written up to a slot, behind `staged` slots of padding. -/
  | writing (staged : Nat) (msg : GhostMsg) (written : Nat)

inductive KernelAction where
  | produce (msg : GhostMsg)
  | pad (seqnum : BitVec 32)
  | publishPad
  | holdPad
  | store
  | publish (msg : GhostMsg)

section Steps

variable (size : RingSize)

/-- The padding is published by itself, or held back and published together with the
message. -/
inductive KernelStep : GhostRing → KernelPc → KernelAction → GhostRing → KernelPc → Prop
  | produceFits {ring : GhostRing} {msg : GhostMsg} :
      size.slot ring.head + msg.slots.length ≤ size.nelems.toNat →
      ring.used + msg.slots.length ≤ size.nelems.toNat →
      KernelStep ring .idle (.produce msg) ring (.writing 0 msg 0)
  | produceWraps {ring : GhostRing} {msg : GhostMsg} :
      size.nelems.toNat < size.slot ring.head + msg.slots.length →
      ring.used + size.room ring.head + msg.slots.length ≤ size.nelems.toNat →
      KernelStep ring .idle (.produce msg) ring (.padding msg)
  | pad (ring : GhostRing) {msg : GhostMsg} (seqnum : BitVec 32) :
      KernelStep ring (.padding msg) (.pad seqnum)
        (ring.store (size.slot ring.head) (nop seqnum (size.room ring.head))) (.padded msg)
  | publishPad (ring : GhostRing) {msg : GhostMsg} :
      KernelStep ring (.padded msg) .publishPad
        { ring with head := ring.head + BitVec.ofNat 32 (size.room ring.head) } (.writing 0 msg 0)
  | holdPad (ring : GhostRing) {msg : GhostMsg} :
      KernelStep ring (.padded msg) .holdPad ring (.writing (size.room ring.head) msg 0)
  | store (ring : GhostRing) {staged : Nat} {msg : GhostMsg} {written : Nat}
      (inRange : written < msg.slots.length) :
      KernelStep ring (.writing staged msg written) .store
        (ring.store (size.slot (ring.head + BitVec.ofNat 32 staged) + written)
          msg.slots[written]) (.writing staged msg (written + 1))
  | publish (ring : GhostRing) {staged : Nat} {msg : GhostMsg} :
      KernelStep ring (.writing staged msg msg.slots.length) (.publish msg)
        { ring with head := ring.head + BitVec.ofNat 32 (staged + msg.slots.length) } .idle

end Steps

/-! ## The agent -/

/-- Where the agent stands in its loop. A message is a pointer into the ring,
with the slots that were read through it. -/
inductive AgentPc where
  | idle
  | tailLoaded (tail : BitVec 32)
  | headLoaded (tail : BitVec 32)
  | dispatching (tidx : Nat) (read : List (BitVec 64))
  | dispatched (tidx : Nat) (msg : List (BitVec 64))
  | consuming (tidx : Nat) (msg : List (BitVec 64)) (tail : BitVec 32)
  /-- `CHECK_EQ(overflow, 0)` failed. -/
  | checkFailed

inductive AgentAction where
  | loadTail
  | loadHead (empty : Bool)
  | loadOverflow
  | read
  | dispatch (msg : List (BitVec 64))
  | consumeLoad
  | consume (msg : List (BitVec 64))

/-- `DispatchMessage` reads the header, and the rest of a message that is no
`MSG_NOP`. -/
def dispatchReads : List (BitVec 64) → Nat
  | [] => 1
  | header :: _ =>
      if msgType header = MSG_NOP then 1 else (consumedSlots (msgLength header)).toNat

section Steps

variable (size : RingSize)

inductive AgentStep : GhostRing → AgentPc → AgentAction → GhostRing → AgentPc → Prop
  | loadTail (ring : GhostRing) : AgentStep ring .idle .loadTail ring (.tailLoaded ring.tail)
  | loadHeadEmpty {ring : GhostRing} {tail : BitVec 32} :
      tail = ring.head → AgentStep ring (.tailLoaded tail) (.loadHead true) ring .idle
  | loadHead {ring : GhostRing} {tail : BitVec 32} :
      tail ≠ ring.head →
      AgentStep ring (.tailLoaded tail) (.loadHead false) ring (.headLoaded tail)
  | loadOverflow (ring : GhostRing) {tail : BitVec 32} :
      AgentStep ring (.headLoaded tail) .loadOverflow ring
        (if ring.overflow = 0 then .dispatching (size.slot tail) [] else .checkFailed)
  | read {ring : GhostRing} {tidx : Nat} {read : List (BitVec 64)} :
      read.length < dispatchReads read →
      AgentStep ring (.dispatching tidx read) .read ring
        (.dispatching tidx (read ++ [ring.msgs (tidx + read.length)]))
  | dispatch {ring : GhostRing} {tidx : Nat} {msg : List (BitVec 64)} :
      ¬ msg.length < dispatchReads msg →
      AgentStep ring (.dispatching tidx msg) (.dispatch msg) ring (.dispatched tidx msg)
  | consumeLoad (ring : GhostRing) {tidx : Nat} {msg : List (BitVec 64)} :
      AgentStep ring (.dispatched tidx msg) .consumeLoad ring (.consuming tidx msg ring.tail)
  | consume (ring : GhostRing) {tidx : Nat} {msg : List (BitVec 64)} {tail : BitVec 32} :
      AgentStep ring (.consuming tidx msg tail) (.consume msg)
        { ring with tail := tail + consumedSlots (msgLength (ring.msgs tidx)) } .idle

end Steps

/-! ## Interleavings -/

structure ChannelState where
  ring : GhostRing
  kernel : KernelPc
  agent : AgentPc

inductive ChannelLabel where
  | kernel (action : KernelAction)
  | agent (action : AgentAction)

/-- The ring starts empty, with any value in its free-running indices. -/
def channelAccesses (size : RingSize) : Machine ChannelState ChannelLabel where
  initial state := state.ring.head = state.ring.tail ∧ state.ring.overflow = 0 ∧
    state.kernel = .idle ∧ state.agent = .idle
  step state label next :=
    match label with
    | .kernel action =>
        KernelStep size state.ring state.kernel action next.ring next.kernel ∧
          next.agent = state.agent
    | .agent action =>
        AgentStep size state.ring state.agent action next.ring next.agent ∧
          next.kernel = state.kernel

/-- Runs with their histories, newest first. -/
def channels (size : RingSize) : Machine (ChannelState × List ChannelLabel) ChannelLabel :=
  (channelAccesses size).recorded

def isNop : List (BitVec 64) → Bool
  | [] => true
  | header :: _ => msgType header = MSG_NOP

/-- The message that a step publishes. -/
def ChannelLabel.published : ChannelLabel → Option (List (BitVec 64))
  | .kernel (.publish msg) => some msg.slots
  | _ => none

/-- The message, not a `MSG_NOP`, that a step hands to `DispatchMessage`. -/
def ChannelLabel.seen : ChannelLabel → Option (List (BitVec 64))
  | .agent (.dispatch msg) => if isNop msg then none else some msg
  | _ => none

def ChannelLabel.consumed : ChannelLabel → Option (List (BitVec 64))
  | .agent (.consume msg) => if isNop msg then none else some msg
  | _ => none

/-- The messages of a kind in a history, oldest first. -/
def messages (kind : ChannelLabel → Option (List (BitVec 64))) (history : List ChannelLabel) :
    List (List (BitVec 64)) :=
  (history.filterMap kind).reverse

end Ghost.Channel
