import Mathlib.Tactic

/-!
# The buffer of a remote procedure call

`AgentRpcBuffer` of `lib/agent.h`. Values, vectors and strings are stored in one byte
array. A value of a trivially copyable type is its bytes: copying the bytes of one object
into another makes them equal.
-/

set_option autoImplicit false

namespace Ghost.Agent

abbrev Byte := UInt8

/-- `std::string`. -/
abbrev Str := List Byte

/-- The errors of `absl::StatusCode`. -/
inductive ErrorCode where
  | kCancelled
  | kUnknown
  | kInvalidArgument
  | kDeadlineExceeded
  | kNotFound
  | kAlreadyExists
  | kPermissionDenied
  | kResourceExhausted
  | kFailedPrecondition
  | kAborted
  | kOutOfRange
  | kUnimplemented
  | kInternal
  | kUnavailable
  | kDataLoss
  | kUnauthenticated
  deriving DecidableEq

/-- An `absl::Status` that is not OK. -/
structure ErrorStatus where
  code : ErrorCode
  message : Str
  deriving DecidableEq

/-- `absl::StatusOr<T>`; an OK status has no message. -/
abbrev StatusOr (T : Type) := Except ErrorStatus T

abbrev Status := StatusOr Unit

def strOf (text : String) : Str := text.toList.map fun c => UInt8.ofNat c.toNat

def invalidArgumentError (text : String) : ErrorStatus := ⟨.kInvalidArgument, strOf text⟩

class TriviallyCopyable (T : Type) where
  sizeof : Nat
  bytes : T → List Byte
  length_bytes : ∀ t, (bytes t).length = sizeof
  ofBytes : List Byte → T
  ofBytes_bytes : ∀ t, ofBytes (bytes t) = t

open TriviallyCopyable (sizeof bytes ofBytes length_bytes ofBytes_bytes)

def sizeMax : Nat := 2 ^ 64 - 1

theorem four_le_sizeMax : 4 ≤ sizeMax := by decide

/-- `std::vector<T>`, whose elements have addresses. -/
structure StdVector (T : Type) [TriviallyCopyable T] where
  items : List T
  addressable : sizeof T * items.length ≤ sizeMax

/-- `std::copy_n` to `data + offset`. -/
def overwrite (data : List Byte) (offset : Nat) (copied : List Byte) : List Byte :=
  data.take offset ++ copied ++ data.drop (offset + copied.length)

section Items

variable {T : Type} [TriviallyCopyable T]

/-- The loop of `SerializeVector` from index `i` on. -/
def overwriteItems (data : List Byte) (i : Nat) : List T → List Byte
  | [] => data
  | t :: items => overwriteItems (overwrite data (sizeof T * i) (bytes t)) (i + 1) items

variable (T) in
/-- The loop of `DeserializeVector` from index `i` on, with the elements left. -/
def readItems (data : List Byte) (i : Nat) : Nat → List T
  | 0 => []
  | left + 1 => ofBytes ((data.drop (sizeof T * i)).take (sizeof T)) :: readItems data (i + 1) left

end Items

theorem length_overwrite {data copied : List Byte} {offset : Nat}
    (inRange : offset + copied.length ≤ data.length) :
    (overwrite data offset copied).length = data.length := by
  unfold overwrite
  rw [List.length_append, List.length_append, List.length_take, List.length_drop]
  omega

theorem take_overwrite {data copied : List Byte} {offset : Nat} (inRange : offset ≤ data.length) :
    (overwrite data offset copied).take (offset + copied.length) = data.take offset ++ copied := by
  unfold overwrite
  apply List.take_left'
  rw [List.length_append, List.length_take]
  omega

theorem drop_overwrite {data copied : List Byte} {offset n : Nat} (inRange : offset ≤ data.length)
    (behind : offset + copied.length ≤ n) : (overwrite data offset copied).drop n = data.drop n := by
  unfold overwrite
  have before : (data.take offset ++ copied).length ≤ n := by
    rw [List.length_append, List.length_take]
    omega
  have length : (data.take offset ++ copied).length = offset + copied.length := by
    rw [List.length_append, List.length_take]
    omega
  rw [List.drop_append, List.drop_eq_nil_of_le before, List.nil_append, List.drop_drop, length,
    Nat.add_sub_cancel' behind]

section Items

variable {T : Type} [TriviallyCopyable T]

theorem length_flatMap_bytes (items : List T) :
    (items.flatMap bytes).length = sizeof T * items.length := by
  induction items with
  | nil => rfl
  | cons t items ih =>
      rw [List.flatMap_cons, List.length_append, length_bytes, ih, List.length_cons, Nat.mul_succ]
      omega

/-- The loop writes the elements one behind the other. -/
theorem overwriteItems_eq {data : List Byte} {i : Nat} {items : List T}
    (inRange : sizeof T * (i + items.length) ≤ data.length) :
    overwriteItems data i items = overwrite data (sizeof T * i) (items.flatMap bytes) := by
  induction items generalizing data i with
  | nil =>
      unfold overwrite
      simp [overwriteItems]
  | cons t items ih =>
      have size := length_bytes t
      have rest := length_flatMap_bytes items
      rw [List.length_cons, show i + (items.length + 1) = i + 1 + items.length by omega] at inRange
      have here : sizeof T * i + sizeof T ≤ sizeof T * (i + 1 + items.length) := by
        rw [← Nat.mul_succ]
        exact Nat.mul_le_mul_left _ (by omega)
      have next : sizeof T * (i + 1) = sizeof T * i + (bytes t).length := by rw [Nat.mul_succ, size]
      have inside : (sizeof T * i) + (bytes t).length ≤ data.length := by omega
      rw [overwriteItems, ih (by rw [length_overwrite inside]; exact inRange), overwrite, next,
        take_overwrite (by omega), drop_overwrite (by omega) (by omega), overwrite, List.flatMap_cons,
        List.length_append]
      simp only [List.append_assoc, Nat.add_assoc]

/-- Elements are read where they were written. -/
theorem readItems_eq {front rest : List Byte} {i : Nat} {items : List T}
    (isFront : front.length = sizeof T * i) :
    readItems T (front ++ (items.flatMap bytes ++ rest)) i items.length = items := by
  induction items generalizing front i with
  | nil => rfl
  | cons t items ih =>
      have size := length_bytes t
      have later := @ih (front ++ bytes t) (i + 1) (by rw [List.length_append, isFront, size, Nat.mul_succ])
      rw [List.append_assoc] at later
      rw [List.length_cons, readItems, List.flatMap_cons, List.append_assoc, later, ← isFront,
        List.drop_left, List.take_left' size, ofBytes_bytes]

end Items

/-! ## The buffer -/

/-- `BufferBytes` is a `size_t`, and there is at least a byte for the terminator of the
empty string. -/
structure AgentRpcBuffer (bufferBytes : Nat) where
  data : List Byte
  stringLength : Nat := 0
  isSerialized : Bool := false
  length_data : data.length = bufferBytes
  positive : 0 < bufferBytes
  representable : bufferBytes ≤ sizeMax

namespace AgentRpcBuffer

variable {bufferBytes : Nat} (buffer : AgentRpcBuffer bufferBytes)

section Typed

variable {T : Type} [TriviallyCopyable T]

theorem length_serialized {t : T} (small : ¬ sizeof T > bufferBytes) :
    (overwrite buffer.data 0 (bytes t)).length = bufferBytes := by
  have size := length_bytes t
  rw [length_overwrite, buffer.length_data]
  rw [buffer.length_data, size]
  omega

/-- `Serialize`, of all bytes of the object. -/
def serialize (t : T) : Status × AgentRpcBuffer bufferBytes :=
  if large : sizeof T > bufferBytes then
    (.error (invalidArgumentError ("Serialize used with too large of a type: " ++ toString (sizeof T))),
      { buffer with isSerialized := false })
  else
    (.ok (), { buffer with
      data := overwrite buffer.data 0 (bytes t)
      isSerialized := true
      length_data := buffer.length_serialized large })

theorem length_serializedVector {vt : StdVector T}
    (small : ¬ sizeof T * vt.items.length % 2 ^ 64 > bufferBytes) :
    (overwriteItems buffer.data 0 vt.items).length = bufferBytes := by
  have addressable := vt.addressable
  unfold sizeMax at addressable
  rw [Nat.mod_eq_of_lt (by omega)] at small
  have inRange : sizeof T * (0 + vt.items.length) ≤ buffer.data.length := by
    rw [buffer.length_data, Nat.zero_add]
    omega
  rw [overwriteItems_eq inRange, length_overwrite, buffer.length_data]
  rw [length_flatMap_bytes, Nat.mul_zero, Nat.zero_add, buffer.length_data]
  omega

def serializeVector (vt : StdVector T) : Status × AgentRpcBuffer bufferBytes :=
  if large : sizeof T * vt.items.length % 2 ^ 64 > bufferBytes then
    (.error (invalidArgumentError ("SerializeVector used with too large of a type: " ++
        toString (sizeof T) ++ " items: " ++ toString vt.items.length)),
      { buffer with isSerialized := false })
  else
    (.ok (), { buffer with
      data := overwriteItems buffer.data 0 vt.items
      isSerialized := true
      length_data := buffer.length_serializedVector large })

end Typed

theorem length_serializedString {s : Str} (small : ¬ s.length > bufferBytes - 1) :
    (overwrite (overwrite buffer.data 0 s) s.length [0]).length = bufferBytes := by
  have positive := buffer.positive
  have inRange : 0 + s.length ≤ buffer.data.length := by
    rw [buffer.length_data]
    omega
  rw [length_overwrite, length_overwrite inRange, buffer.length_data]
  rw [length_overwrite inRange, buffer.length_data, List.length_singleton]
  omega

def serializeString (s : Str) : Status × AgentRpcBuffer bufferBytes :=
  if large : s.length > bufferBytes - 1 then
    (.error (invalidArgumentError ("SerializeString used with too large of a string: " ++
        toString s.length)),
      { buffer with isSerialized := false })
  else
    (.ok (), { buffer with
      data := overwrite (overwrite buffer.data 0 s) s.length [0]
      stringLength := s.length
      isSerialized := true
      length_data := buffer.length_serializedString large })

def notSerialized : ErrorStatus :=
  invalidArgumentError "Calling deserialize without a successful serialize"

section Typed

variable (T : Type) [TriviallyCopyable T]

def deserialize : StatusOr T :=
  if sizeof T > bufferBytes then
    .error (invalidArgumentError ("Deserialize failed; too large of type: " ++ toString (sizeof T)))
  else if buffer.isSerialized = false then
    .error notSerialized
  else
    .ok (ofBytes (buffer.data.take (sizeof T)))

/-- How `DeserializeVector` can fail. -/
inductive VectorFailure where
  | status (error : ErrorStatus)
  /-- The constructor of a vector with more elements than can be addressed throws. -/
  | lengthError

def deserializeVector (numElements : Nat) : Except VectorFailure (List T) :=
  if sizeof T * numElements % 2 ^ 64 > bufferBytes then
    .error (.status (invalidArgumentError ("DeserializeVector failed; too large of type: " ++
      toString (sizeof T) ++ " items: " ++ toString numElements)))
  else if buffer.isSerialized = false then
    .error (.status notSerialized)
  else if sizeof T * numElements > sizeMax then
    .error .lengthError
  else
    .ok (readItems T buffer.data 0 numElements)

end Typed

def deserializeString : StatusOr Str :=
  if buffer.stringLength > bufferBytes - 1 then
    .error (invalidArgumentError ("Deserialize using invalid string length: " ++
      toString buffer.stringLength))
  else if buffer.isSerialized = false then
    .error notSerialized
  else
    .ok (buffer.data.take buffer.stringLength)

/-! ## Sequences of calls -/

/-- A call of `Serialize`, `SerializeVector` or `SerializeString`. The calls that read a
buffer do not change it. -/
inductive Serialization : Type 1 where
  | value (T : Type) [TriviallyCopyable T] (t : T)
  | vector (T : Type) [TriviallyCopyable T] (vt : StdVector T)
  | string (s : Str)

namespace Serialization

/-- The serialized size fits. -/
def Fits (bufferBytes : Nat) : Serialization → Prop
  | @value T _ _ => sizeof T ≤ bufferBytes
  | @vector T _ vt => vt.items.length * sizeof T ≤ bufferBytes
  | .string s => s.length ≤ bufferBytes - 1

def perform (buffer : AgentRpcBuffer bufferBytes) : Serialization → Status × AgentRpcBuffer bufferBytes
  | @value _ _ t => buffer.serialize t
  | @vector _ _ vt => buffer.serializeVector vt
  | .string s => buffer.serializeString s

/-- The call that matches returns what was serialized. -/
def ReadsBack (buffer : AgentRpcBuffer bufferBytes) : Serialization → Prop
  | @value T _ t => buffer.deserialize T = .ok t
  | @vector T _ vt => buffer.deserializeVector T vt.items.length = .ok vt.items
  | .string s => buffer.deserializeString = .ok s

end Serialization

/-- Nothing can be read. -/
def Unreadable (buffer : AgentRpcBuffer bufferBytes) : Prop :=
  (∀ (T : Type) [TriviallyCopyable T], ∃ error, buffer.deserialize T = .error error) ∧
  (∀ (T : Type) [TriviallyCopyable T] (numElements : Nat),
    ∃ error, buffer.deserializeVector T numElements = .error (.status error)) ∧
  ∃ error, buffer.deserializeString = .error error

def run (buffer : AgentRpcBuffer bufferBytes) (calls : List Serialization) :
    AgentRpcBuffer bufferBytes :=
  calls.foldl (fun buffer call => (call.perform buffer).2) buffer

variable {buffer}

theorem unreadable_of_not_serialized (invalid : buffer.isSerialized = false) : buffer.Unreadable := by
  refine ⟨?_, ?_, ?_⟩
  · intro T _
    unfold deserialize
    rw [if_pos invalid]
    split <;> exact ⟨_, rfl⟩
  · intro T _ numElements
    unfold deserializeVector
    rw [if_pos invalid]
    split <;> exact ⟨_, rfl⟩
  · unfold deserializeString
    rw [if_pos invalid]
    split <;> exact ⟨_, rfl⟩

/-- A call that does not fit only clears the flag. -/
theorem perform_of_not_fits {call : Serialization} (large : ¬ call.Fits bufferBytes) :
    (∃ error, (call.perform buffer).1 = .error error) ∧
      (call.perform buffer).2 = { buffer with isSerialized := false } := by
  cases call with
  | value T t =>
      have exceeds : sizeof T > bufferBytes := Nat.lt_of_not_le large
      change (∃ error, (buffer.serialize t).1 = .error error) ∧ (buffer.serialize t).2 = _
      unfold serialize
      rw [dif_pos exceeds]
      exact ⟨⟨_, rfl⟩, rfl⟩
  | vector T vt =>
      have addressable := vt.addressable
      have exceeds : sizeof T * vt.items.length % 2 ^ 64 > bufferBytes := by
        unfold sizeMax at addressable
        rw [Nat.mod_eq_of_lt (by omega), Nat.mul_comm]
        exact Nat.lt_of_not_le large
      change (∃ error, (buffer.serializeVector vt).1 = .error error) ∧ (buffer.serializeVector vt).2 = _
      unfold serializeVector
      rw [dif_pos exceeds]
      exact ⟨⟨_, rfl⟩, rfl⟩
  | string s =>
      have exceeds : s.length > bufferBytes - 1 := Nat.lt_of_not_le large
      change (∃ error, (buffer.serializeString s).1 = .error error) ∧ (buffer.serializeString s).2 = _
      unfold serializeString
      rw [dif_pos exceeds]
      exact ⟨⟨_, rfl⟩, rfl⟩

theorem run_of_not_fits {calls : List Serialization}
    (large : ∀ call ∈ calls, ¬ call.Fits bufferBytes) (invalid : buffer.isSerialized = false) :
    buffer.run calls = buffer := by
  induction calls with
  | nil => rfl
  | cons call calls ih =>
      have unchanged : (call.perform buffer).2 = buffer := by
        rw [(perform_of_not_fits (large call List.mem_cons_self)).2, ← invalid]
      unfold run at ih ⊢
      rw [List.foldl_cons, unchanged]
      exact ih fun other member => large other (List.mem_cons_of_mem _ member)

theorem serialize_readsBack {T : Type} [TriviallyCopyable T] {t : T} (small : sizeof T ≤ bufferBytes) :
    (buffer.serialize t).1 = .ok () ∧ (buffer.serialize t).2.deserialize T = .ok t := by
  have size := length_bytes t
  unfold serialize
  rw [dif_neg (Nat.not_lt.mpr small)]
  refine ⟨rfl, ?_⟩
  unfold deserialize
  rw [if_neg (Nat.not_lt.mpr small), if_neg (by simp)]
  have written := @take_overwrite buffer.data (bytes t) 0 (Nat.zero_le _)
  rw [Nat.zero_add, size, List.take_zero, List.nil_append] at written
  dsimp only
  rw [written, ofBytes_bytes]

theorem serializeVector_readsBack {T : Type} [TriviallyCopyable T] {vt : StdVector T}
    (small : vt.items.length * sizeof T ≤ bufferBytes) :
    (buffer.serializeVector vt).1 = .ok () ∧
      (buffer.serializeVector vt).2.deserializeVector T vt.items.length = .ok vt.items := by
  have addressable := vt.addressable
  have unwrapped : sizeof T * vt.items.length % 2 ^ 64 = sizeof T * vt.items.length := by
    unfold sizeMax at addressable
    exact Nat.mod_eq_of_lt (by omega)
  rw [Nat.mul_comm] at small
  have checked : ¬ sizeof T * vt.items.length % 2 ^ 64 > bufferBytes := by
    rw [unwrapped]
    exact Nat.not_lt.mpr small
  unfold serializeVector
  rw [dif_neg checked]
  refine ⟨rfl, ?_⟩
  unfold deserializeVector
  rw [if_neg checked, if_neg (by simp), if_neg (Nat.not_lt.mpr addressable)]
  have inRange : sizeof T * (0 + vt.items.length) ≤ buffer.data.length := by
    rw [Nat.zero_add, buffer.length_data]
    exact small
  dsimp only
  rw [overwriteItems_eq inRange, overwrite, Nat.mul_zero, List.take_zero, List.append_assoc,
    readItems_eq (by rw [List.length_nil, Nat.mul_zero])]

theorem serializeString_readsBack {s : Str} (small : s.length ≤ bufferBytes - 1) :
    (buffer.serializeString s).1 = .ok () ∧
      (buffer.serializeString s).2.deserializeString = .ok s := by
  have positive := buffer.positive
  unfold serializeString
  rw [dif_neg (Nat.not_lt.mpr small)]
  refine ⟨rfl, ?_⟩
  unfold deserializeString
  rw [if_neg (Nat.not_lt.mpr small), if_neg (by simp)]
  have text := @take_overwrite buffer.data s 0 (Nat.zero_le _)
  rw [Nat.zero_add, List.take_zero, List.nil_append] at text
  dsimp only
  rw [overwrite, List.append_assoc, text, List.take_left]

theorem perform_of_fits {call : Serialization} (small : call.Fits bufferBytes) :
    (call.perform buffer).1 = .ok () ∧ call.ReadsBack (call.perform buffer).2 := by
  cases call with
  | value T t => exact serialize_readsBack small
  | vector T vt => exact serializeVector_readsBack small
  | string s => exact serializeString_readsBack small

/-- After any calls a serialization that fits is read back, and one that does not fit leaves
the bytes and makes the buffer unreadable until one fits again. -/
theorem serialization_law (buffer : AgentRpcBuffer bufferBytes) (earlier : List Serialization)
    (call : Serialization) :
    (call.Fits bufferBytes →
      (call.perform (buffer.run earlier)).1 = .ok () ∧
        call.ReadsBack (call.perform (buffer.run earlier)).2) ∧
    (¬ call.Fits bufferBytes →
      (∃ error, (call.perform (buffer.run earlier)).1 = .error error) ∧
        ∀ later : List Serialization, (∀ other ∈ later, ¬ other.Fits bufferBytes) →
          ((call.perform (buffer.run earlier)).2.run later).data = (buffer.run earlier).data ∧
          ((call.perform (buffer.run earlier)).2.run later).stringLength =
            (buffer.run earlier).stringLength ∧
          ((call.perform (buffer.run earlier)).2.run later).Unreadable) := by
  constructor
  · intro small
    exact perform_of_fits small
  · intro large
    have failed := @perform_of_not_fits _ (buffer.run earlier) _ large
    refine ⟨failed.1, ?_⟩
    intro later largeToo
    have invalid : (call.perform (buffer.run earlier)).2.isSerialized = false := by rw [failed.2]
    rw [run_of_not_fits largeToo invalid]
    refine ⟨?_, ?_, unreadable_of_not_serialized invalid⟩
    · rw [failed.2]
    · rw [failed.2]

def fourBytes : AgentRpcBuffer 4 where
  data := [7, 7, 7, 7]
  length_data := rfl
  positive := Nat.succ_pos 3
  representable := four_le_sizeMax

/-- A string with a NUL in a buffer of four bytes, after one that is too long. -/
theorem serialization_law_four :
    (Serialization.string [1, 0, 2]).Fits 4 ∧
      (Serialization.string [1, 0, 2]).ReadsBack
        ((Serialization.string [1, 0, 2]).perform (fourBytes.run [.string [1, 2, 3, 4]])).2 := by
  have small : (Serialization.string [1, 0, 2]).Fits 4 := by
    unfold Serialization.Fits
    decide
  exact ⟨small, ((serialization_law fourBytes [.string [1, 2, 3, 4]] _).1 small).2⟩

end AgentRpcBuffer

end Ghost.Agent
