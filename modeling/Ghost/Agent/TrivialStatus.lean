import Ghost.Agent.RpcBuffer
import Mathlib.Data.List.TakeWhile

/-!
# Statuses in a buffer

The trivially copyable stand-ins for `absl::Status` and `absl::StatusOr` of
`lib/trivial_status.h`, and the members of `AgentRpcBuffer` that transport them. What a
constructor leaves in an array, or in a value, is whatever was there.
-/

set_option autoImplicit false

namespace Ghost.Agent

open TriviallyCopyable (sizeof bytes ofBytes length_bytes ofBytes_bytes)

/-! ## Layouts -/

/-- `std::array<char, n>`. -/
structure CharArray (n : Nat) where
  chars : List Byte
  length_chars : chars.length = n

/-- The low bytes of a number, the lowest first. -/
def littleEndian : Nat → Nat → List Byte
  | 0, _ => []
  | count + 1, n => UInt8.ofNat (n % 256) :: littleEndian count (n / 256)

def ofLittleEndian : List Byte → Nat
  | [] => 0
  | byte :: rest => byte.toNat + 256 * ofLittleEndian rest

theorem length_littleEndian (count n : Nat) : (littleEndian count n).length = count := by
  induction count generalizing n with
  | zero => rfl
  | succ count ih => rw [littleEndian, List.length_cons, ih]

theorem ofLittleEndian_littleEndian {count n : Nat} (small : n < 256 ^ count) :
    ofLittleEndian (littleEndian count n) = n := by
  induction count generalizing n with
  | zero =>
      rw [Nat.pow_zero, Nat.lt_one_iff] at small
      rw [small]
      rfl
  | succ count ih =>
      rw [Nat.pow_succ] at small
      have byte : (UInt8.ofNat (n % 256)).toNat = n % 256 := by
        rw [UInt8.toNat_ofNat']
        omega
      rw [littleEndian, ofLittleEndian, ih (Nat.div_lt_of_lt_mul (by omega)), byte]
      omega

theorem length_padded (n : Nat) (chars : List Byte) :
    ((chars ++ List.replicate n 0).take n).length = n := by
  rw [List.length_take, List.length_append, List.length_replicate]
  omega

instance charArrayCopyable (n : Nat) : TriviallyCopyable (CharArray n) where
  sizeof := n
  bytes array := array.chars
  length_bytes array := array.length_chars
  ofBytes chars := ⟨(chars ++ List.replicate n 0).take n, length_padded n chars⟩
  ofBytes_bytes array := by
    obtain ⟨chars, rfl⟩ := array
    simp

instance pairCopyable (A B : Type) [TriviallyCopyable A] [TriviallyCopyable B] :
    TriviallyCopyable (A × B) where
  sizeof := sizeof A + sizeof B
  bytes pair := bytes pair.1 ++ bytes pair.2
  length_bytes pair := by rw [List.length_append, length_bytes, length_bytes]
  ofBytes both := (ofBytes (both.take (sizeof A)), ofBytes (both.drop (sizeof A)))
  ofBytes_bytes pair := by
    rw [List.take_left' (length_bytes _), List.drop_left' (length_bytes _), ofBytes_bytes,
      ofBytes_bytes]

/-- `size_t`. -/
instance sizeCopyable : TriviallyCopyable UInt64 where
  sizeof := 8
  bytes n := littleEndian 8 n.toNat
  length_bytes n := length_littleEndian 8 n.toNat
  ofBytes chars := UInt64.ofNat (ofLittleEndian chars)
  ofBytes_bytes n := by
    rw [ofLittleEndian_littleEndian n.toNat_lt, UInt64.ofNat_toNat]

/-- `absl::StatusCode`. -/
inductive StatusCode where
  | kOk
  | error (code : ErrorCode)
  deriving DecidableEq

def StatusCode.number : StatusCode → Nat
  | .kOk => 0
  | .error .kCancelled => 1
  | .error .kUnknown => 2
  | .error .kInvalidArgument => 3
  | .error .kDeadlineExceeded => 4
  | .error .kNotFound => 5
  | .error .kAlreadyExists => 6
  | .error .kPermissionDenied => 7
  | .error .kResourceExhausted => 8
  | .error .kFailedPrecondition => 9
  | .error .kAborted => 10
  | .error .kOutOfRange => 11
  | .error .kUnimplemented => 12
  | .error .kInternal => 13
  | .error .kUnavailable => 14
  | .error .kDataLoss => 15
  | .error .kUnauthenticated => 16

def errorCodes : List ErrorCode :=
  [.kCancelled, .kUnknown, .kInvalidArgument, .kDeadlineExceeded, .kNotFound, .kAlreadyExists,
    .kPermissionDenied, .kResourceExhausted, .kFailedPrecondition, .kAborted, .kOutOfRange,
    .kUnimplemented, .kInternal, .kUnavailable, .kDataLoss, .kUnauthenticated]

def StatusCode.ofNumber (n : Nat) : StatusCode :=
  match n with
  | 0 => .kOk
  | n + 1 => .error (errorCodes.getD n .kUnknown)

theorem StatusCode.ofNumber_number (code : StatusCode) : ofNumber code.number = code := by
  cases code with
  | kOk => rfl
  | error code => cases code <;> rfl

theorem StatusCode.number_lt (code : StatusCode) : code.number < 256 ^ 4 := by
  cases code with
  | kOk => decide
  | error code => cases code <;> decide

/-- An enumeration is an `int`. -/
instance codeCopyable : TriviallyCopyable StatusCode where
  sizeof := 4
  bytes code := littleEndian 4 code.number
  length_bytes code := length_littleEndian 4 code.number
  ofBytes chars := .ofNumber (ofLittleEndian chars)
  ofBytes_bytes code := by
    rw [ofLittleEndian_littleEndian code.number_lt, StatusCode.ofNumber_number]

/-- A class with the given members. -/
@[reducible] def TriviallyCopyable.record {T Members : Type} [TriviallyCopyable Members]
    (members : T → Members) (build : Members → T) (inverse : ∀ t, build (members t) = t) :
    TriviallyCopyable T where
  sizeof := sizeof Members
  bytes t := bytes (members t)
  length_bytes t := length_bytes (members t)
  ofBytes chars := build (ofBytes chars)
  ofBytes_bytes t := by rw [ofBytes_bytes, inverse]

/-! ## Copying strings -/

theorem length_copied {n : Nat} (dest : CharArray n) (positive : 0 < n) (s : Str) :
    (overwrite (overwrite dest.chars 0 (s.take (min (n - 1) s.length))) (min (n - 1) s.length) [0]).length =
      n := by
  have size := dest.length_chars
  have copied : (s.take (min (n - 1) s.length)).length = min (n - 1) s.length := by
    rw [List.length_take]
    omega
  have inRange : 0 + (s.take (min (n - 1) s.length)).length ≤ dest.chars.length := by omega
  rw [length_overwrite, length_overwrite inRange, size]
  rw [length_overwrite inRange, List.length_singleton]
  omega

/-- `CopyString`. -/
def CharArray.copyString {n : Nat} (dest : CharArray n) (positive : 0 < n) (s : Str) : CharArray n where
  chars := overwrite (overwrite dest.chars 0 (s.take (min (n - 1) s.length))) (min (n - 1) s.length) [0]
  length_chars := length_copied dest positive s

/-- `std::string(data)`, unless no NUL ends the characters of the array. -/
def CharArray.cString {n : Nat} (array : CharArray n) : Option Str :=
  if 0 ∈ array.chars then some (array.chars.takeWhile (· ≠ 0)) else none

/-- `std::string(data, length)`, unless it reads past the array. -/
def CharArray.substr {n : Nat} (array : CharArray n) (length : Nat) : Option Str :=
  if length ≤ n then some (array.chars.take length) else none

section CopyString

variable {n : Nat} {dest : CharArray n} {positive : 0 < n} {s : Str}

/-- The array starts with the string, cut if too long, and a NUL. -/
theorem copyString_chars :
    ∃ rest, (dest.copyString positive s).chars = s.take (n - 1) ++ 0 :: rest := by
  refine ⟨(overwrite dest.chars 0 (s.take (min (n - 1) s.length))).drop (min (n - 1) s.length + 1), ?_⟩
  have front := @take_overwrite dest.chars (s.take (min (n - 1) s.length)) 0 (Nat.zero_le _)
  have copied : (s.take (min (n - 1) s.length)).length = min (n - 1) s.length := by
    rw [List.length_take]
    omega
  rw [copied, Nat.zero_add, List.take_zero, List.nil_append] at front
  unfold CharArray.copyString
  dsimp only
  rw [overwrite, front, List.length_singleton, List.append_assoc, ← List.take_eq_take_min]
  rfl

theorem takeWhile_terminated (text rest : Str) :
    (text ++ 0 :: rest).takeWhile (· ≠ 0) = text.takeWhile (· ≠ 0) := by
  induction text with
  | nil => rfl
  | cons c text ih =>
      rw [List.cons_append, List.takeWhile_cons, List.takeWhile_cons, ih]

theorem cString_copyString :
    (dest.copyString positive s).cString = some ((s.take (n - 1)).takeWhile (· ≠ 0)) := by
  obtain ⟨rest, isChars⟩ := @copyString_chars n dest positive s
  unfold CharArray.cString
  rw [isChars, if_pos (by simp), takeWhile_terminated]

/-- Reading the recorded length gives the string back exactly if it was not cut. -/
theorem substr_copyString :
    (dest.copyString positive s).substr s.length = some (s.take (n - 1)) ↔ s.length ≤ n - 1 := by
  obtain ⟨rest, isChars⟩ := @copyString_chars n dest positive s
  have size := (dest.copyString positive s).length_chars
  unfold CharArray.substr
  constructor
  · intro read
    rw [Option.ite_none_right_eq_some] at read
    have lengths := congrArg List.length (Option.some.inj read.2)
    rw [List.length_take, List.length_take, size] at lengths
    omega
  · intro short
    rw [if_pos (by omega), isChars, List.take_of_length_le short, List.take_left]

end CopyString

/-! ## The classes -/

def kMaxErrorMessageSize : Nat := 1000

def kMaxStringSize : Nat := 30000

theorem kMaxErrorMessageSize_pos : 0 < kMaxErrorMessageSize := by decide

theorem kMaxStringSize_pos : 0 < kMaxStringSize := by decide

section Status

variable {T : Type}

/-- `status().code()`. -/
def StatusOr.code : StatusOr T → StatusCode
  | .ok _ => .kOk
  | .error error => .error error.code

/-- `status().message()`. -/
def StatusOr.message : StatusOr T → Str
  | .ok _ => []
  | .error error => error.message

end Status

structure TrivialStatus where
  code : StatusCode
  errorMessage : CharArray kMaxErrorMessageSize

namespace TrivialStatus

def ofStatus {T : Type} (errorMessage : CharArray kMaxErrorMessageSize) (s : StatusOr T) :
    TrivialStatus where
  code := StatusOr.code s
  errorMessage := errorMessage.copyString kMaxErrorMessageSize_pos (StatusOr.message s)

/-- `absl::Status(code, message)`. -/
def statusOf (message : Str) : StatusCode → Status
  | .kOk => .ok ()
  | .error code => .error ⟨code, message⟩

def toStatus (status : TrivialStatus) : Option Status :=
  status.errorMessage.cString.map fun message => statusOf message status.code

end TrivialStatus

structure TrivialStatusOr (T : Type) where
  status : TrivialStatus
  value : T

namespace TrivialStatusOr

variable {T : Type}

def ofStatusOr (errorMessage : CharArray kMaxErrorMessageSize) (value : T) (s : StatusOr T) :
    TrivialStatusOr T where
  status := .ofStatus errorMessage s
  value := s.toOption.getD value

def toStatusOr (statusOr : TrivialStatusOr T) : Option (StatusOr T) :=
  statusOr.status.toStatus.map fun s => s.map fun _ => statusOr.value

end TrivialStatusOr

/-- A `std::string` has a `size_t` of characters. -/
structure StdString where
  chars : Str
  addressable : chars.length ≤ sizeMax

structure TrivialStatusOrString where
  status : TrivialStatus
  str : CharArray kMaxStringSize
  stringLength : UInt64

namespace TrivialStatusOrString

def ofStatusOr (errorMessage : CharArray kMaxErrorMessageSize) (str : CharArray kMaxStringSize)
    (s : StatusOr StdString) : TrivialStatusOrString :=
  match s with
  | .ok value =>
      { status := .ofStatus errorMessage s
        str := str.copyString kMaxStringSize_pos value.chars
        stringLength := UInt64.ofNat value.chars.length }
  | .error _ =>
      { status := .ofStatus errorMessage s
        str := str
        stringLength := 0 }

def toStatusOr (statusOr : TrivialStatusOrString) : Option (StatusOr Str) :=
  statusOr.status.toStatus.bind fun s =>
    match s with
    | .ok _ => (statusOr.str.substr statusOr.stringLength.toNat).map .ok
    | .error error => some (.error error)

end TrivialStatusOrString

/-! ## Their bytes -/

instance statusCopyable : TriviallyCopyable TrivialStatus :=
  .record (fun status => (status.code, status.errorMessage))
    (fun members => ⟨members.1, members.2⟩) fun _ => rfl

instance statusOrCopyable (T : Type) [TriviallyCopyable T] : TriviallyCopyable (TrivialStatusOr T) :=
  .record (fun statusOr => (statusOr.status, statusOr.value))
    (fun members => ⟨members.1, members.2⟩) fun _ => rfl

/-- The length is aligned. -/
instance statusOrStringCopyable : TriviallyCopyable TrivialStatusOrString :=
  .record (fun statusOr => (statusOr.status, statusOr.str, (⟨[0, 0, 0, 0], rfl⟩ : CharArray 4),
      statusOr.stringLength))
    (fun members => ⟨members.1, members.2.1, members.2.2.2⟩) fun _ => rfl

/-! ## Transport -/

namespace AgentRpcBuffer

variable {bufferBytes : Nat} (buffer : AgentRpcBuffer bufferBytes)

def serializeStatus (errorMessage : CharArray kMaxErrorMessageSize) (status : Status) :
    Status × AgentRpcBuffer bufferBytes :=
  buffer.serialize (TrivialStatus.ofStatus errorMessage status)

def serializeStatusOr {T : Type} [TriviallyCopyable T] (errorMessage : CharArray kMaxErrorMessageSize)
    (value : T) (statusOr : StatusOr T) : Status × AgentRpcBuffer bufferBytes :=
  buffer.serialize (TrivialStatusOr.ofStatusOr errorMessage value statusOr)

def serializeStatusOrString (errorMessage : CharArray kMaxErrorMessageSize)
    (str : CharArray kMaxStringSize) (s : StatusOr StdString) : Status × AgentRpcBuffer bufferBytes :=
  buffer.serialize (TrivialStatusOrString.ofStatusOr errorMessage str s)

def deserializeStatus : StatusOr TrivialStatus := buffer.deserialize TrivialStatus

/-- No result where an array is read past its end. -/
def deserializeStatusOr (T : Type) [TriviallyCopyable T] : Option (StatusOr (StatusOr T)) :=
  match buffer.deserialize (TrivialStatusOr T) with
  | .error error => some (.error error)
  | .ok value => value.toStatusOr.map .ok

def deserializeStatusOrString : Option (StatusOr (StatusOr Str)) :=
  match buffer.deserialize TrivialStatusOrString with
  | .error error => some (.error error)
  | .ok value => value.toStatusOr.map .ok

end AgentRpcBuffer

/-! ## What arrives -/

namespace ErrorStatus

/-- The error with the message that has room. -/
def truncated (error : ErrorStatus) : ErrorStatus := ⟨error.code, error.message.take 999⟩

/-- No NUL in the message that has room. -/
def NulFree (error : ErrorStatus) : Prop := 0 ∉ error.message.take 999

/-- The error with the message that is read. -/
def received (error : ErrorStatus) : ErrorStatus :=
  ⟨error.code, (error.message.take 999).takeWhile (· ≠ 0)⟩

theorem received_eq_iff {error : ErrorStatus} : error.received = error.truncated ↔ error.NulFree := by
  unfold received truncated NulFree
  rw [mk.injEq, List.takeWhile_eq_self_iff]
  constructor
  · intro same member
    simpa using same.2 0 member
  · intro noNul
    refine ⟨rfl, fun c member => ?_⟩
    have other : c ≠ 0 := fun isNul => noNul (isNul ▸ member)
    simpa using other

end ErrorStatus

section Laws

variable {T : Type} {errorMessage : CharArray kMaxErrorMessageSize}

theorem toStatus_ok {value : T} :
    (TrivialStatus.ofStatus errorMessage (.ok value : StatusOr T)).toStatus = some (.ok ()) := by
  unfold TrivialStatus.toStatus TrivialStatus.ofStatus
  dsimp only
  rw [cString_copyString]
  rfl

theorem toStatus_error {error : ErrorStatus} :
    (TrivialStatus.ofStatus errorMessage (.error error : StatusOr T)).toStatus =
      some (.error error.received) := by
  unfold TrivialStatus.toStatus TrivialStatus.ofStatus
  dsimp only
  rw [cString_copyString]
  rfl

/-- The message of an error, if it is one, has no NUL. -/
def NulFree (s : StatusOr T) : Prop := ∀ error, s = .error error → error.NulFree

theorem nulFree_ok {value : T} : NulFree (.ok value : StatusOr T) := by
  intro error isError
  cases isError

theorem nulFree_error {error : ErrorStatus} : NulFree (.error error : StatusOr T) ↔ error.NulFree := by
  constructor
  · intro noNul
    exact noNul error rfl
  · intro noNul error' isError
    cases isError
    exact noNul

/-- An OK string has room together with its terminator. -/
def Short (s : StatusOr StdString) : Prop := ∀ value, s = .ok value → value.chars.length ≤ 29999

variable {bufferBytes : Nat}

/-- The law of `SerializeStatus` and `DeserializeStatus`. -/
def StatusLaw (buffer : AgentRpcBuffer bufferBytes) (errorMessage : CharArray kMaxErrorMessageSize)
    (status : Status) : Prop :=
  (buffer.serializeStatus errorMessage status).1 = .ok () ∧
    ∃ trivial, (buffer.serializeStatus errorMessage status).2.deserializeStatus = .ok trivial ∧
      trivial.toStatus = some (status.mapError ErrorStatus.truncated)

/-- The law of `SerializeStatusOr` and `DeserializeStatusOr`. -/
def StatusOrLaw [TriviallyCopyable T] (buffer : AgentRpcBuffer bufferBytes)
    (errorMessage : CharArray kMaxErrorMessageSize) (value : T) (statusOr : StatusOr T) : Prop :=
  (buffer.serializeStatusOr errorMessage value statusOr).1 = .ok () ∧
    (buffer.serializeStatusOr errorMessage value statusOr).2.deserializeStatusOr T =
      some (.ok (statusOr.mapError ErrorStatus.truncated))

/-- The law of `SerializeStatusOrString` and `DeserializeStatusOrString`; a string of at most
29999 characters is all of its first 29999. -/
def StatusOrStringLaw (buffer : AgentRpcBuffer bufferBytes)
    (errorMessage : CharArray kMaxErrorMessageSize) (str : CharArray kMaxStringSize)
    (s : StatusOr StdString) : Prop :=
  (buffer.serializeStatusOrString errorMessage str s).1 = .ok () ∧
    (buffer.serializeStatusOrString errorMessage str s).2.deserializeStatusOrString =
      some (.ok ((s.map fun value => value.chars.take 29999).mapError ErrorStatus.truncated))

variable (buffer : AgentRpcBuffer bufferBytes)

theorem statusLaw_iff (fits : sizeof TrivialStatus ≤ bufferBytes) (status : Status) :
    StatusLaw buffer errorMessage status ↔ NulFree status := by
  have read := @AgentRpcBuffer.serialize_readsBack _ buffer _ _
    (TrivialStatus.ofStatus errorMessage status) fits
  have reduced : StatusLaw buffer errorMessage status ↔
      (TrivialStatus.ofStatus errorMessage status).toStatus =
        some (status.mapError ErrorStatus.truncated) := by
    constructor
    · rintro ⟨-, trivial, isTrivial, same⟩
      cases read.2.symm.trans isTrivial
      exact same
    · intro same
      exact ⟨read.1, _, read.2, same⟩
  rw [reduced]
  cases status with
  | ok value =>
      rw [toStatus_ok]
      exact iff_of_true rfl nulFree_ok
  | error error =>
      rw [toStatus_error, nulFree_error, ← ErrorStatus.received_eq_iff]
      constructor
      · intro same
        exact Except.error.inj (Option.some.inj same)
      · intro same
        rw [same]
        rfl

theorem statusOrLaw_iff [TriviallyCopyable T] (fits : sizeof (TrivialStatusOr T) ≤ bufferBytes)
    (value : T) (statusOr : StatusOr T) :
    StatusOrLaw buffer errorMessage value statusOr ↔ NulFree statusOr := by
  have read := @AgentRpcBuffer.serialize_readsBack _ buffer _ _
    (TrivialStatusOr.ofStatusOr errorMessage value statusOr) fits
  unfold StatusOrLaw AgentRpcBuffer.serializeStatusOr AgentRpcBuffer.deserializeStatusOr
  rw [read.1, read.2]
  dsimp only
  unfold TrivialStatusOr.toStatusOr TrivialStatusOr.ofStatusOr
  dsimp only
  cases statusOr with
  | ok value' =>
      rw [toStatus_ok]
      exact iff_of_true ⟨rfl, rfl⟩ nulFree_ok
  | error error =>
      rw [toStatus_error, nulFree_error, ← ErrorStatus.received_eq_iff]
      constructor
      · intro same
        exact Except.error.inj (Except.ok.inj (Option.some.inj same.2))
      · intro same
        rw [same]
        exact ⟨rfl, rfl⟩

theorem statusOrStringLaw_iff (fits : sizeof TrivialStatusOrString ≤ bufferBytes)
    (str : CharArray kMaxStringSize) (s : StatusOr StdString) :
    StatusOrStringLaw buffer errorMessage str s ↔ NulFree s ∧ Short s := by
  have read := @AgentRpcBuffer.serialize_readsBack _ buffer _ _
    (TrivialStatusOrString.ofStatusOr errorMessage str s) fits
  unfold StatusOrStringLaw AgentRpcBuffer.serializeStatusOrString
    AgentRpcBuffer.deserializeStatusOrString
  rw [read.1, read.2]
  dsimp only
  cases s with
  | ok value =>
      have recorded : (UInt64.ofNat value.chars.length).toNat = value.chars.length := by
        have addressable := value.addressable
        unfold sizeMax at addressable
        rw [UInt64.toNat_ofNat']
        exact Nat.mod_eq_of_lt (by omega)
      have copied := @substr_copyString _ str kMaxStringSize_pos value.chars
      have short : Short (.ok value) ↔ value.chars.length ≤ kMaxStringSize - 1 := by
        constructor
        · intro isShort
          exact isShort value rfl
        · intro isShort value' isValue
          cases isValue
          exact isShort
      unfold TrivialStatusOrString.toStatusOr TrivialStatusOrString.ofStatusOr
      dsimp only
      rw [toStatus_ok, Option.bind_some, recorded, short, ← copied]
      constructor
      · intro same
        refine ⟨nulFree_ok, ?_⟩
        obtain ⟨result, isResult, same⟩ := Option.map_eq_some_iff.mp same.2
        obtain ⟨text, isText, rfl⟩ := Option.map_eq_some_iff.mp isResult
        rw [isText]
        exact congrArg some (Except.ok.inj (Except.ok.inj same))
      · intro both
        rw [both.2]
        exact ⟨rfl, rfl⟩
  | error error =>
      have short : Short (.error error) := by
        intro value isValue
        cases isValue
      unfold TrivialStatusOrString.toStatusOr TrivialStatusOrString.ofStatusOr
      dsimp only
      rw [toStatus_error, Option.bind_some, nulFree_error, ← ErrorStatus.received_eq_iff]
      constructor
      · intro same
        exact ⟨Except.error.inj (Except.ok.inj (Option.some.inj same.2)), short⟩
      · intro same
        rw [same.1]
        exact ⟨rfl, rfl⟩

/-- The laws hold exactly for strings that have room and for messages without NUL. The
templates are instantiated only for types that fit the buffer. -/
theorem transport_iff [TriviallyCopyable T] (buffer : AgentRpcBuffer bufferBytes)
    (fits : sizeof TrivialStatusOrString ≤ bufferBytes)
    (fits' : sizeof (TrivialStatusOr T) ≤ bufferBytes)
    (errorMessage : CharArray kMaxErrorMessageSize) (value : T) (str : CharArray kMaxStringSize) :
    (∀ s, StatusOrStringLaw buffer errorMessage str s ↔ NulFree s ∧ Short s) ∧
    (∀ status, StatusLaw buffer errorMessage status ↔ NulFree status) ∧
    ∀ statusOr, StatusOrLaw buffer errorMessage value statusOr ↔ NulFree statusOr := by
  have smaller : sizeof TrivialStatus ≤ sizeof (TrivialStatusOr T) := Nat.le_add_right _ _
  exact ⟨statusOrStringLaw_iff buffer fits str, statusLaw_iff buffer (smaller.trans fits'),
    statusOrLaw_iff buffer fits' value⟩

end Laws

/-! ## The default buffer -/

def zeros (n : Nat) : CharArray n := ⟨List.replicate n 0, List.length_replicate⟩

theorem default_pos : 0 < 32768 := by decide

theorem default_le_sizeMax : 32768 ≤ sizeMax := by decide

/-- `AgentRpcBuffer<>`. -/
def defaultBuffer : AgentRpcBuffer 32768 where
  data := List.replicate 32768 0
  length_data := List.length_replicate
  positive := default_pos
  representable := default_le_sizeMax

theorem statusOrString_fits : sizeof TrivialStatusOrString ≤ 32768 := by decide

theorem status_fits : sizeof TrivialStatus ≤ 32768 := by decide

theorem long_addressable : (List.replicate 30000 (97 : Byte)).length ≤ sizeMax := by
  rw [List.length_replicate]
  decide

/-- A string of 30000 characters comes back with the terminator, and a message is cut at a NUL. -/
theorem transport_fails :
    ¬ StatusOrStringLaw defaultBuffer (zeros _) (zeros _) (.ok ⟨List.replicate 30000 97, long_addressable⟩) ∧
      ¬ StatusLaw defaultBuffer (zeros _) (.error ⟨.kInternal, [97, 0, 98]⟩) := by
  constructor
  · rw [statusOrStringLaw_iff defaultBuffer statusOrString_fits]
    intro both
    have short := both.2 _ rfl
    rw [List.length_replicate] at short
    omega
  · rw [statusLaw_iff defaultBuffer status_fits, nulFree_error]
    intro noNul
    exact noNul (by decide)

theorem short_addressable : ([97, 0, 98] : Str).length ≤ sizeMax := by decide

theorem transport_iff_default :
    sizeof (TrivialStatusOr UInt64) ≤ 32768 ∧
      StatusOrStringLaw defaultBuffer (zeros _) (zeros _) (.ok ⟨[97, 0, 98], short_addressable⟩) := by
  have fits : sizeof (TrivialStatusOr UInt64) ≤ 32768 := by decide
  refine ⟨fits, ((transport_iff defaultBuffer statusOrString_fits fits (zeros _) 0 (zeros _)).1 _).mpr
    ⟨nulFree_ok, ?_⟩⟩
  intro value isValue
  cases isValue
  decide

end Ghost.Agent
