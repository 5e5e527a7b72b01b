/-
The owner's side of the protocol: `owner/src/com/llsl/viper4android/owner/OwnerWire.java`.

The owner is a Java process with a codec of its own. Java has no unsigned integers: fields come out of a ByteBuffer as
`short`, `int` and `long`, a `short` is widened by `Short.toUnsignedInt`, a `byte` by `& 0xFF`, and the shift of the CRC is
`>>>`. A thrown exception is an error here, whatever its class.

Results:
  · crc32_eq                   : the two CRC-32 loops agree on every payload
  · decodeFrame_iff            : the owner takes the frames the daemon takes, less those with flags
  · owner_wire_agrees          : and so for the payloads that both sides read, and for all the owner writes
-/
import ViperFx.Protocol.Frame
import ViperFx.Protocol.OwnerProtocol

namespace ViperFx.OwnerWire

open ViperFx.Protocol

def PROTOCOL_VERSION : Int32 := 1
def FRAME_HEADER_SIZE : Int32 := 36
def MAX_FRAME_SIZE : Int32 := 1024 * 1024
def MAX_PAYLOAD_SIZE : Int32 := MAX_FRAME_SIZE - FRAME_HEADER_SIZE
def HIDL_SELECTOR : Int32 := 1
def AIDL_SELECTOR : Int32 := 2
def OWNER_HELLO_SIZE : ℕ := 20
def OWNER_HELLO_ACK_SIZE : ℕ := 16
def OWN_SESSION_SIZE : ℕ := 16
def OWNED_SIZE : ℕ := 16
def OWNER_FAILED_SIZE : ℕ := 16
def RELEASE_SIZE : ℕ := 12
def SESSION_DELTA_SIZE : ℕ := 16

def MAGIC : Bytes := ascii ['V', '4', 'A', 'D']

structure Frame where
  messageType : Int32
  requestId : Int64
  sequence : Int64
  payload : Bytes
  deriving DecidableEq

structure Hello where
  ownerPid : Int64
  bootId : Int64
  deriving DecidableEq

structure HelloAck where
  accepted : Bool
  daemonGeneration : Int64
  deriving DecidableEq

structure OwnSession where
  audioSessionId : Int32
  selector : Int32
  deriving DecidableEq

structure Owned where
  audioSessionId : Int32
  effectId : Int32
  hasControl : Bool
  deriving DecidableEq

structure SessionDelta where
  audioSessionId : Int32
  clientUid : Int32
  appeared : Bool
  deriving DecidableEq

/-! ## ByteBuffer, in little-endian order -/

def getShort : Reader Int16 := UInt16.toInt16 <$> readU16

def getInt : Reader Int32 := UInt32.toInt32 <$> readU32

def getLong : Reader Int64 := UInt64.toInt64 <$> readU64

def putShort (v : Int16) : Bytes := putU16 v.toUInt16

def putInt (v : Int32) : Bytes := putU32 v.toUInt32

def putLong (v : Int64) : Bytes := putU64 v.toUInt64

/-- `Short.toUnsignedInt`: the high half is zero and the low half is the argument -/
def toUnsignedInt (v : Int16) : Int32 := v.toUInt16.toUInt32.toInt32

/-- `b ? 1 : 0` as a short -/
def flag (b : Bool) : Int16 := if b then 1 else 0

/-- a buffer of `size` bytes after some puts -/
def payload (size : ℕ) (puts : Bytes) : Except String Bytes :=
  if size < puts.length then .error "buffer overflow" else .ok (puts ++ List.replicate (size - puts.length) 0)

/-! ## CRC-32 -/

def crcBit (crc : Int32) : Int32 := (crc.toUInt32 >>> 1).toInt32 ^^^ (0xEDB88320 &&& -(crc &&& 1))

def crcByte (crc : Int32) (value : UInt8) : Int32 := Nat.repeat crcBit 8 (crc ^^^ (value.toInt8.toInt32 &&& 0xFF))

def crc32 (bytes : Bytes) : Int32 := ~~~ (bytes.foldl crcByte 0xFFFFFFFF)

/-! ## Frames -/

def frame (messageType : Int32) (requestId sequence : Int64) (bytes : Bytes) : Except String Bytes :=
  if MAX_PAYLOAD_SIZE.toInt < bytes.length then .error "payload too large"
  else .ok (MAGIC ++ (putShort 1 ++ (putShort messageType.toInt16 ++ (putInt 0 ++ (putLong requestId ++ (putLong sequence
    ++ (putInt (Int32.ofNat bytes.length) ++ (putInt (crc32 bytes) ++ bytes))))))))

def readFrame (length : Int32) : Reader Frame := do
  let magic ← takeBytes 4
  refuseIf (magic ≠ MAGIC) "bad owner magic"
  let version ← getShort
  refuseIf (toUnsignedInt version ≠ PROTOCOL_VERSION) "unsupported owner protocol"
  let messageType ← getShort
  let flags ← getInt
  refuseIf (flags ≠ 0) "unknown owner flags"
  let requestId ← getLong
  let sequence ← getLong
  let payloadLength ← getInt
  let expectedCrc ← getInt
  refuseIf (payloadLength < 0 ∨ MAX_PAYLOAD_SIZE < payloadLength ∨ payloadLength ≠ length - FRAME_HEADER_SIZE)
    "owner frame payload length mismatch"
  let bytes ← takeBytes payloadLength.toNatClampNeg
  refuseIf (crc32 bytes ≠ expectedCrc) "owner frame crc mismatch"
  pure ⟨toUnsignedInt messageType, requestId, sequence, bytes⟩

/-- the first `length` bytes of a receive buffer; `ByteBuffer.wrap` throws when the buffer is shorter than that -/
def decodeFrame (bytes : Bytes) (length : Int32) : Except String Frame :=
  if length < FRAME_HEADER_SIZE ∨ MAX_FRAME_SIZE < length then .error "owner frame size mismatch"
  else if bytes.length < length.toNatClampNeg then .error "index out of bounds"
  else Prod.fst <$> readFrame length (bytes.take length.toNatClampNeg)

/-! ## Payloads -/

/-- `fixed`: a payload has exactly its size -/
def fixed {α : Type} (bytes : Bytes) (expected : ℕ) (m : Reader α) : Except String α :=
  if bytes.length ≠ expected then .error "owner payload size mismatch" else Prod.fst <$> m bytes

def requireVersion : Reader Unit := do
  refuseIf (toUnsignedInt (← getShort) ≠ PROTOCOL_VERSION) "unsupported owner version"

def requireVersionAndReserved : Reader Unit := do
  requireVersion
  refuseIf ((← getShort) ≠ 0) "owner reserved field is non-zero"

/-- the argument of `requireSelector` it does not throw on -/
def Selector (selector : Int32) : Prop := selector = HIDL_SELECTOR ∨ selector = AIDL_SELECTOR

instance (selector : Int32) : Decidable (Selector selector) := inferInstanceAs (Decidable (_ ∨ _))

def hello (ownerPid bootId : Int64) : Except String Bytes :=
  if ownerPid = 0 ∨ bootId = 0 then .error "owner identity is zero"
  else payload OWNER_HELLO_SIZE (putShort 1 ++ (putShort 0 ++ (putLong ownerPid ++ putLong bootId)))

def decodeHello (bytes : Bytes) : Except String Hello :=
  fixed bytes OWNER_HELLO_SIZE do
    requireVersionAndReserved
    let pid ← getLong
    let boot ← getLong
    refuseIf (pid = 0 ∨ boot = 0) "owner identity is zero"
    pure ⟨pid, boot⟩

def helloAck (accepted : Bool) (daemonGeneration : Int64) : Except String Bytes :=
  if daemonGeneration = 0 then .error "daemon generation is zero"
  else payload OWNER_HELLO_ACK_SIZE (putShort 1 ++ (putShort (flag accepted) ++ (putLong daemonGeneration ++ putInt 0)))

def decodeHelloAck (bytes : Bytes) : Except String HelloAck :=
  fixed bytes OWNER_HELLO_ACK_SIZE do
    requireVersion
    let accepted := toUnsignedInt (← getShort)
    refuseIf (1 < accepted) "invalid owner acceptance"
    let generation ← getLong
    refuseIf ((← getInt) ≠ 0 ∨ generation = 0) "invalid owner ack"
    pure ⟨accepted != 0, generation⟩

def ownSession (audioSessionId selector : Int32) : Except String Bytes :=
  if audioSessionId ≠ 0 then .error "only session zero is supported"
  else if ¬ Selector selector then .error "unsupported effect selector"
  else payload OWN_SESSION_SIZE
    (putShort 1 ++ (putShort selector.toInt16 ++ (putInt audioSessionId ++ (putInt 0 ++ putInt 0))))

def decodeOwnSession (bytes : Bytes) : Except String OwnSession :=
  fixed bytes OWN_SESSION_SIZE do
    requireVersion
    let selector := toUnsignedInt (← getShort)
    refuseIf (¬ Selector selector) "unsupported effect selector"
    let session ← getInt
    let reserved ← getInt
    let reserved' ← getInt
    refuseIf (reserved ≠ 0 ∨ reserved' ≠ 0 ∨ session ≠ 0) "invalid owner session request"
    pure ⟨session, selector⟩

def owned (audioSessionId effectId : Int32) (hasControl : Bool) : Except String Bytes :=
  if audioSessionId ≠ 0 ∨ effectId = 0 then .error "invalid owned effect"
  else payload OWNED_SIZE
    (putShort 1 ++ (putShort (flag hasControl) ++ (putInt audioSessionId ++ (putInt effectId ++ putInt 0))))

def decodeOwned (bytes : Bytes) : Except String Owned :=
  fixed bytes OWNED_SIZE do
    requireVersion
    let control := toUnsignedInt (← getShort)
    refuseIf (1 < control) "invalid owner control flag"
    let session ← getInt
    let effect ← getInt
    refuseIf ((← getInt) ≠ 0 ∨ session ≠ 0 ∨ effect = 0) "invalid owned effect"
    pure ⟨session, effect, control != 0⟩

def ownerFailed (audioSessionId reasonCode : Int32) : Except String Bytes :=
  if reasonCode = 0 then .error "owner failure reason is zero"
  else payload OWNER_FAILED_SIZE
    (putShort 1 ++ (putShort 0 ++ (putInt audioSessionId ++ (putInt reasonCode ++ putInt 0))))

def release : Except String Bytes := payload RELEASE_SIZE (putShort 1 ++ (putShort 0 ++ (putInt 0 ++ putInt 0)))

def released : Except String Bytes := release

def decodeRelease (bytes : Bytes) : Except String Int32 :=
  fixed bytes RELEASE_SIZE do
    requireVersionAndReserved
    let session ← getInt
    refuseIf ((← getInt) ≠ 0 ∨ session ≠ 0) "invalid release session"
    pure session

def sessionDelta (sessionId clientUid : Int32) (appeared : Bool) : Except String Bytes :=
  if sessionId = 0 then .error "session id is zero"
  else payload SESSION_DELTA_SIZE
    (putShort 1 ++ (putShort (flag appeared) ++ (putInt sessionId ++ (putInt clientUid ++ putInt 0))))

def decodeSessionDelta (bytes : Bytes) : Except String SessionDelta :=
  fixed bytes SESSION_DELTA_SIZE do
    requireVersion
    let appeared := toUnsignedInt (← getShort)
    let session ← getInt
    let uid ← getInt
    refuseIf (1 < appeared ∨ (← getInt) ≠ 0 ∨ session = 0) "invalid session delta"
    pure ⟨session, uid, appeared != 0⟩

/-! ## Signed and unsigned fields -/

section Fields

variable {s s' : Bytes}

theorem int16_inj {a b : Int16} : a.toUInt16 = b.toUInt16 ↔ a = b :=
  ⟨fun h => by rw [← a.toInt16_toUInt16, h, Int16.toInt16_toUInt16], congrArg _⟩

theorem int32_inj {a b : Int32} : a.toUInt32 = b.toUInt32 ↔ a = b :=
  ⟨fun h => by rw [← a.toInt32_toUInt32, h, Int32.toInt32_toUInt32], congrArg _⟩

theorem int64_inj {a b : Int64} : a.toUInt64 = b.toUInt64 ↔ a = b :=
  ⟨fun h => by rw [← a.toInt64_toUInt64, h, Int64.toInt64_toUInt64], congrArg _⟩

/-- a field that is a function of another one, both ways -/
theorem map_iff {α β : Type} {m : Reader α} {f : α → β} {g : β → α} (hfg : ∀ b, f (g b) = b) (hgf : ∀ a, g (f a) = a) {b : β} :
    (f <$> m) s = .ok (b, s') ↔ m s = .ok (g b, s') := by
  constructor
  · intro h
    obtain ⟨a, ha, rfl⟩ := map_inv h
    rw [ha, hgf]
  · intro h
    have hmap : (m >>= fun a => pure (f a)) s = .ok (b, s') := by
      rw [bind_ok h, hfg]
      rfl
    exact hmap

theorem getShort_iff {v : Int16} : getShort s = .ok (v, s') ↔ s = putShort v ++ s' :=
  (map_iff Int16.toInt16_toUInt16 UInt16.toUInt16_toInt16).trans readU16_iff

theorem getInt_iff {v : Int32} : getInt s = .ok (v, s') ↔ s = putInt v ++ s' :=
  (map_iff Int32.toInt32_toUInt32 UInt32.toUInt32_toInt32).trans readU32_iff

theorem getLong_iff {v : Int64} : getLong s = .ok (v, s') ↔ s = putLong v ++ s' :=
  (map_iff Int64.toInt64_toUInt64 UInt64.toUInt64_toInt64).trans readU64_iff

@[simp] theorem putShort_length (v : Int16) : (putShort v).length = 2 := putU16_length _

@[simp] theorem putInt_length (v : Int32) : (putInt v).length = 4 := putU32_length _

@[simp] theorem putLong_length (v : Int64) : (putLong v).length = 8 := putU64_length _

theorem toUnsignedInt_inj {a b : Int16} : toUnsignedInt a = toUnsignedInt b ↔ a = b := by
  constructor
  · intro h
    have h32 : a.toUInt16.toUInt32 = b.toUInt16.toUInt32 := by
      have hcast := congrArg Int32.toUInt32 h
      simpa only [toUnsignedInt, UInt32.toUInt32_toInt32] using hcast
    have h16 : a.toUInt16 = b.toUInt16 := by
      have hcast := congrArg UInt32.toUInt16 h32
      simpa only [UInt16.toUInt16_toUInt32] using hcast
    exact int16_inj.mp h16
  · rintro rfl
    rfl

theorem version_iff {v : Int16} : toUnsignedInt v = PROTOCOL_VERSION ↔ v = 1 := toUnsignedInt_inj (b := 1)

theorem requireVersion_iff {u : Unit} : requireVersion s = .ok (u, s') ↔ s = putShort 1 ++ s' := by
  simp only [requireVersion, bind_iff, getShort_iff, refuseIf_iff, ne_eq, not_not, version_iff]
  constructor
  · rintro ⟨v, t, rfl, rfl, rfl⟩
    rfl
  · rintro rfl
    exact ⟨1, s', rfl, rfl, rfl⟩

theorem requireVersionAndReserved_iff {u : Unit} :
    requireVersionAndReserved s = .ok (u, s') ↔ s = putShort 1 ++ (putShort 0 ++ s') := by
  simp only [requireVersionAndReserved, bind_iff, requireVersion_iff, getShort_iff, refuseIf_iff, ne_eq, not_not]
  constructor
  · rintro ⟨-, t, rfl, v, t, rfl, rfl, rfl⟩
    rfl
  · rintro rfl
    exact ⟨(), _, rfl, 0, s', rfl, rfl, rfl⟩

end Fields

/-! ## CRC-32 -/

/-- masking a widened byte undoes the sign -/
theorem byte_and_0xFF (value : UInt8) : (value.toInt8.toInt32 &&& 0xFF).toUInt32 = value.toUInt32 := by
  have hmask : ∀ x : BitVec 8, x.signExtend 32 &&& 0xFF#32 = x.zeroExtend 32 := by decide +kernel
  exact UInt32.toBitVec_inj.mp (hmask value.toBitVec)

theorem crcBit_eq (crc : Int32) : (crcBit crc).toUInt32 = Protocol.crcBit crc.toUInt32 := by
  rw [crcBit, Protocol.crcBit, UInt32.zero_sub]
  rfl

theorem repeat_crcBit_eq (n : ℕ) (crc : Int32) :
    (Nat.repeat crcBit n crc).toUInt32 = Nat.repeat Protocol.crcBit n crc.toUInt32 := by
  induction n with
  | zero => rfl
  | succ n ih => rw [Nat.repeat, Nat.repeat, crcBit_eq, ih]

theorem crcByte_eq (crc : Int32) (value : UInt8) : (crcByte crc value).toUInt32 = Protocol.crcByte crc.toUInt32 value := by
  rw [crcByte, Protocol.crcByte, repeat_crcBit_eq, Int32.toUInt32_xor, byte_and_0xFF]

theorem foldl_crcByte_eq (bytes : Bytes) (crc : Int32) :
    (bytes.foldl crcByte crc).toUInt32 = bytes.foldl Protocol.crcByte crc.toUInt32 := by
  induction bytes generalizing crc with
  | nil => rfl
  | cons b bytes ih => rw [List.foldl_cons, List.foldl_cons, ih, crcByte_eq]

theorem crc32_eq (bytes : Bytes) : (crc32 bytes).toUInt32 = Protocol.crc32 bytes := by
  rw [crc32, Protocol.crc32, Int32.toUInt32_not, foldl_crcByte_eq]
  rfl

/-! ## Frames on both sides -/

/-- the two differ in how the frame is held, not in what it says -/
structure Frame.Same (f : Frame) (header : FrameHeader) (bytes : Bytes) : Prop where
  messageType : f.messageType.toUInt32 = header.messageType.toUInt32
  requestId : f.requestId.toUInt64 = header.requestId
  sequence : f.sequence.toUInt64 = header.sequence
  payload : f.payload = bytes

theorem toNatClampNeg_eq {n : Int32} (h : ¬ n < 0) : (n.toNatClampNeg : ℤ) = n.toInt := by
  rw [Int32.not_lt, Int32.le_iff_toInt_le] at h
  exact Int.toNat_of_nonneg h

/-- a length a frame may have, as an integer -/
theorem length_bounds {length : Int32} (h : ¬ (length < FRAME_HEADER_SIZE ∨ MAX_FRAME_SIZE < length)) :
    36 ≤ length.toInt ∧ length.toInt ≤ 1048576 := by
  have hheader : FRAME_HEADER_SIZE.toInt = 36 := rfl
  have hmax : MAX_FRAME_SIZE.toInt = 1048576 := rfl
  rw [not_or, Int32.lt_iff_toInt_lt, Int32.lt_iff_toInt_lt, hheader, hmax] at h
  omega

/-- nothing wraps when the header is taken off -/
theorem payload_size {length : Int32} (hlow : 36 ≤ length.toInt) (hhigh : length.toInt ≤ 1048576) :
    (length - FRAME_HEADER_SIZE).toInt = length.toInt - 36 := by
  have hheader : FRAME_HEADER_SIZE.toInt = 36 := rfl
  rw [Int32.toInt_sub, hheader]
  exact Int.bmod_eq_of_le (by omega) (by omega)

theorem decodeFrame_inv {bytes : Bytes} {length : Int32} {f : Frame} (h : decodeFrame bytes length = .ok f) :
    0 ≤ length ∧ length.toInt ≤ bytes.length ∧ ∃ header,
      Protocol.decodeFrame (bytes.take length.toNatClampNeg) = .ok (header, f.payload) ∧ header.flags = 0 ∧
        f.Same header f.payload := by
  rw [decodeFrame, guard_iff, guard_iff, fst_iff] at h
  obtain ⟨hrange, hsize, rest, h⟩ := h
  obtain ⟨hlow, hhigh⟩ := length_bounds hrange
  have hpositive : ¬ length < 0 := by
    rw [Int32.lt_iff_toInt_lt]
    exact not_lt.mpr (le_trans (by decide) hlow)
  have hclamp := toNatClampNeg_eq hpositive
  have htake : (bytes.take length.toNatClampNeg).length = length.toNatClampNeg :=
    List.length_take_of_le (not_lt.mp hsize)
  refine ⟨Int32.not_lt.mp hpositive, by omega, ?_⟩
  generalize bytes.take length.toNatClampNeg = packet at h htake
  simp only [readFrame, bind_iff, takeBytes_iff, refuseIf_iff, getShort_iff, getInt_iff, getLong_iff, pure_iff, ne_eq, not_not,
    not_or, version_iff] at h
  obtain ⟨magic, s, ⟨rfl, -⟩, -, s, ⟨rfl, rfl⟩, _, s, rfl, -, s, ⟨rfl, rfl⟩, messageType, s, rfl, _, s, rfl, -, s, ⟨rfl, rfl⟩,
    requestId, s, rfl, sequence, s, rfl, payloadLength, s, rfl, expectedCrc, s, rfl, -, s,
    ⟨⟨hnonneg, hmax, hlength⟩, rfl⟩, payload, s, ⟨rfl, hpayload⟩, -, s, ⟨hcrc, rfl⟩, rfl, rfl⟩ := h
  have hexact : payload.length + 36 = length.toNatClampNeg := by
    have hpayloadLength := toNatClampNeg_eq hnonneg
    rw [← hpayload, hlength, payload_size hlow hhigh] at hpayloadLength
    omega
  obtain rfl : s = [] := by
    have hmagic : MAGIC.length = 4 := rfl
    simp only [List.length_append, putShort_length, putInt_length, putLong_length, hmagic] at htake
    exact List.length_eq_zero_iff.mp (by omega)
  have hword : UInt32.ofNat payload.length = payloadLength.toUInt32 := by
    rw [hpayload, ← Int32.toNat_toUInt32_of_le (Int32.not_lt.mp hnonneg), UInt32.ofNat_toNat]
  have hfits : payload.length ≤ kMaxPayloadSize := by
    have hlimit : kMaxPayloadSize = 1048540 := rfl
    omega
  refine ⟨⟨1, messageType.toUInt16, 0, requestId.toUInt64, sequence.toUInt64, payloadLength.toUInt32, expectedCrc.toUInt32⟩,
    ?_, rfl, ⟨UInt32.toUInt32_toInt32 _, rfl, rfl, rfl⟩⟩
  have hnone : (0 : UInt32) &&& ~~~ kKnownFrameFlags = 0 := by decide
  refine decodeFrame_encode (encodeFrame_iff.mpr ⟨hfits, rfl, hnone, ?_⟩) ⟨rfl, hnone, hfits, ?_, ?_⟩
  · rw [frameBytes, hword, ← crc32_eq, hcrc, List.append_nil]
    rfl
  · rw [← hword, UInt32.toNat_ofNat', Nat.mod_eq_of_lt (lt_of_le_of_lt hfits (by decide))]
  · rw [← hcrc, crc32_eq]

theorem decodeFrame_take {bytes payload : Bytes} {length : Int32} {header : FrameHeader} (hnonneg : 0 ≤ length)
    (hsize : length.toInt ≤ bytes.length)
    (h : Protocol.decodeFrame (bytes.take length.toNatClampNeg) = .ok (header, payload)) (hflags : header.flags = 0) :
    decodeFrame bytes length
      = .ok ⟨header.messageType.toUInt32.toInt32, header.requestId.toInt64, header.sequence.toInt64, payload⟩ := by
  obtain ⟨hfits, hencode⟩ := Protocol.decodeFrame_inv h
  obtain ⟨-, -, -, hbytes⟩ := encodeFrame_iff.mp hencode
  have hpositive : ¬ length < 0 := Int32.not_lt.mpr hnonneg
  have hclamp := toNatClampNeg_eq hpositive
  have htake : (bytes.take length.toNatClampNeg).length = length.toNatClampNeg := List.length_take_of_le (by omega)
  have hlimit : payload.length ≤ 1048540 := hfits.size
  have hexact : length.toInt = payload.length + 36 := by
    rw [hbytes] at htake
    simp only [frameBytes, List.length_append, putU16_length, putU32_length, putU64_length, kFrameMagic, List.length_cons,
      List.length_nil] at htake
    omega
  have hrange : ¬ (length < FRAME_HEADER_SIZE ∨ MAX_FRAME_SIZE < length) := by
    have hheader : FRAME_HEADER_SIZE.toInt = 36 := rfl
    have hmax : MAX_FRAME_SIZE.toInt = 1048576 := rfl
    rw [not_or, Int32.lt_iff_toInt_lt, Int32.lt_iff_toInt_lt, hheader, hmax]
    omega
  have hsub : (length - FRAME_HEADER_SIZE).toInt = length.toInt - 36 := payload_size (by omega) (by omega)
  have hpayloadLength : ¬ length - FRAME_HEADER_SIZE < 0 := by
    have hzero : (0 : Int32).toInt = 0 := rfl
    rw [Int32.lt_iff_toInt_lt, hsub, hzero]
    omega
  have hcount := toNatClampNeg_eq hpayloadLength
  have hword : (length - FRAME_HEADER_SIZE).toUInt32 = UInt32.ofNat payload.length := by
    have hnat := Int32.toNat_toUInt32_of_le (Int32.not_lt.mp hpayloadLength)
    have hpayload : (length - FRAME_HEADER_SIZE).toNatClampNeg = payload.length := by omega
    rw [← hpayload, ← hnat, UInt32.ofNat_toNat]
  have hjava : bytes.take length.toNatClampNeg = MAGIC ++ (putShort 1 ++ (putShort header.messageType.toInt16 ++ (putInt 0
      ++ (putLong header.requestId.toInt64 ++ (putLong header.sequence.toInt64 ++ (putInt (length - FRAME_HEADER_SIZE)
      ++ (putInt (crc32 payload) ++ payload))))))) := by
    rw [hbytes, frameBytes, hfits.version, hflags, ← hword, ← crc32_eq]
    rfl
  rw [decodeFrame, guard_iff, guard_iff, fst_iff]
  refine ⟨hrange, by omega, [], ?_⟩
  simp only [readFrame, bind_iff, takeBytes_iff, refuseIf_iff, getShort_iff, getInt_iff, getLong_iff, pure_iff, ne_eq, not_not,
    not_or, version_iff]
  refine ⟨MAGIC, _, ⟨hjava, rfl⟩, (), _, ⟨rfl, rfl⟩, 1, _, rfl, (), _, ⟨rfl, rfl⟩, header.messageType.toInt16, _, rfl, 0, _, rfl,
    (), _, ⟨rfl, rfl⟩, header.requestId.toInt64, _, rfl, header.sequence.toInt64, _, rfl, length - FRAME_HEADER_SIZE, _, rfl,
    crc32 payload, _, rfl, (), _, ⟨⟨hpayloadLength, ?_, rfl⟩, rfl⟩, payload, [], ⟨(List.append_nil _).symm, by omega⟩, (), _,
    ⟨rfl, rfl⟩, rfl, rfl⟩
  have hmax : MAX_PAYLOAD_SIZE.toInt = 1048540 := rfl
  rw [Int32.lt_iff_toInt_lt, hsub, hmax]
  omega

/-- the owner's frames are the daemon's, less those with flags -/
theorem decodeFrame_iff {bytes : Bytes} {length : Int32} {f : Frame} :
    decodeFrame bytes length = .ok f ↔ 0 ≤ length ∧ length.toInt ≤ bytes.length ∧ ∃ header payload,
      Protocol.decodeFrame (bytes.take length.toNatClampNeg) = .ok (header, payload) ∧ header.flags = 0 ∧
        f.Same header payload := by
  constructor
  · intro h
    obtain ⟨hnonneg, hsize, header, hdecode, hflags, hsame⟩ := decodeFrame_inv h
    exact ⟨hnonneg, hsize, header, f.payload, hdecode, hflags, hsame⟩
  · rintro ⟨hnonneg, hsize, header, payload, hdecode, hflags, hsame⟩
    rw [decodeFrame_take hnonneg hsize hdecode hflags, ← hsame.messageType, ← hsame.requestId, ← hsame.sequence,
      ← hsame.payload]
    rfl

/-! ## Payloads on both sides -/

/-- the same bits on both sides, field by field -/
def Hello.Same (v : Hello) (w : OwnerHello) : Prop := v.ownerPid.toUInt64 = w.ownerPid ∧ v.bootId.toUInt64 = w.bootId

def HelloAck.Same (v : HelloAck) (w : OwnerHelloAck) : Prop :=
  v.accepted = w.accepted ∧ v.daemonGeneration.toUInt64 = w.daemonGeneration

def OwnSession.Same (v : OwnSession) (w : Protocol.OwnSession) : Prop :=
  v.audioSessionId.toUInt32 = w.audioSessionId ∧ v.selector.toUInt32 = w.selector.toUInt32

def Owned.Same (v : Owned) (w : Protocol.Owned) : Prop :=
  v.audioSessionId.toUInt32 = w.audioSessionId ∧ v.effectId.toUInt32 = w.effectId ∧ v.hasControl = w.hasControl

def SessionDelta.Same (v : SessionDelta) (w : Protocol.SessionDelta) : Prop :=
  v.audioSessionId.toUInt32 = w.audioSessionId ∧ v.clientUid.toUInt32 = w.clientUid ∧ v.appeared = w.appeared

/-- both refuse, or both accept with the same values -/
def Agree {α β : Type} (owner : Except String α) (daemon : Except String β) (same : α → β → Prop) : Prop :=
  match owner, daemon with
  | .ok v, .ok w => same v w
  | .error _, .error _ => True
  | _, _ => False

theorem agree_of {α β : Type} {owner : Except String α} {daemon : Except String β} {same : α → β → Prop}
    (hforth : ∀ v, owner = .ok v → ∃ w, daemon = .ok w ∧ same v w) (hback : ∀ w, daemon = .ok w → ∃ v, owner = .ok v) :
    Agree owner daemon same := by
  cases owner with
  | ok v =>
    obtain ⟨w, rfl, hsame⟩ := hforth v rfl
    exact hsame
  | error e =>
    cases daemon with
    | error e' => trivial
    | ok w =>
      obtain ⟨v, hv⟩ := hback w rfl
      cases hv

/-- a 16-bit field of at most one is a flag -/
theorem flag_of_le {x : Int16} (h : ¬ 1 < toUnsignedInt x) : x = flag (toUnsignedInt x != 0) := by
  have hone : (1 : Int32).toInt = 1 := rfl
  have hnat : (toUnsignedInt x).toInt = x.toUInt16.toNat := by
    have hlt : x.toUInt16.toUInt32.toBitVec.toNat < 2 ^ 16 := by
      rw [UInt32.toNat_toBitVec, UInt16.toNat_toUInt32]
      exact x.toUInt16.toNat_lt
    rw [← UInt16.toNat_toUInt32]
    exact BitVec.toInt_eq_toNat_of_lt (x := x.toUInt16.toUInt32.toBitVec) (by omega)
  rw [Int32.lt_iff_toInt_lt, hone, hnat] at h
  have hcases : x.toUInt16.toNat = 0 ∨ x.toUInt16.toNat = 1 := by omega
  rcases hcases with hx | hx
  · obtain rfl : x = 0 := int16_inj.mp (UInt16.toNat_inj.mp hx)
    rfl
  · obtain rfl : x = 1 := int16_inj.mp (UInt16.toNat_inj.mp hx)
    rfl

theorem not_lt_flag (b : Bool) : ¬ 1 < toUnsignedInt (flag b) := by
  cases b <;> decide

theorem toUnsignedInt_flag (b : Bool) : (toUnsignedInt (flag b) != 0) = b := by
  cases b <;> decide

theorem putShort_flag (b : Bool) : putShort (flag b) = putFlag b := by
  cases b <;> rfl

theorem selector_iff {x : Int16} : Selector (toUnsignedInt x) ↔ isAllowedEffectSelector x.toUInt16 = true := by
  have hhidl : toUnsignedInt x = HIDL_SELECTOR ↔ x = 1 := toUnsignedInt_inj (b := 1)
  have haidl : toUnsignedInt x = AIDL_SELECTOR ↔ x = 2 := toUnsignedInt_inj (b := 2)
  have hone : x.toUInt16 = 1 ↔ x = 1 := int16_inj (b := 1)
  have htwo : x.toUInt16 = 2 ↔ x = 2 := int16_inj (b := 2)
  rw [Selector, hhidl, haidl, isAllowedEffectSelector, Bool.or_eq_true, beq_iff_eq, beq_iff_eq, hone, htwo]

theorem int32_eq_zero {v : Int32} : v.toUInt32 = 0 ↔ v = 0 := int32_inj (b := 0)

theorem int32_ne_zero {v : Int32} : v.toUInt32 ≠ 0 ↔ v ≠ 0 := not_congr (int32_inj (b := 0))

theorem int64_ne_zero {v : Int64} : v.toUInt64 ≠ 0 ↔ v ≠ 0 := not_congr (int64_inj (b := 0))

theorem decodeHello_iff {bytes : Bytes} {v : Hello} :
    decodeHello bytes = .ok v ↔ decodeOwnerHello bytes = .ok ⟨v.ownerPid.toUInt64, v.bootId.toUInt64⟩ := by
  simp only [decodeOwnerHello_iff, int64_ne_zero]
  simp only [decodeHello, fixed, guard_iff, fst_iff, bind_iff, requireVersionAndReserved_iff, getLong_iff, refuseIf_iff,
    pure_iff, ne_eq, not_not, not_or]
  constructor
  · rintro ⟨hwire, rest, -, s, rfl, pid, s, rfl, boot, s, rfl, -, s, ⟨hidentity, rfl⟩, rfl, rfl⟩
    simp only [List.length_append, putShort_length, putLong_length, OWNER_HELLO_SIZE] at hwire
    obtain rfl : s = [] := List.length_eq_zero_iff.mp (by omega)
    refine ⟨hidentity, ?_⟩
    rw [List.append_nil]
    rfl
  · rintro ⟨hidentity, rfl⟩
    exact ⟨rfl, [], (), _, rfl, v.ownerPid, _, rfl, v.bootId, _, (List.append_nil _).symm, (), _, ⟨hidentity, rfl⟩, rfl, rfl⟩

theorem decodeHelloAck_iff {bytes : Bytes} {v : HelloAck} :
    decodeHelloAck bytes = .ok v ↔ decodeOwnerHelloAck bytes = .ok ⟨v.accepted, v.daemonGeneration.toUInt64⟩ := by
  simp only [decodeOwnerHelloAck_iff, int64_ne_zero]
  simp only [decodeHelloAck, fixed, guard_iff, fst_iff, bind_iff, requireVersion_iff, getShort_iff, getInt_iff, getLong_iff,
    refuseIf_iff, pure_iff, ne_eq, not_not, not_or]
  constructor
  · rintro ⟨hwire, rest, -, s, rfl, accepted, s, rfl, -, s, ⟨hflag, rfl⟩, generation, s, rfl, _, s, rfl, -, s,
      ⟨⟨rfl, hgeneration⟩, rfl⟩, rfl, rfl⟩
    simp only [List.length_append, putShort_length, putInt_length, putLong_length, OWNER_HELLO_ACK_SIZE] at hwire
    obtain rfl : s = [] := List.length_eq_zero_iff.mp (by omega)
    refine ⟨hgeneration, ?_⟩
    rw [List.append_nil, flag_of_le hflag, putShort_flag, toUnsignedInt_flag]
    rfl
  · rintro ⟨hgeneration, rfl⟩
    refine ⟨rfl, [], (), _, rfl, flag v.accepted, _, ?_, (), _, ⟨not_lt_flag v.accepted, rfl⟩, v.daemonGeneration, _, rfl, 0, _,
      (List.append_nil _).symm, (), _, ⟨⟨rfl, hgeneration⟩, rfl⟩, ?_, rfl⟩
    · rw [putShort_flag]
      rfl
    · rw [toUnsignedInt_flag]

/-- the selector is widened on its way in -/
theorem decodeOwnSession_iff {bytes : Bytes} {v : OwnSession} :
    decodeOwnSession bytes = .ok v ↔ ∃ x : Int16, v.selector = toUnsignedInt x ∧
      Protocol.decodeOwnSession bytes = .ok ⟨v.audioSessionId.toUInt32, x.toUInt16⟩ := by
  simp only [Protocol.decodeOwnSession_iff, ← selector_iff]
  simp only [decodeOwnSession, fixed, guard_iff, fst_iff, bind_iff, requireVersion_iff, getShort_iff, getInt_iff, refuseIf_iff,
    pure_iff, ne_eq, not_not, not_or]
  constructor
  · rintro ⟨hwire, rest, -, s, rfl, selector, s, rfl, -, s, ⟨hselector, rfl⟩, session, s, rfl, _, s, rfl, _, s, rfl, -, s,
      ⟨⟨rfl, rfl, rfl⟩, rfl⟩, rfl, rfl⟩
    simp only [List.length_append, putShort_length, putInt_length, OWN_SESSION_SIZE] at hwire
    obtain rfl : s = [] := List.length_eq_zero_iff.mp (by omega)
    refine ⟨selector, rfl, ⟨hselector, rfl⟩, ?_⟩
    rw [List.append_nil]
    rfl
  · rintro ⟨x, hx, ⟨hselector, hsession⟩, rfl⟩
    obtain ⟨session, selector⟩ := v
    obtain rfl : session = 0 := int32_inj.mp hsession
    obtain rfl : selector = toUnsignedInt x := hx
    exact ⟨rfl, [], (), _, rfl, x, _, rfl, (), _, ⟨hselector, rfl⟩, 0, _, rfl, 0, _, rfl, 0, _, (List.append_nil _).symm, (), _,
      ⟨⟨rfl, rfl, rfl⟩, rfl⟩, rfl, rfl⟩

theorem decodeOwned_iff {bytes : Bytes} {v : Owned} :
    decodeOwned bytes = .ok v ↔
      Protocol.decodeOwned bytes = .ok ⟨v.audioSessionId.toUInt32, v.effectId.toUInt32, v.hasControl⟩ := by
  simp only [Protocol.decodeOwned_iff, int32_ne_zero, int32_eq_zero]
  simp only [decodeOwned, fixed, guard_iff, fst_iff, bind_iff, requireVersion_iff, getShort_iff, getInt_iff, refuseIf_iff,
    pure_iff, ne_eq, not_not, not_or]
  constructor
  · rintro ⟨hwire, rest, -, s, rfl, control, s, rfl, -, s, ⟨hflag, rfl⟩, session, s, rfl, effect, s, rfl, _, s, rfl, -, s,
      ⟨⟨rfl, rfl, heffect⟩, rfl⟩, rfl, rfl⟩
    simp only [List.length_append, putShort_length, putInt_length, OWNED_SIZE] at hwire
    obtain rfl : s = [] := List.length_eq_zero_iff.mp (by omega)
    refine ⟨⟨rfl, heffect⟩, ?_⟩
    rw [List.append_nil, flag_of_le hflag, putShort_flag, toUnsignedInt_flag]
    rfl
  · rintro ⟨⟨hsession, heffect⟩, rfl⟩
    refine ⟨rfl, [], (), _, rfl, flag v.hasControl, _, ?_, (), _, ⟨not_lt_flag v.hasControl, rfl⟩, v.audioSessionId, _, rfl,
      v.effectId, _, rfl, 0, _, (List.append_nil _).symm, (), _, ⟨⟨rfl, hsession, heffect⟩, rfl⟩, ?_, rfl⟩
    · rw [putShort_flag]
      rfl
    · rw [toUnsignedInt_flag]

theorem decodeRelease_iff {bytes : Bytes} {v : Int32} :
    decodeRelease bytes = .ok v ↔ decodeReleaseSession bytes = .ok ⟨v.toUInt32⟩ := by
  simp only [decodeReleaseSession_iff, int32_eq_zero]
  simp only [decodeRelease, fixed, guard_iff, fst_iff, bind_iff, requireVersionAndReserved_iff, getInt_iff, refuseIf_iff,
    pure_iff, ne_eq, not_not, not_or]
  constructor
  · rintro ⟨hwire, rest, -, s, rfl, _, s, rfl, _, s, rfl, -, s, ⟨⟨rfl, rfl⟩, rfl⟩, rfl, rfl⟩
    simp only [List.length_append, putShort_length, putInt_length, RELEASE_SIZE] at hwire
    obtain rfl : s = [] := List.length_eq_zero_iff.mp (by omega)
    refine ⟨rfl, ?_⟩
    rw [List.append_nil]
    rfl
  · rintro ⟨rfl, rfl⟩
    exact ⟨rfl, [], (), _, rfl, 0, _, rfl, 0, _, (List.append_nil _).symm, (), _, ⟨⟨rfl, rfl⟩, rfl⟩, rfl, rfl⟩

theorem decodeSessionDelta_iff {bytes : Bytes} {v : SessionDelta} :
    decodeSessionDelta bytes = .ok v ↔
      Protocol.decodeSessionDelta bytes = .ok ⟨v.audioSessionId.toUInt32, v.clientUid.toUInt32, v.appeared⟩ := by
  simp only [Protocol.decodeSessionDelta_iff, int32_ne_zero]
  simp only [decodeSessionDelta, fixed, guard_iff, fst_iff, bind_iff, requireVersion_iff, getShort_iff, getInt_iff,
    refuseIf_iff, pure_iff, ne_eq, not_not, not_or]
  constructor
  · rintro ⟨hwire, rest, -, s, rfl, appeared, s, rfl, session, s, rfl, uid, s, rfl, _, s, rfl, -, s,
      ⟨⟨hflag, rfl, hsession⟩, rfl⟩, rfl, rfl⟩
    simp only [List.length_append, putShort_length, putInt_length, SESSION_DELTA_SIZE] at hwire
    obtain rfl : s = [] := List.length_eq_zero_iff.mp (by omega)
    refine ⟨hsession, ?_⟩
    rw [List.append_nil, flag_of_le hflag, putShort_flag, toUnsignedInt_flag]
    rfl
  · rintro ⟨hsession, rfl⟩
    refine ⟨rfl, [], (), _, rfl, flag v.appeared, _, ?_, v.audioSessionId, _, rfl, v.clientUid, _, rfl, 0, _,
      (List.append_nil _).symm, (), _, ⟨⟨not_lt_flag v.appeared, rfl, hsession⟩, rfl⟩, ?_, rfl⟩
    · rw [putShort_flag]
      rfl
    · rw [toUnsignedInt_flag]

/-- a buffer that is filled to its end -/
theorem payload_full {size : ℕ} {puts out : Bytes} (h : payload size puts = .ok out) (hsize : puts.length = size) :
    out = puts := by
  rw [payload, guard_iff, hsize, Nat.sub_self, List.replicate_zero, List.append_nil] at h
  exact (Except.ok.inj h.2).symm

/-! ## What the owner writes -/

theorem decode_hello {ownerPid bootId : Int64} {out : Bytes} (h : hello ownerPid bootId = .ok out) :
    decodeOwnerHello out = .ok ⟨ownerPid.toUInt64, bootId.toUInt64⟩ := by
  rw [hello, guard_iff, not_or] at h
  obtain ⟨hidentity, h⟩ := h
  obtain rfl := payload_full h rfl
  simp only [decodeOwnerHello_iff, int64_ne_zero]
  exact ⟨hidentity, rfl⟩

theorem decode_helloAck {accepted : Bool} {daemonGeneration : Int64} {out : Bytes}
    (h : helloAck accepted daemonGeneration = .ok out) :
    decodeOwnerHelloAck out = .ok ⟨accepted, daemonGeneration.toUInt64⟩ := by
  rw [helloAck, guard_iff] at h
  obtain ⟨hgeneration, h⟩ := h
  obtain rfl := payload_full h rfl
  simp only [decodeOwnerHelloAck_iff, int64_ne_zero]
  refine ⟨hgeneration, ?_⟩
  rw [putShort_flag]
  rfl

/-- a selector that is allowed survives the narrowing to 16 bits -/
theorem decode_ownSession {audioSessionId selector : Int32} {out : Bytes} (h : ownSession audioSessionId selector = .ok out) :
    Protocol.decodeOwnSession out = .ok ⟨audioSessionId.toUInt32, selector.toInt16.toUInt16⟩ ∧
      selector = toUnsignedInt selector.toInt16 := by
  rw [ownSession, guard_iff, guard_iff, not_not, not_not] at h
  obtain ⟨hsession, hselector, h⟩ := h
  obtain rfl := payload_full h rfl
  have hwide : selector = toUnsignedInt selector.toInt16 := by
    rcases hselector with rfl | rfl
    · rfl
    · rfl
  rw [hwide, selector_iff] at hselector
  simp only [Protocol.decodeOwnSession_iff, int32_eq_zero]
  exact ⟨⟨⟨hselector, hsession⟩, rfl⟩, hwide⟩

theorem decode_owned {audioSessionId effectId : Int32} {hasControl : Bool} {out : Bytes}
    (h : owned audioSessionId effectId hasControl = .ok out) :
    Protocol.decodeOwned out = .ok ⟨audioSessionId.toUInt32, effectId.toUInt32, hasControl⟩ := by
  rw [owned, guard_iff, not_or, not_not] at h
  obtain ⟨hpair, h⟩ := h
  obtain rfl := payload_full h rfl
  simp only [Protocol.decodeOwned_iff, int32_ne_zero, int32_eq_zero]
  refine ⟨hpair, ?_⟩
  rw [putShort_flag]
  rfl

theorem decode_ownerFailed {audioSessionId reasonCode : Int32} {out : Bytes}
    (h : ownerFailed audioSessionId reasonCode = .ok out) :
    decodeOwnerFailed out = .ok ⟨audioSessionId.toUInt32, reasonCode.toUInt32⟩ := by
  rw [ownerFailed, guard_iff] at h
  obtain ⟨hreason, h⟩ := h
  obtain rfl := payload_full h rfl
  simp only [decodeOwnerFailed_iff, int32_ne_zero]
  exact ⟨hreason, rfl⟩

theorem decode_release {out : Bytes} (h : release = .ok out) :
    decodeReleaseSession out = .ok ⟨0⟩ ∧ decodeReleased out = .ok ⟨0⟩ := by
  obtain rfl := payload_full h rfl
  exact ⟨decodeReleaseSession_iff.mpr ⟨rfl, rfl⟩, decodeReleased_iff.mpr ⟨rfl, rfl⟩⟩

theorem decode_sessionDelta {sessionId clientUid : Int32} {appeared : Bool} {out : Bytes}
    (h : sessionDelta sessionId clientUid appeared = .ok out) :
    Protocol.decodeSessionDelta out = .ok ⟨sessionId.toUInt32, clientUid.toUInt32, appeared⟩ := by
  rw [sessionDelta, guard_iff] at h
  obtain ⟨hsession, h⟩ := h
  obtain rfl := payload_full h rfl
  simp only [Protocol.decodeSessionDelta_iff, int32_ne_zero]
  refine ⟨hsession, ?_⟩
  rw [putShort_flag]
  rfl

/-- and the daemon takes the frame it is put into -/
theorem decode_frame {messageType : Int32} {requestId sequence : Int64} {bytes out : Bytes}
    (h : frame messageType requestId sequence bytes = .ok out) :
    Protocol.decodeFrame out = .ok (⟨kProtocolVersion, messageType.toInt16.toUInt16, 0, requestId.toUInt64,
      sequence.toUInt64, UInt32.ofNat bytes.length, Protocol.crc32 bytes⟩, bytes) := by
  rw [frame, guard_iff] at h
  obtain ⟨hsize, h⟩ := h
  obtain rfl := Except.ok.inj h
  have hmax : MAX_PAYLOAD_SIZE.toInt = 1048540 := rfl
  have hlimit : kMaxPayloadSize = 1048540 := rfl
  have hfits : bytes.length ≤ kMaxPayloadSize := by omega
  have hnone : (0 : UInt32) &&& ~~~ kKnownFrameFlags = 0 := by decide
  have hlength : (UInt32.ofNat bytes.length).toNat = bytes.length := by
    rw [UInt32.toNat_ofNat', Nat.mod_eq_of_lt (lt_of_le_of_lt hfits (by decide))]
  refine decodeFrame_encode (encodeFrame_iff.mpr ⟨hfits, rfl, hnone, ?_⟩) ⟨rfl, hnone, hfits, hlength, rfl⟩
  rw [frameBytes, ← crc32_eq]
  rfl

/-! ## Both sides -/

theorem hello_agrees (bytes : Bytes) : Agree (decodeHello bytes) (decodeOwnerHello bytes) Hello.Same :=
  agree_of (fun _ h => ⟨_, decodeHello_iff.mp h, rfl, rfl⟩)
    fun w h => ⟨⟨w.ownerPid.toInt64, w.bootId.toInt64⟩, decodeHello_iff.mpr h⟩

theorem helloAck_agrees (bytes : Bytes) : Agree (decodeHelloAck bytes) (decodeOwnerHelloAck bytes) HelloAck.Same :=
  agree_of (fun _ h => ⟨_, decodeHelloAck_iff.mp h, rfl, rfl⟩)
    fun w h => ⟨⟨w.accepted, w.daemonGeneration.toInt64⟩, decodeHelloAck_iff.mpr h⟩

theorem ownSession_agrees (bytes : Bytes) :
    Agree (decodeOwnSession bytes) (Protocol.decodeOwnSession bytes) OwnSession.Same := by
  refine agree_of (fun v h => ?_) fun w h => ?_
  · obtain ⟨x, hx, hdecode⟩ := decodeOwnSession_iff.mp h
    refine ⟨_, hdecode, rfl, ?_⟩
    rw [hx]
    rfl
  · exact ⟨⟨w.audioSessionId.toInt32, toUnsignedInt w.selector.toInt16⟩,
      decodeOwnSession_iff.mpr ⟨w.selector.toInt16, rfl, h⟩⟩

theorem owned_agrees (bytes : Bytes) : Agree (decodeOwned bytes) (Protocol.decodeOwned bytes) Owned.Same :=
  agree_of (fun _ h => ⟨_, decodeOwned_iff.mp h, rfl, rfl, rfl⟩)
    fun w h => ⟨⟨w.audioSessionId.toInt32, w.effectId.toInt32, w.hasControl⟩, decodeOwned_iff.mpr h⟩

theorem release_agrees (bytes : Bytes) :
    Agree (decodeRelease bytes) (decodeReleaseSession bytes) fun v w => v.toUInt32 = w.audioSessionId :=
  agree_of (fun _ h => ⟨_, decodeRelease_iff.mp h, rfl⟩) fun w h => ⟨w.audioSessionId.toInt32, decodeRelease_iff.mpr h⟩

theorem sessionDelta_agrees (bytes : Bytes) :
    Agree (decodeSessionDelta bytes) (Protocol.decodeSessionDelta bytes) SessionDelta.Same :=
  agree_of (fun _ h => ⟨_, decodeSessionDelta_iff.mp h, rfl, rfl, rfl⟩)
    fun w h => ⟨⟨w.audioSessionId.toInt32, w.clientUid.toInt32, w.appeared⟩, decodeSessionDelta_iff.mpr h⟩

/-- **The owner and the daemon speak the same protocol.** On the first `length` bytes of any buffer the owner takes a frame
exactly when the daemon takes it and its flags are zero, with the same contents; on every payload that both sides read the two
decoders refuse together or accept the same values; and whatever the owner encodes the daemon decodes to the same values. -/
theorem owner_wire_agrees :
    (∀ bytes, (crc32 bytes).toUInt32 = Protocol.crc32 bytes) ∧
    (∀ bytes length f, decodeFrame bytes length = .ok f ↔ 0 ≤ length ∧ length.toInt ≤ bytes.length ∧ ∃ header payload,
      Protocol.decodeFrame (bytes.take length.toNatClampNeg) = .ok (header, payload) ∧ header.flags = 0 ∧
        f.Same header payload) ∧
    (∀ bytes, Agree (decodeHello bytes) (decodeOwnerHello bytes) Hello.Same ∧
      Agree (decodeHelloAck bytes) (decodeOwnerHelloAck bytes) HelloAck.Same ∧
      Agree (decodeOwnSession bytes) (Protocol.decodeOwnSession bytes) OwnSession.Same ∧
      Agree (decodeOwned bytes) (Protocol.decodeOwned bytes) Owned.Same ∧
      (Agree (decodeRelease bytes) (decodeReleaseSession bytes) fun v w => v.toUInt32 = w.audioSessionId) ∧
      Agree (decodeSessionDelta bytes) (Protocol.decodeSessionDelta bytes) SessionDelta.Same) ∧
    (∀ ownerPid bootId out, hello ownerPid bootId = .ok out →
      ∃ w, decodeOwnerHello out = .ok w ∧ Hello.Same ⟨ownerPid, bootId⟩ w) ∧
    (∀ accepted daemonGeneration out, helloAck accepted daemonGeneration = .ok out →
      ∃ w, decodeOwnerHelloAck out = .ok w ∧ HelloAck.Same ⟨accepted, daemonGeneration⟩ w) ∧
    (∀ audioSessionId selector out, ownSession audioSessionId selector = .ok out →
      ∃ w, Protocol.decodeOwnSession out = .ok w ∧ OwnSession.Same ⟨audioSessionId, selector⟩ w) ∧
    (∀ audioSessionId effectId hasControl out, owned audioSessionId effectId hasControl = .ok out →
      ∃ w, Protocol.decodeOwned out = .ok w ∧ Owned.Same ⟨audioSessionId, effectId, hasControl⟩ w) ∧
    (∀ audioSessionId reasonCode out, ownerFailed audioSessionId reasonCode = .ok out →
      decodeOwnerFailed out = .ok ⟨audioSessionId.toUInt32, reasonCode.toUInt32⟩) ∧
    (∀ out, release = .ok out → decodeReleaseSession out = .ok ⟨0⟩) ∧
    (∀ out, released = .ok out → decodeReleased out = .ok ⟨0⟩) ∧
    ∀ sessionId clientUid appeared out, sessionDelta sessionId clientUid appeared = .ok out →
      ∃ w, Protocol.decodeSessionDelta out = .ok w ∧ SessionDelta.Same ⟨sessionId, clientUid, appeared⟩ w := by
  refine ⟨crc32_eq, fun _ _ _ => decodeFrame_iff, fun bytes => ⟨hello_agrees bytes, helloAck_agrees bytes,
    ownSession_agrees bytes, owned_agrees bytes, release_agrees bytes, sessionDelta_agrees bytes⟩,
    fun _ _ _ h => ⟨_, decode_hello h, rfl, rfl⟩, fun _ _ _ h => ⟨_, decode_helloAck h, rfl, rfl⟩, fun _ _ _ h => ?_,
    fun _ _ _ _ h => ⟨_, decode_owned h, rfl, rfl, rfl⟩, fun _ _ _ h => decode_ownerFailed h,
    fun _ h => (decode_release h).1, fun _ h => (decode_release h).2,
    fun _ _ _ _ h => ⟨_, decode_sessionDelta h, rfl, rfl, rfl⟩⟩
  obtain ⟨hdecode, hselector⟩ := decode_ownSession h
  exact ⟨_, hdecode, rfl, congrArg Int32.toUInt32 hselector⟩

end ViperFx.OwnerWire
