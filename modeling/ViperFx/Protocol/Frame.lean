/-
Frames: `protocol/ViperDaemonProtocol.cpp`.

Every message on every socket of the system is one frame: a 36-byte header with a CRC-32 of the payload, and the payload.
`decodeFrame` reads the header at fixed offsets, checks it, and takes the rest of the packet as the payload.

Results:
  · decodeFrame_encode : a frame that was encoded is decoded, with its length and checksum filled in
  · decodeFrame_inv    : what is decoded was encoded, byte for byte
  · frame_exact        : decoding succeeds on the encodings of well-formed frames and on nothing else
-/
import ViperFx.Protocol.Wire

namespace ViperFx.Protocol

def kProtocolVersion : UInt16 := 1
def kFrameHeaderSize : ℕ := 36
def kMaxFrameSize : ℕ := 1024 * 1024
def kMaxPayloadSize : ℕ := kMaxFrameSize - kFrameHeaderSize
def kKnownFrameFlags : UInt32 := 0x0000FFFF

/-- "V4AD" -/
def kFrameMagic : Bytes := [0x56, 0x34, 0x41, 0x44]

inductive FrameError where
  | payloadTooLarge
  | frameTooSmall
  | badMagic
  | unsupportedVersion
  | unknownFlags
  | lengthMismatch
  | trailingBytes
  | crcMismatch
  deriving DecidableEq

def FrameError.message : FrameError → String
  | .payloadTooLarge => "payload too large"
  | .frameTooSmall => "frame too small"
  | .badMagic => "bad magic"
  | .unsupportedVersion => "unsupported protocol version"
  | .unknownFlags => "unknown frame flags"
  | .lengthMismatch => "frame length mismatch"
  | .trailingBytes => "trailing bytes"
  | .crcMismatch => "payload crc mismatch"

structure FrameHeader where
  protocolVersion : UInt16 := kProtocolVersion
  messageType : UInt16 := 0
  flags : UInt32 := 0
  requestId : UInt64 := 0
  sequence : UInt64 := 0
  payloadLength : UInt32 := 0
  payloadCrc32 : UInt32 := 0
  deriving DecidableEq

/-! ## Codec -/

/-- the length and the checksum are those of the payload, whatever the header says -/
def frameBytes (header : FrameHeader) (payload : Bytes) : Bytes :=
  kFrameMagic ++ (putU16 header.protocolVersion ++ (putU16 header.messageType ++ (putU32 header.flags
    ++ (putU64 header.requestId ++ (putU64 header.sequence ++ (putU32 (UInt32.ofNat payload.length)
    ++ (putU32 (crc32 payload) ++ payload)))))))

def encodeFrame (header : FrameHeader) (payload : Bytes) : Except String Bytes :=
  if kMaxPayloadSize < payload.length then .error FrameError.payloadTooLarge.message
  else if header.protocolVersion ≠ kProtocolVersion then .error FrameError.unsupportedVersion.message
  else if header.flags &&& ~~~ kKnownFrameFlags ≠ 0 then .error FrameError.unknownFlags.message
  else .ok (frameBytes header payload)

def readFrame : Reader (FrameHeader × Bytes) := do
  let magic ← takeBytes 4
  refuseIf (magic ≠ kFrameMagic) FrameError.badMagic.message
  let protocolVersion ← readU16
  let messageType ← readU16
  let flags ← readU32
  let requestId ← readU64
  let sequence ← readU64
  let payloadLength ← readU32
  let payloadCrc32 ← readU32
  refuseIf (protocolVersion ≠ kProtocolVersion) FrameError.unsupportedVersion.message
  refuseIf (flags &&& ~~~ kKnownFrameFlags ≠ 0) FrameError.unknownFlags.message
  refuseIf (kMaxPayloadSize < payloadLength.toNat) FrameError.payloadTooLarge.message
  let size ← remaining
  refuseIf (size < payloadLength.toNat) FrameError.lengthMismatch.message
  refuseIf (payloadLength.toNat < size) FrameError.trailingBytes.message
  let payload ← takeBytes payloadLength.toNat
  refuseIf (crc32 payload ≠ payloadCrc32) FrameError.crcMismatch.message
  pure (⟨protocolVersion, messageType, flags, requestId, sequence, payloadLength, payloadCrc32⟩, payload)

def decodeFrame (bytes : Bytes) : Except String (FrameHeader × Bytes) :=
  if bytes.length < kFrameHeaderSize then .error FrameError.frameTooSmall.message
  else Prod.fst <$> readFrame bytes

/-- DecodeFrame with its out-parameters, which are assigned after the last check -/
def decodeFrameInto (bytes : Bytes) (out : FrameHeader × Bytes) : Bool × (FrameHeader × Bytes) :=
  match decodeFrame bytes with
  | .error _ => (false, out)
  | .ok frame => (true, frame)

/-! ## Both directions -/

/-- a header that says what is true of its payload -/
structure Fits (header : FrameHeader) (payload : Bytes) : Prop where
  version : header.protocolVersion = kProtocolVersion
  flags : header.flags &&& ~~~ kKnownFrameFlags = 0
  size : payload.length ≤ kMaxPayloadSize
  length : header.payloadLength.toNat = payload.length
  crc : header.payloadCrc32 = crc32 payload

theorem encodeFrame_iff {header : FrameHeader} {payload bytes : Bytes} :
    encodeFrame header payload = .ok bytes ↔ payload.length ≤ kMaxPayloadSize ∧ header.protocolVersion = kProtocolVersion ∧
      header.flags &&& ~~~ kKnownFrameFlags = 0 ∧ bytes = frameBytes header payload := by
  simp only [encodeFrame, guard_iff, not_lt, ne_eq, not_not, Except.ok.injEq, eq_comm (a := bytes)]

theorem decodeFrame_encode {header : FrameHeader} {payload bytes : Bytes} (h : encodeFrame header payload = .ok bytes)
    (hfits : Fits header payload) : decodeFrame bytes = .ok (header, payload) := by
  unfold encodeFrame at h
  split_ifs at h with hsize hversion hflags
  obtain rfl := Except.ok.inj h
  have hnat : (UInt32.ofNat payload.length).toNat = payload.length := by
    rw [← hfits.length]
    simp
  have hlength : UInt32.ofNat payload.length = header.payloadLength := by
    rw [← hfits.length]
    simp
  have hread : readFrame (frameBytes header payload) = .ok ((header, payload), []) := by
    unfold readFrame frameBytes
    rw [bind_ok (takeBytes_append kFrameMagic _ 4 rfl), bind_ok (refuseIf_pass (by simp) _ _), bind_ok (readU16_put _ _),
      bind_ok (readU16_put _ _), bind_ok (readU32_put _ _), bind_ok (readU64_put _ _), bind_ok (readU64_put _ _),
      bind_ok (readU32_put _ _), bind_ok (readU32_put _ _), bind_ok (refuseIf_pass hversion _ _),
      bind_ok (refuseIf_pass hflags _ _), hnat, bind_ok (refuseIf_pass hsize _ _), bind_ok (remaining_eq _),
      bind_ok (refuseIf_pass (lt_irrefl _) _ _), bind_ok (refuseIf_pass (lt_irrefl _) _ _)]
    have htake := takeBytes_append payload [] payload.length rfl
    rw [List.append_nil] at htake
    rw [bind_ok htake, bind_ok (refuseIf_pass (by simp) _ _), hlength, ← hfits.crc]
    rfl
  have hwide : ¬ (frameBytes header payload).length < kFrameHeaderSize := by
    simp only [frameBytes, List.length_append, putU16_length, putU32_length, putU64_length, kFrameHeaderSize, kFrameMagic,
      List.length_cons, List.length_nil]
    omega
  rw [decodeFrame, if_neg hwide, hread]
  rfl

theorem decodeFrame_inv {header : FrameHeader} {payload bytes : Bytes} (h : decodeFrame bytes = .ok (header, payload)) :
    Fits header payload ∧ encodeFrame header payload = .ok bytes := by
  unfold decodeFrame at h
  split_ifs at h
  obtain ⟨rest, h⟩ := fst_inv h
  simp only [readFrame, bind_iff, takeBytes_iff, refuseIf_iff, readU16_iff, readU32_iff, readU64_iff, remaining_iff,
    pure_iff, Prod.mk.injEq] at h
  obtain ⟨magic, s, ⟨rfl, -⟩, -, s, ⟨hmagic, rfl⟩, version, s, rfl, messageType, s, rfl, flags, s, rfl, requestId, s, rfl,
    sequence, s, rfl, length, s, rfl, crc, s, rfl, -, s, ⟨hversion, rfl⟩, -, s, ⟨hflags, rfl⟩, -, s, ⟨hmax, rfl⟩, size, s,
    ⟨rfl, rfl⟩, -, s, ⟨hshort, rfl⟩, -, s, ⟨hlong, rfl⟩, field, s, ⟨rfl, hfield⟩, -, s, ⟨hcrc, rfl⟩, ⟨rfl, rfl⟩, -⟩ := h
  have hrest : s = [] := by
    rw [List.length_append, hfield] at hlong
    exact List.length_eq_zero_iff.mp (by omega)
  have hsize : ¬ kMaxPayloadSize < field.length := hfield ▸ hmax
  have hlength : UInt32.ofNat field.length = length := by
    rw [hfield]
    simp
  refine ⟨⟨not_not.mp hversion, not_not.mp hflags, not_lt.mp hsize, hfield.symm, (not_not.mp hcrc).symm⟩, ?_⟩
  rw [encodeFrame, if_neg hsize, if_neg hversion, if_neg hflags, frameBytes, hlength, not_not.mp hcrc, hrest,
    List.append_nil, not_not.mp hmagic]

theorem decodeFrame_inside (bytes : Bytes) : decodeFrame bytes ≠ .error outOfBounds := by
  unfold decodeFrame
  split_ifs with hshort
  · decide
  have hheader : 36 ≤ bytes.length := not_lt.mp hshort
  have hstays : Stays readFrame (fun _ _ => True) bytes := by
    unfold readFrame
    refine stays_bind (stays_takeBytes (by omega) fun magic s _ hs => ?_)
    refine stays_bind (stays_refuseIf (by decide) fun _ => ?_)
    refine stays_bind (stays_readU16 (by omega) fun _ s hs => ?_)
    refine stays_bind (stays_readU16 (by omega) fun _ s hs => ?_)
    refine stays_bind (stays_readU32 (by omega) fun _ s hs => ?_)
    refine stays_bind (stays_readU64 (by omega) fun _ s hs => ?_)
    refine stays_bind (stays_readU64 (by omega) fun _ s hs => ?_)
    refine stays_bind (stays_readU32 (by omega) fun length s hs => ?_)
    refine stays_bind (stays_readU32 (by omega) fun _ s hs => ?_)
    refine stays_bind (stays_refuseIf (by decide) fun _ => ?_)
    refine stays_bind (stays_refuseIf (by decide) fun _ => ?_)
    refine stays_bind (stays_refuseIf (by decide) fun _ => ?_)
    refine stays_bind (stays_remaining ?_)
    refine stays_bind (stays_refuseIf (by decide) fun hlong => ?_)
    refine stays_bind (stays_refuseIf (by decide) fun _ => ?_)
    refine stays_bind (stays_takeBytes (not_lt.mp hlong) fun _ s _ _ => ?_)
    exact stays_bind (stays_refuseIf (by decide) fun _ => stays_pure trivial)
  exact hstays.fst_inside

/-- **The frame format is exact.** Decoding succeeds on the encodings of well-formed frames and on nothing else, a failure
leaves the out-parameters alone, no two byte strings decode to the same frame, and no read leaves the input. -/
theorem frame_exact :
    (∀ bytes header payload, decodeFrame bytes = .ok (header, payload) ↔
      header.protocolVersion = kProtocolVersion ∧ header.flags &&& ~~~ kKnownFrameFlags = 0 ∧
        payload.length ≤ kMaxPayloadSize ∧ header.payloadLength.toNat = payload.length ∧
        header.payloadCrc32 = crc32 payload ∧ encodeFrame header payload = .ok bytes) ∧
    (∀ bytes out, (decodeFrameInto bytes out).1 = false → (decodeFrameInto bytes out).2 = out) ∧
    (∀ bytes bytes' frame, decodeFrame bytes = .ok frame → decodeFrame bytes' = .ok frame → bytes = bytes') ∧
    ∀ bytes, decodeFrame bytes ≠ .error outOfBounds := by
  refine ⟨fun bytes header payload => ⟨fun h => ?_, ?_⟩, fun bytes out h => ?_, fun bytes bytes' frame h h' => ?_,
    decodeFrame_inside⟩
  · obtain ⟨hfits, hencode⟩ := decodeFrame_inv h
    exact ⟨hfits.version, hfits.flags, hfits.size, hfits.length, hfits.crc, hencode⟩
  · rintro ⟨hversion, hflags, hsize, hlength, hcrc, hencode⟩
    exact decodeFrame_encode hencode ⟨hversion, hflags, hsize, hlength, hcrc⟩
  · unfold decodeFrameInto at h ⊢
    cases hdecode : decodeFrame bytes with
    | error e => rfl
    | ok frame => rw [hdecode] at h; cases h
  · obtain ⟨-, hencode⟩ := decodeFrame_inv h
    obtain ⟨-, hencode'⟩ := decodeFrame_inv h'
    exact Except.ok.inj (hencode.symm.trans hencode')

end ViperFx.Protocol
