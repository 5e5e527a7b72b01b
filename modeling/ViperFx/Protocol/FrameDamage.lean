/-
Damaged frames: what the checksum of `protocol/ViperDaemonProtocol.cpp` detects.

The error pattern of a frame is a byte string as long as the frame, and the damaged frame is the exclusive or of both. Its payload has
its bits in the order in which the CRC takes them, the lowest of each byte first.

Results:
  · crc32_bits     : the CRC-32 of a payload, bit by bit
  · burst_detected : damage within 32 consecutive bits of the payload is a checksum mismatch
-/
import ViperFx.Core.Crc
import ViperFx.Protocol.Frame

namespace ViperFx.Protocol

open ViperFx.Core

/-! ## The checksum bit by bit -/

def kCrcPolynomial : BitVec 32 := 0xEDB88320#32

def byteBits (byte : UInt8) : List Bool := (List.range 8).map fun i => byte.toBitVec.getLsbD i

def payloadBits (payload : Bytes) : List Bool := payload.flatMap byteBits

theorem crcBit_step (crc : UInt32) : (crcBit crc).toBitVec = Crc.step kCrcPolynomial crc.toBitVec := by
  have hlow : (crc &&& 1).toBitVec = BitVec.setWidth 32 (BitVec.ofBool (crc.toBitVec.getLsbD 0)) := by
    rw [UInt32.toBitVec_and]
    exact BitVec.and_one_eq_setWidth_ofBool_getLsbD
  unfold crcBit Crc.step kCrcPolynomial
  cases hbit : crc.toBitVec.getLsbD 0 with
  | false =>
    have hmask : crc &&& 1 = 0 := by
      rw [hbit] at hlow
      exact UInt32.toBitVec_inj.mp hlow
    rw [hmask]
    simp
  | true =>
    have hmask : crc &&& 1 = 1 := by
      rw [hbit] at hlow
      exact UInt32.toBitVec_inj.mp hlow
    rw [hmask]
    simp

theorem word_byteBits (byte : UInt8) : Crc.word 32 (byteBits byte) = byte.toUInt32.toBitVec := by
  apply BitVec.eq_of_getLsbD_eq
  intro i hi
  rw [Crc.word_getLsbD, byteBits, List.getElem?_map, UInt8.toBitVec_toUInt32, BitVec.getLsbD_setWidth]
  by_cases hbit : i < 8
  · rw [List.getElem?_range hbit]
    rfl
  · have hnone : byte.toBitVec.getLsbD i = false := BitVec.getLsbD_of_ge _ _ (not_lt.mp hbit)
    rw [List.getElem?_eq_none (by rw [List.length_range]; omega), hnone]
    rfl

theorem crcByte_bits (crc : UInt32) (byte : UInt8) :
    (crcByte crc byte).toBitVec = Crc.feedBits kCrcPolynomial crc.toBitVec (byteBits byte) := by
  have hrepeat : ∀ (n : ℕ) (x : UInt32), (Nat.repeat crcBit n x).toBitVec = (Crc.step kCrcPolynomial)^[n] x.toBitVec := by
    intro n x
    induction n with
    | zero => rfl
    | succ n ih => rw [Function.iterate_succ_apply', ← ih, ← crcBit_step]; rfl
  have hlength : (byteBits byte).length = 8 := by simp [byteBits]
  rw [Crc.feedBits_eq _ (by omega), hlength, word_byteBits, crcByte, hrepeat, UInt32.toBitVec_xor]

theorem foldl_crcByte_bits (crc : UInt32) (payload : Bytes) :
    (payload.foldl crcByte crc).toBitVec = Crc.feedBits kCrcPolynomial crc.toBitVec (payloadBits payload) := by
  induction payload generalizing crc with
  | nil => rfl
  | cons byte payload ih =>
    rw [List.foldl_cons, ih, crcByte_bits, ← Crc.feedBits_append]
    rfl

/-- the CRC-32 of a payload, fed bit by bit -/
theorem crc32_bits (payload : Bytes) :
    (crc32 payload).toBitVec = ~~~ Crc.feedBits kCrcPolynomial (BitVec.allOnes 32) (payloadBits payload) := by
  rw [crc32, UInt32.toBitVec_not, foldl_crcByte_bits]
  rfl

/-! ## Damage -/

/-- the exclusive or of two byte strings of one length -/
def xorBytes (bytes error : Bytes) : Bytes := List.zipWith (· ^^^ ·) bytes error

/-- a frame with an error pattern in its payload -/
def damage (bytes error : Bytes) : Bytes := xorBytes bytes (List.replicate kFrameHeaderSize 0 ++ error)

theorem byteBits_xor (a b : UInt8) : byteBits (a ^^^ b) = List.zipWith Bool.xor (byteBits a) (byteBits b) := by
  unfold byteBits
  rw [List.zipWith_map, List.zipWith_self]
  apply List.map_congr_left
  intro i _
  rw [UInt8.toBitVec_xor, BitVec.getLsbD_xor]

theorem length_byteBits (byte : UInt8) : (byteBits byte).length = 8 := by
  simp [byteBits]

theorem length_payloadBits (payload : Bytes) : (payloadBits payload).length = payload.length * 8 := by
  induction payload with
  | nil => rfl
  | cons byte payload ih =>
    rw [payloadBits, List.flatMap_cons, List.length_append, length_byteBits, ← payloadBits, ih, List.length_cons]
    omega

theorem payloadBits_xor (payload error : Bytes) :
    payloadBits (xorBytes payload error) = List.zipWith Bool.xor (payloadBits payload) (payloadBits error) := by
  induction payload generalizing error with
  | nil => rfl
  | cons a payload ih =>
    cases error with
    | nil => simp [xorBytes, payloadBits]
    | cons b error =>
      have hlength : (byteBits a).length = (byteBits b).length := by rw [length_byteBits, length_byteBits]
      rw [xorBytes, List.zipWith_cons_cons, payloadBits, List.flatMap_cons, byteBits_xor, payloadBits, List.flatMap_cons,
        payloadBits, List.flatMap_cons, List.zipWith_append hlength, ← payloadBits, ← payloadBits, ← payloadBits, ← ih]
      rfl

/-- a damaged payload has the checksum of the payload exactly when its error pattern leaves nothing in the register -/
theorem crc32_xor_ne {payload error : Bytes} (hlength : error.length = payload.length)
    (herror : Crc.feedBits kCrcPolynomial 0#32 (payloadBits error) ≠ 0#32) :
    crc32 (xorBytes payload error) ≠ crc32 payload := by
  intro heq
  apply herror
  have hbits := congrArg UInt32.toBitVec heq
  have hwide : (payloadBits payload).length = (payloadBits error).length := by
    rw [length_payloadBits, length_payloadBits, hlength]
  have hfeed : Crc.feedBits kCrcPolynomial (BitVec.allOnes 32 ^^^ 0#32)
        (List.zipWith Bool.xor (payloadBits payload) (payloadBits error)) =
      Crc.feedBits kCrcPolynomial (BitVec.allOnes 32) (payloadBits payload) ^^^
        Crc.feedBits kCrcPolynomial 0#32 (payloadBits error) := Crc.feedBits_xor _ _ hwide
  rw [BitVec.xor_zero] at hfeed
  rw [crc32_bits, crc32_bits, payloadBits_xor, hfeed, BitVec.not_inj] at hbits
  exact (BitVec.xor_right_inj _).mp (hbits.trans BitVec.xor_zero.symm)

/-! ## Damaged frames -/

theorem refuseIf_fail {α : Type} {c : Prop} [Decidable c] (h : c) (message : String) (f : Unit → Reader α) (s : Bytes) :
    (refuseIf c message >>= f) s = .error message := by
  simp only [refuseIf, h, if_true]
  rfl

/-- the header of a frame -/
def frameHead (header : FrameHeader) (payload : Bytes) : Bytes :=
  kFrameMagic ++ (putU16 header.protocolVersion ++ (putU16 header.messageType ++ (putU32 header.flags
    ++ (putU64 header.requestId ++ (putU64 header.sequence ++ (putU32 (UInt32.ofNat payload.length)
    ++ putU32 (crc32 payload)))))))

theorem frameBytes_eq (header : FrameHeader) (payload : Bytes) : frameBytes header payload = frameHead header payload ++ payload := by
  simp only [frameBytes, frameHead, List.append_assoc]

theorem length_frameHead (header : FrameHeader) (payload : Bytes) : (frameHead header payload).length = kFrameHeaderSize := by
  simp only [frameHead, List.length_append, putU16_length, putU32_length, putU64_length, kFrameHeaderSize, kFrameMagic,
    List.length_cons, List.length_nil]

theorem xorBytes_zeros (bytes : Bytes) : xorBytes bytes (List.replicate bytes.length 0) = bytes := by
  induction bytes with
  | nil => rfl
  | cons b bytes ih =>
    rw [List.length_cons, List.replicate_succ, xorBytes, List.zipWith_cons_cons, UInt8.xor_zero, ← xorBytes, ih]

/-- the header of a damaged frame is that of the frame -/
theorem damage_frameBytes (header : FrameHeader) (payload error : Bytes) :
    damage (frameBytes header payload) error = frameHead header payload ++ xorBytes payload error := by
  have hlength := length_frameHead header payload
  have hzeros : (frameHead header payload).length = (List.replicate kFrameHeaderSize (0 : UInt8)).length := by
    rw [hlength, List.length_replicate]
  have hhead : xorBytes (frameHead header payload) (List.replicate kFrameHeaderSize 0) = frameHead header payload := by
    rw [← hlength, xorBytes_zeros]
  rw [damage, frameBytes_eq, xorBytes, List.zipWith_append hzeros, ← xorBytes, ← xorBytes, hhead]

/-- a frame with another payload of the same length, which has another checksum -/
theorem decodeFrame_damaged {header : FrameHeader} {payload bytes damaged : Bytes} (h : encodeFrame header payload = .ok bytes)
    (hlength : damaged.length = payload.length) (hcrc : crc32 damaged ≠ crc32 payload) :
    decodeFrame (frameHead header payload ++ damaged) = .error FrameError.crcMismatch.message := by
  obtain ⟨hsize, hversion, hflags, -⟩ := encodeFrame_iff.mp h
  have hnat : (UInt32.ofNat payload.length).toNat = payload.length := by
    rw [UInt32.toNat_ofNat']
    simp only [kMaxPayloadSize, kMaxFrameSize, kFrameHeaderSize] at hsize
    exact Nat.mod_eq_of_lt (by omega)
  have hread : readFrame (frameHead header payload ++ damaged) = .error FrameError.crcMismatch.message := by
    unfold readFrame frameHead
    simp only [List.append_assoc]
    rw [bind_ok (takeBytes_append kFrameMagic _ 4 rfl), bind_ok (refuseIf_pass (by simp) _ _), bind_ok (readU16_put _ _),
      bind_ok (readU16_put _ _), bind_ok (readU32_put _ _), bind_ok (readU64_put _ _), bind_ok (readU64_put _ _),
      bind_ok (readU32_put _ _), bind_ok (readU32_put _ _), bind_ok (refuseIf_pass (not_not.mpr hversion) _ _),
      bind_ok (refuseIf_pass (not_not.mpr hflags) _ _), hnat, bind_ok (refuseIf_pass (not_lt.mpr hsize) _ _),
      bind_ok (remaining_eq _), hlength, bind_ok (refuseIf_pass (lt_irrefl _) _ _), bind_ok (refuseIf_pass (lt_irrefl _) _ _)]
    have htake := takeBytes_append damaged [] payload.length hlength
    rw [List.append_nil] at htake
    rw [bind_ok htake]
    exact refuseIf_fail hcrc _ _ _
  have hwide : ¬ (frameHead header payload ++ damaged).length < kFrameHeaderSize := by
    rw [List.length_append, length_frameHead]
    omega
  rw [decodeFrame, if_neg hwide, hread]
  rfl

/-- **Damage within 32 consecutive bits of the payload is detected**: whatever the frame and the pattern are, decoding ends with a
checksum mismatch. -/
theorem burst_detected {header : FrameHeader} {payload bytes error : Bytes} {start : ℕ}
    (hencode : encodeFrame header payload = .ok bytes) (hlength : error.length = payload.length)
    (hsome : true ∈ payloadBits error)
    (hburst : ∀ i, (payloadBits error)[i]? = some true → start ≤ i ∧ i < start + 32) :
    decodeFrame (damage bytes error) = .error FrameError.crcMismatch.message := by
  have hmsb : kCrcPolynomial.msb = true := by decide
  have herror := Crc.feedBits_burst hmsb hsome hburst
  have hdamaged : (xorBytes payload error).length = payload.length := by
    rw [xorBytes, List.length_zipWith, hlength, min_self]
  obtain ⟨-, -, -, hbytes⟩ := encodeFrame_iff.mp hencode
  rw [hbytes, damage_frameBytes]
  exact decodeFrame_damaged hencode hdamaged (crc32_xor_ne hlength herror)

/-- the last bit of the first byte and the first bit of the second -/
theorem burst_detected_ping :
    encodeFrame {} [0x70, 0x69, 0x6E, 0x67] = .ok (frameBytes {} [0x70, 0x69, 0x6E, 0x67]) ∧
      damage (frameBytes {} [0x70, 0x69, 0x6E, 0x67]) [0x80, 0x01, 0, 0] =
        frameHead {} [0x70, 0x69, 0x6E, 0x67] ++ [0xF0, 0x68, 0x6E, 0x67] ∧
      decodeFrame (damage (frameBytes {} [0x70, 0x69, 0x6E, 0x67]) [0x80, 0x01, 0, 0]) =
        .error FrameError.crcMismatch.message := by
  have hencode : encodeFrame {} [0x70, 0x69, 0x6E, 0x67] = .ok (frameBytes {} [0x70, 0x69, 0x6E, 0x67]) := rfl
  have hburst : ∀ i, (payloadBits [0x80, 0x01, 0, 0])[i]? = some true → 7 ≤ i ∧ i < 7 + 32 := by
    intro i hi
    obtain ⟨hlt, -⟩ := List.getElem?_eq_some_iff.mp hi
    rw [length_payloadBits] at hlt
    have hall : ∀ j < 32, (payloadBits [0x80, 0x01, 0, 0])[j]? = some true → 7 ≤ j ∧ j < 7 + 32 := by decide +kernel
    exact hall i hlt hi
  exact ⟨hencode, by decide +kernel, burst_detected hencode rfl (by decide +kernel) hburst⟩

end ViperFx.Protocol
