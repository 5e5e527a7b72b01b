/-
The owner protocol: `protocol/OwnerProtocol.cpp`.

The daemon and the Java process that owns the effect handle exchange eight fixed-size records. Each starts with the protocol
version and a 16-bit field (a flag, a selector or nothing) and is read at fixed offsets; the checks come after the size.

Results:
  · encodeOwnerHello_iff, decodeOwnerHello_iff, … : each codec as one condition on the value
  · the decoders of OWN_SESSION and OWNED want session zero, their encoders do not ask
-/
import ViperFx.Protocol.AppCommand

namespace ViperFx.Protocol

def kOwnerProtocolVersion : UInt16 := 1
def kOwnerHelloWireSize : ℕ := 20
def kOwnerHelloAckWireSize : ℕ := 16
def kOwnSessionWireSize : ℕ := 16
def kOwnedWireSize : ℕ := 16
def kOwnerFailedWireSize : ℕ := 16
def kReleaseSessionWireSize : ℕ := 12
def kSessionDeltaWireSize : ℕ := 16

def kOwnerSizeMessage : String := "owner payload size mismatch"

structure OwnerHello where
  ownerPid : UInt64 := 0
  bootId : UInt64 := 0
  deriving DecidableEq

structure OwnerHelloAck where
  accepted : Bool := false
  daemonGeneration : UInt64 := 0
  deriving DecidableEq

/-- the selector is a scoped enumeration over 16 bits, so it can hold any 16-bit value -/
structure OwnSession where
  audioSessionId : UInt32 := 0
  selector : UInt16 := 1
  deriving DecidableEq

structure Owned where
  audioSessionId : UInt32 := 0
  effectId : UInt32 := 0
  hasControl : Bool := false
  deriving DecidableEq

structure OwnerFailed where
  audioSessionId : UInt32 := 0
  reasonCode : UInt32 := 0
  deriving DecidableEq

structure ReleaseSession where
  audioSessionId : UInt32 := 0
  deriving DecidableEq

structure Released where
  audioSessionId : UInt32 := 0
  deriving DecidableEq

structure SessionDelta where
  audioSessionId : UInt32 := 0
  clientUid : UInt32 := 0
  appeared : Bool := false
  deriving DecidableEq

/-- HIDL or AIDL -/
def isAllowedEffectSelector (value : UInt16) : Bool := value == 1 || value == 2

/-! ## OWNER_HELLO and its answer -/

def ownerHelloBytes (v : OwnerHello) : Bytes :=
  putU16 kOwnerProtocolVersion ++ (putU16 0 ++ (putU64 v.ownerPid ++ putU64 v.bootId))

def encodeOwnerHello (v : OwnerHello) : Except String Bytes :=
  if v.ownerPid = 0 ∨ v.bootId = 0 then .error "owner hello identity must be non-zero" else .ok (ownerHelloBytes v)

def readOwnerHello : Reader OwnerHello := do
  let version ← readU16
  let reserved ← readU16
  let ownerPid ← readU64
  let bootId ← readU64
  refuseIf (version ≠ kOwnerProtocolVersion ∨ reserved ≠ 0) "invalid owner hello header"
  refuseIf (ownerPid = 0 ∨ bootId = 0) "owner hello identity must be non-zero"
  pure ⟨ownerPid, bootId⟩

def decodeOwnerHello (bytes : Bytes) : Except String OwnerHello :=
  if bytes.length ≠ kOwnerHelloWireSize then .error kOwnerSizeMessage else Prod.fst <$> readOwnerHello bytes

def ownerHelloAckBytes (v : OwnerHelloAck) : Bytes :=
  putU16 kOwnerProtocolVersion ++ (putFlag v.accepted ++ (putU64 v.daemonGeneration ++ putU32 0))

def encodeOwnerHelloAck (v : OwnerHelloAck) : Except String Bytes :=
  if v.daemonGeneration = 0 then .error "daemon generation must be non-zero" else .ok (ownerHelloAckBytes v)

def readOwnerHelloAck : Reader OwnerHelloAck := do
  let version ← readU16
  let accepted ← readU16
  let daemonGeneration ← readU64
  let reserved ← readU32
  refuseIf (version ≠ kOwnerProtocolVersion ∨ 1 < accepted ∨ reserved ≠ 0) "invalid owner hello ack"
  refuseIf (daemonGeneration = 0) "daemon generation must be non-zero"
  pure ⟨accepted != 0, daemonGeneration⟩

def decodeOwnerHelloAck (bytes : Bytes) : Except String OwnerHelloAck :=
  if bytes.length ≠ kOwnerHelloAckWireSize then .error kOwnerSizeMessage else Prod.fst <$> readOwnerHelloAck bytes

/-! ## OWN_SESSION and its answers -/

def ownSessionBytes (v : OwnSession) : Bytes :=
  putU16 kOwnerProtocolVersion ++ (putU16 v.selector ++ (putU32 v.audioSessionId ++ (putU32 0 ++ putU32 0)))

def encodeOwnSession (v : OwnSession) : Except String Bytes :=
  if isAllowedEffectSelector v.selector = false then .error "unsupported effect type selector"
  else .ok (ownSessionBytes v)

def readOwnSession : Reader OwnSession := do
  let version ← readU16
  let selector ← readU16
  let audioSessionId ← readU32
  let reserved ← readU32
  let reserved' ← readU32
  refuseIf (version ≠ kOwnerProtocolVersion ∨ isAllowedEffectSelector selector = false ∨ reserved ≠ 0 ∨ reserved' ≠ 0)
    "invalid own session payload"
  refuseIf (audioSessionId ≠ 0) "only session zero ownership is supported"
  pure ⟨audioSessionId, selector⟩

def decodeOwnSession (bytes : Bytes) : Except String OwnSession :=
  if bytes.length ≠ kOwnSessionWireSize then .error kOwnerSizeMessage else Prod.fst <$> readOwnSession bytes

def ownedBytes (v : Owned) : Bytes :=
  putU16 kOwnerProtocolVersion ++ (putFlag v.hasControl ++ (putU32 v.audioSessionId ++ (putU32 v.effectId ++ putU32 0)))

def encodeOwned (v : Owned) : Except String Bytes :=
  if v.effectId = 0 then .error "effect id must be non-zero" else .ok (ownedBytes v)

def readOwned : Reader Owned := do
  let version ← readU16
  let control ← readU16
  let audioSessionId ← readU32
  let effectId ← readU32
  let reserved ← readU32
  refuseIf (version ≠ kOwnerProtocolVersion ∨ 1 < control ∨ reserved ≠ 0) "invalid owned payload"
  refuseIf (audioSessionId ≠ 0 ∨ effectId = 0) "invalid owned session or effect id"
  pure ⟨audioSessionId, effectId, control != 0⟩

def decodeOwned (bytes : Bytes) : Except String Owned :=
  if bytes.length ≠ kOwnedWireSize then .error kOwnerSizeMessage else Prod.fst <$> readOwned bytes

def ownerFailedBytes (v : OwnerFailed) : Bytes :=
  putU16 kOwnerProtocolVersion ++ (putU16 0 ++ (putU32 v.audioSessionId ++ (putU32 v.reasonCode ++ putU32 0)))

def encodeOwnerFailed (v : OwnerFailed) : Except String Bytes :=
  if v.reasonCode = 0 then .error "owner failure reason must be non-zero" else .ok (ownerFailedBytes v)

def readOwnerFailed : Reader OwnerFailed := do
  let version ← readU16
  let reserved ← readU16
  let audioSessionId ← readU32
  let reasonCode ← readU32
  let reserved' ← readU32
  refuseIf (version ≠ kOwnerProtocolVersion ∨ reserved ≠ 0 ∨ reserved' ≠ 0) "invalid owner failure payload"
  refuseIf (reasonCode = 0) "owner failure reason must be non-zero"
  pure ⟨audioSessionId, reasonCode⟩

def decodeOwnerFailed (bytes : Bytes) : Except String OwnerFailed :=
  if bytes.length ≠ kOwnerFailedWireSize then .error kOwnerSizeMessage else Prod.fst <$> readOwnerFailed bytes

/-! ## RELEASE_SESSION and RELEASED -/

def releaseSessionBytes (v : ReleaseSession) : Bytes :=
  putU16 kOwnerProtocolVersion ++ (putU16 0 ++ (putU32 v.audioSessionId ++ putU32 0))

def encodeReleaseSession (v : ReleaseSession) : Except String Bytes :=
  if v.audioSessionId ≠ 0 then .error "only session zero release is supported" else .ok (releaseSessionBytes v)

def readReleaseSession : Reader ReleaseSession := do
  let version ← readU16
  let reserved ← readU16
  let audioSessionId ← readU32
  let reserved' ← readU32
  refuseIf (version ≠ kOwnerProtocolVersion ∨ reserved ≠ 0 ∨ reserved' ≠ 0 ∨ audioSessionId ≠ 0)
    "invalid release session payload"
  pure ⟨0⟩

def decodeReleaseSession (bytes : Bytes) : Except String ReleaseSession :=
  if bytes.length ≠ kReleaseSessionWireSize then .error kOwnerSizeMessage else Prod.fst <$> readReleaseSession bytes

def encodeReleased (v : Released) : Except String Bytes := encodeReleaseSession ⟨v.audioSessionId⟩

def decodeReleased (bytes : Bytes) : Except String Released :=
  (fun r => ⟨r.audioSessionId⟩) <$> decodeReleaseSession bytes

/-! ## SESSION_DELTA -/

def sessionDeltaBytes (v : SessionDelta) : Bytes :=
  putU16 kOwnerProtocolVersion ++ (putFlag v.appeared ++ (putU32 v.audioSessionId ++ (putU32 v.clientUid ++ putU32 0)))

def encodeSessionDelta (v : SessionDelta) : Except String Bytes :=
  if v.audioSessionId = 0 then .error "session delta requires a non-zero session id" else .ok (sessionDeltaBytes v)

def readSessionDelta : Reader SessionDelta := do
  let version ← readU16
  let appeared ← readU16
  let audioSessionId ← readU32
  let clientUid ← readU32
  let reserved ← readU32
  refuseIf (version ≠ kOwnerProtocolVersion ∨ 1 < appeared ∨ reserved ≠ 0) "invalid session delta payload"
  refuseIf (audioSessionId = 0) "session delta requires a non-zero session id"
  pure ⟨audioSessionId, clientUid, appeared != 0⟩

def decodeSessionDelta (bytes : Bytes) : Except String SessionDelta :=
  if bytes.length ≠ kSessionDeltaWireSize then .error kOwnerSizeMessage else Prod.fst <$> readSessionDelta bytes

/-! ## Codecs -/

/-- a 16-bit field of at most one is a flag -/
theorem putFlag_read {value : UInt16} (h : ¬ 1 < value) : putFlag (value != 0) = putU16 value := by
  have hcases : value = 0 ∨ value = 1 := by
    rw [UInt16.not_lt, UInt16.le_iff_toNat_le] at h
    have hone : (1 : UInt16).toNat = 1 := rfl
    rcases Nat.le_one_iff_eq_zero_or_eq_one.mp (hone ▸ h) with hz | hz
    · exact .inl (UInt16.toNat_inj.mp hz)
    · exact .inr (UInt16.toNat_inj.mp hz)
  rcases hcases with rfl | rfl
  · rfl
  · rfl

theorem flag_le_one (value : Bool) : ¬ 1 < (if value then 1 else 0 : UInt16) := by
  cases value <;> decide

theorem encodeOwnerHello_iff {v : OwnerHello} {out : Bytes} :
    encodeOwnerHello v = .ok out ↔ (v.ownerPid ≠ 0 ∧ v.bootId ≠ 0) ∧ out = ownerHelloBytes v := by
  simp only [encodeOwnerHello, guard_iff, not_or, Except.ok.injEq]
  exact and_congr_right fun _ => eq_comm

theorem decodeOwnerHello_iff {v : OwnerHello} {bytes : Bytes} :
    decodeOwnerHello bytes = .ok v ↔ (v.ownerPid ≠ 0 ∧ v.bootId ≠ 0) ∧ bytes = ownerHelloBytes v := by
  simp only [decodeOwnerHello, guard_iff, fst_iff, readOwnerHello, bind_iff, readU16_iff, readU64_iff, refuseIf_iff, pure_iff,
    ne_eq, not_or, not_not]
  constructor
  · rintro ⟨hwire, rest, _, s, rfl, _, s, rfl, pid, s, rfl, boot, s, rfl, -, s, ⟨⟨rfl, rfl⟩, rfl⟩, -, s, ⟨hidentity, rfl⟩, rfl,
      rfl⟩
    simp only [List.length_append, putU16_length, putU64_length, kOwnerHelloWireSize] at hwire
    obtain rfl : s = [] := List.length_eq_zero_iff.mp (by omega)
    exact ⟨hidentity, by rw [ownerHelloBytes, List.append_nil]⟩
  · rintro ⟨hidentity, rfl⟩
    exact ⟨rfl, [], _, _, rfl, _, _, rfl, _, _, rfl, _, _, (List.append_nil _).symm, (), _, ⟨⟨rfl, rfl⟩, rfl⟩, (), _,
      ⟨hidentity, rfl⟩, rfl, rfl⟩

theorem encodeOwnerHelloAck_iff {v : OwnerHelloAck} {out : Bytes} :
    encodeOwnerHelloAck v = .ok out ↔ v.daemonGeneration ≠ 0 ∧ out = ownerHelloAckBytes v := by
  simp only [encodeOwnerHelloAck, guard_iff, ne_eq, Except.ok.injEq]
  exact and_congr_right fun _ => eq_comm

theorem decodeOwnerHelloAck_iff {v : OwnerHelloAck} {bytes : Bytes} :
    decodeOwnerHelloAck bytes = .ok v ↔ v.daemonGeneration ≠ 0 ∧ bytes = ownerHelloAckBytes v := by
  simp only [decodeOwnerHelloAck, guard_iff, fst_iff, readOwnerHelloAck, bind_iff, readU16_iff, readU32_iff, readU64_iff,
    refuseIf_iff, pure_iff, ne_eq, not_or, not_not]
  constructor
  · rintro ⟨hwire, rest, _, s, rfl, accepted, s, rfl, daemon, s, rfl, _, s, rfl, -, s, ⟨⟨rfl, hflag, rfl⟩, rfl⟩, -, s,
      ⟨hdaemon, rfl⟩, rfl, rfl⟩
    simp only [List.length_append, putU16_length, putU32_length, putU64_length, kOwnerHelloAckWireSize] at hwire
    obtain rfl : s = [] := List.length_eq_zero_iff.mp (by omega)
    exact ⟨hdaemon, by rw [ownerHelloAckBytes, putFlag_read hflag, List.append_nil]⟩
  · rintro ⟨hdaemon, rfl⟩
    refine ⟨rfl, [], _, _, rfl, _, _, rfl, _, _, rfl, _, _, (List.append_nil _).symm, (), _,
      ⟨⟨rfl, flag_le_one v.accepted, rfl⟩, rfl⟩, (), _, ⟨hdaemon, rfl⟩, ?_, rfl⟩
    rw [flag_ne_zero]

theorem encodeOwnSession_iff {v : OwnSession} {out : Bytes} :
    encodeOwnSession v = .ok out ↔ isAllowedEffectSelector v.selector = true ∧ out = ownSessionBytes v := by
  simp only [encodeOwnSession, guard_iff, Bool.not_eq_false, Except.ok.injEq]
  exact and_congr_right fun _ => eq_comm

theorem decodeOwnSession_iff {v : OwnSession} {bytes : Bytes} :
    decodeOwnSession bytes = .ok v ↔
      (isAllowedEffectSelector v.selector = true ∧ v.audioSessionId = 0) ∧ bytes = ownSessionBytes v := by
  simp only [decodeOwnSession, guard_iff, fst_iff, readOwnSession, bind_iff, readU16_iff, readU32_iff, refuseIf_iff, pure_iff,
    ne_eq, not_or, not_not, Bool.not_eq_false]
  constructor
  · rintro ⟨hwire, rest, _, s, rfl, selector, s, rfl, session, s, rfl, _, s, rfl, _, s, rfl, -, s,
      ⟨⟨rfl, hselector, rfl, rfl⟩, rfl⟩, -, s, ⟨rfl, rfl⟩, rfl, rfl⟩
    simp only [List.length_append, putU16_length, putU32_length, kOwnSessionWireSize] at hwire
    obtain rfl : s = [] := List.length_eq_zero_iff.mp (by omega)
    exact ⟨⟨hselector, rfl⟩, by rw [ownSessionBytes, List.append_nil]⟩
  · rintro ⟨⟨hselector, hsession⟩, rfl⟩
    exact ⟨rfl, [], _, _, rfl, _, _, rfl, _, _, rfl, _, _, rfl, _, _, (List.append_nil _).symm, (), _,
      ⟨⟨rfl, hselector, rfl, rfl⟩, rfl⟩, (), _, ⟨hsession, rfl⟩, rfl, rfl⟩

theorem encodeOwned_iff {v : Owned} {out : Bytes} :
    encodeOwned v = .ok out ↔ v.effectId ≠ 0 ∧ out = ownedBytes v := by
  simp only [encodeOwned, guard_iff, ne_eq, Except.ok.injEq]
  exact and_congr_right fun _ => eq_comm

theorem decodeOwned_iff {v : Owned} {bytes : Bytes} :
    decodeOwned bytes = .ok v ↔ (v.audioSessionId = 0 ∧ v.effectId ≠ 0) ∧ bytes = ownedBytes v := by
  simp only [decodeOwned, guard_iff, fst_iff, readOwned, bind_iff, readU16_iff, readU32_iff, refuseIf_iff, pure_iff, ne_eq,
    not_or, not_not]
  constructor
  · rintro ⟨hwire, rest, _, s, rfl, control, s, rfl, session, s, rfl, effect, s, rfl, _, s, rfl, -, s,
      ⟨⟨rfl, hflag, rfl⟩, rfl⟩, -, s, ⟨⟨rfl, heffect⟩, rfl⟩, rfl, rfl⟩
    simp only [List.length_append, putU16_length, putU32_length, kOwnedWireSize] at hwire
    obtain rfl : s = [] := List.length_eq_zero_iff.mp (by omega)
    exact ⟨⟨rfl, heffect⟩, by rw [ownedBytes, putFlag_read hflag, List.append_nil]⟩
  · rintro ⟨⟨hsession, heffect⟩, rfl⟩
    refine ⟨rfl, [], _, _, rfl, _, _, rfl, _, _, rfl, _, _, rfl, _, _, (List.append_nil _).symm, (), _,
      ⟨⟨rfl, flag_le_one v.hasControl, rfl⟩, rfl⟩, (), _, ⟨⟨hsession, heffect⟩, rfl⟩, ?_, rfl⟩
    rw [flag_ne_zero]

theorem encodeOwnerFailed_iff {v : OwnerFailed} {out : Bytes} :
    encodeOwnerFailed v = .ok out ↔ v.reasonCode ≠ 0 ∧ out = ownerFailedBytes v := by
  simp only [encodeOwnerFailed, guard_iff, ne_eq, Except.ok.injEq]
  exact and_congr_right fun _ => eq_comm

theorem decodeOwnerFailed_iff {v : OwnerFailed} {bytes : Bytes} :
    decodeOwnerFailed bytes = .ok v ↔ v.reasonCode ≠ 0 ∧ bytes = ownerFailedBytes v := by
  simp only [decodeOwnerFailed, guard_iff, fst_iff, readOwnerFailed, bind_iff, readU16_iff, readU32_iff, refuseIf_iff,
    pure_iff, ne_eq, not_or, not_not]
  constructor
  · rintro ⟨hwire, rest, _, s, rfl, _, s, rfl, session, s, rfl, reason, s, rfl, _, s, rfl, -, s, ⟨⟨rfl, rfl, rfl⟩, rfl⟩, -, s,
      ⟨hreason, rfl⟩, rfl, rfl⟩
    simp only [List.length_append, putU16_length, putU32_length, kOwnerFailedWireSize] at hwire
    obtain rfl : s = [] := List.length_eq_zero_iff.mp (by omega)
    exact ⟨hreason, by rw [ownerFailedBytes, List.append_nil]⟩
  · rintro ⟨hreason, rfl⟩
    exact ⟨rfl, [], _, _, rfl, _, _, rfl, _, _, rfl, _, _, rfl, _, _, (List.append_nil _).symm, (), _,
      ⟨⟨rfl, rfl, rfl⟩, rfl⟩, (), _, ⟨hreason, rfl⟩, rfl, rfl⟩

theorem encodeReleaseSession_iff {v : ReleaseSession} {out : Bytes} :
    encodeReleaseSession v = .ok out ↔ v.audioSessionId = 0 ∧ out = releaseSessionBytes v := by
  simp only [encodeReleaseSession, guard_iff, ne_eq, not_not, Except.ok.injEq]
  exact and_congr_right fun _ => eq_comm

theorem decodeReleaseSession_iff {v : ReleaseSession} {bytes : Bytes} :
    decodeReleaseSession bytes = .ok v ↔ v.audioSessionId = 0 ∧ bytes = releaseSessionBytes v := by
  simp only [decodeReleaseSession, guard_iff, fst_iff, readReleaseSession, bind_iff, readU16_iff, readU32_iff, refuseIf_iff,
    pure_iff, ne_eq, not_or, not_not]
  constructor
  · rintro ⟨hwire, rest, _, s, rfl, _, s, rfl, _, s, rfl, _, s, rfl, -, s, ⟨⟨rfl, rfl, rfl, rfl⟩, rfl⟩, rfl, rfl⟩
    simp only [List.length_append, putU16_length, putU32_length, kReleaseSessionWireSize] at hwire
    obtain rfl : s = [] := List.length_eq_zero_iff.mp (by omega)
    exact ⟨rfl, by rw [releaseSessionBytes, List.append_nil]⟩
  · rintro ⟨hsession, rfl⟩
    obtain ⟨session⟩ := v
    obtain rfl : session = 0 := hsession
    exact ⟨rfl, [], _, _, rfl, _, _, rfl, _, _, rfl, _, _, (List.append_nil _).symm, (), _, ⟨⟨rfl, rfl, rfl, rfl⟩, rfl⟩, rfl,
      rfl⟩

theorem encodeReleased_iff {v : Released} {out : Bytes} :
    encodeReleased v = .ok out ↔ v.audioSessionId = 0 ∧ out = releaseSessionBytes ⟨v.audioSessionId⟩ :=
  encodeReleaseSession_iff

theorem decodeReleased_iff {v : Released} {bytes : Bytes} :
    decodeReleased bytes = .ok v ↔ v.audioSessionId = 0 ∧ bytes = releaseSessionBytes ⟨v.audioSessionId⟩ := by
  rw [← decodeReleaseSession_iff (v := ⟨v.audioSessionId⟩), decodeReleased]
  cases hdecode : decodeReleaseSession bytes with
  | error e => exact ⟨fun h => (nomatch h), fun h => (nomatch h)⟩
  | ok r =>
    obtain ⟨session⟩ := r
    obtain ⟨session'⟩ := v
    show Except.ok (Released.mk session) = .ok ⟨session'⟩ ↔ Except.ok (ReleaseSession.mk session) = .ok ⟨session'⟩
    simp only [Except.ok.injEq, Released.mk.injEq, ReleaseSession.mk.injEq]

theorem encodeSessionDelta_iff {v : SessionDelta} {out : Bytes} :
    encodeSessionDelta v = .ok out ↔ v.audioSessionId ≠ 0 ∧ out = sessionDeltaBytes v := by
  simp only [encodeSessionDelta, guard_iff, ne_eq, Except.ok.injEq]
  exact and_congr_right fun _ => eq_comm

theorem decodeSessionDelta_iff {v : SessionDelta} {bytes : Bytes} :
    decodeSessionDelta bytes = .ok v ↔ v.audioSessionId ≠ 0 ∧ bytes = sessionDeltaBytes v := by
  simp only [decodeSessionDelta, guard_iff, fst_iff, readSessionDelta, bind_iff, readU16_iff, readU32_iff, refuseIf_iff,
    pure_iff, ne_eq, not_or, not_not]
  constructor
  · rintro ⟨hwire, rest, _, s, rfl, appeared, s, rfl, session, s, rfl, uid, s, rfl, _, s, rfl, -, s,
      ⟨⟨rfl, hflag, rfl⟩, rfl⟩, -, s, ⟨hsession, rfl⟩, rfl, rfl⟩
    simp only [List.length_append, putU16_length, putU32_length, kSessionDeltaWireSize] at hwire
    obtain rfl : s = [] := List.length_eq_zero_iff.mp (by omega)
    exact ⟨hsession, by rw [sessionDeltaBytes, putFlag_read hflag, List.append_nil]⟩
  · rintro ⟨hsession, rfl⟩
    refine ⟨rfl, [], _, _, rfl, _, _, rfl, _, _, rfl, _, _, rfl, _, _, (List.append_nil _).symm, (), _,
      ⟨⟨rfl, flag_le_one v.appeared, rfl⟩, rfl⟩, (), _, ⟨hsession, rfl⟩, ?_, rfl⟩
    rw [flag_ne_zero]

end ViperFx.Protocol
