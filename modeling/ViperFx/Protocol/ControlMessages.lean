/-
The control messages together: the codec pairs of `SnapshotCommand.cpp`, `AppCommand.cpp`, `DriverEvent.cpp` and
`OwnerProtocol.cpp`.

A message is written by one component and read by another, and nothing ties an encoder to its decoder but what each of them
checks. Three encoders check less than their decoders: APP_HELLO_ACK may carry any version, OWN_SESSION and OWNED any session,
where every sibling refuses what the reader would refuse.

Results:
  · ControlMessage.Agreed        : the encoder refuses the value, or the decoder takes it
  · control_messages_agree       : the encoding of a value is decoded to it exactly when `Agreed`, and every decoded value
                                   can be encoded
  · hello_ack_and_sessions_drift : the three pairs that drift
-/
import ViperFx.Protocol.DriverEvent
import ViperFx.Protocol.OwnerProtocol

namespace ViperFx.Protocol

inductive MessageKind where
  | snapshotBegin
  | snapshotChunk
  | snapshotCommit
  | snapshotAbort
  | routeAnnounce
  | appHello
  | appHelloAck
  | appRouteReport
  | appRouteAck
  | appApplyResult
  | driverEvent
  | ownerHello
  | ownerHelloAck
  | ownSession
  | owned
  | ownerFailed
  | releaseSession
  | released
  | sessionDelta
  deriving DecidableEq

inductive ControlMessage where
  | snapshotBegin (v : SnapshotBegin)
  | snapshotChunk (v : SnapshotChunk)
  | snapshotCommit (v : SnapshotCommit)
  | snapshotAbort (v : SnapshotAbort)
  | routeAnnounce (v : RouteAnnounce)
  | appHello (v : AppHello)
  | appHelloAck (v : AppHelloAck)
  | appRouteReport (v : AppRouteReport)
  | appRouteAck (v : AppRouteAck)
  | appApplyResult (v : AppApplyResult)
  | driverEvent (v : DriverEventRecord)
  | ownerHello (v : OwnerHello)
  | ownerHelloAck (v : OwnerHelloAck)
  | ownSession (v : OwnSession)
  | owned (v : Owned)
  | ownerFailed (v : OwnerFailed)
  | releaseSession (v : ReleaseSession)
  | released (v : Released)
  | sessionDelta (v : SessionDelta)
  deriving DecidableEq

namespace ControlMessage

def kind : ControlMessage → MessageKind
  | .snapshotBegin _ => .snapshotBegin
  | .snapshotChunk _ => .snapshotChunk
  | .snapshotCommit _ => .snapshotCommit
  | .snapshotAbort _ => .snapshotAbort
  | .routeAnnounce _ => .routeAnnounce
  | .appHello _ => .appHello
  | .appHelloAck _ => .appHelloAck
  | .appRouteReport _ => .appRouteReport
  | .appRouteAck _ => .appRouteAck
  | .appApplyResult _ => .appApplyResult
  | .driverEvent _ => .driverEvent
  | .ownerHello _ => .ownerHello
  | .ownerHelloAck _ => .ownerHelloAck
  | .ownSession _ => .ownSession
  | .owned _ => .owned
  | .ownerFailed _ => .ownerFailed
  | .releaseSession _ => .releaseSession
  | .released _ => .released
  | .sessionDelta _ => .sessionDelta

def encode : ControlMessage → Except String Bytes
  | .snapshotBegin v => encodeSnapshotBegin v
  | .snapshotChunk v => encodeSnapshotChunk v
  | .snapshotCommit v => encodeSnapshotCommit v
  | .snapshotAbort v => .ok (encodeSnapshotAbort v)
  | .routeAnnounce v => encodeRouteAnnounce v
  | .appHello v => encodeAppHello v
  | .appHelloAck v => encodeAppHelloAck v
  | .appRouteReport v => encodeAppRouteReport v
  | .appRouteAck v => encodeAppRouteAck v
  | .appApplyResult v => .ok (encodeAppApplyResult v)
  | .driverEvent v => encodeDriverEvent v
  | .ownerHello v => encodeOwnerHello v
  | .ownerHelloAck v => encodeOwnerHelloAck v
  | .ownSession v => encodeOwnSession v
  | .owned v => encodeOwned v
  | .ownerFailed v => encodeOwnerFailed v
  | .releaseSession v => encodeReleaseSession v
  | .released v => encodeReleased v
  | .sessionDelta v => encodeSessionDelta v

/-- a value the encoder refuses, or the decoder takes -/
def Agreed : ControlMessage → Prop
  | .appHelloAck v => HashOk v.routeKeyHash → v.version = kAppProtocolVersion
  | .ownSession v => isAllowedEffectSelector v.selector = true → v.audioSessionId = 0
  | .owned v => v.effectId ≠ 0 → v.audioSessionId = 0
  | _ => True

end ControlMessage

def MessageKind.decode (bytes : Bytes) : MessageKind → Except String ControlMessage
  | .snapshotBegin => .snapshotBegin <$> decodeSnapshotBegin bytes
  | .snapshotChunk => .snapshotChunk <$> decodeSnapshotChunk bytes
  | .snapshotCommit => .snapshotCommit <$> decodeSnapshotCommit bytes
  | .snapshotAbort => .snapshotAbort <$> decodeSnapshotAbort bytes
  | .routeAnnounce => .routeAnnounce <$> decodeRouteAnnounce bytes
  | .appHello => .appHello <$> decodeAppHello bytes
  | .appHelloAck => .appHelloAck <$> decodeAppHelloAck bytes
  | .appRouteReport => .appRouteReport <$> decodeAppRouteReport bytes
  | .appRouteAck => .appRouteAck <$> decodeAppRouteAck bytes
  | .appApplyResult => .appApplyResult <$> decodeAppApplyResult bytes
  | .driverEvent => .driverEvent <$> decodeDriverEvent bytes
  | .ownerHello => .ownerHello <$> decodeOwnerHello bytes
  | .ownerHelloAck => .ownerHelloAck <$> decodeOwnerHelloAck bytes
  | .ownSession => .ownSession <$> decodeOwnSession bytes
  | .owned => .owned <$> decodeOwned bytes
  | .ownerFailed => .ownerFailed <$> decodeOwnerFailed bytes
  | .releaseSession => .releaseSession <$> decodeReleaseSession bytes
  | .released => .released <$> decodeReleased bytes
  | .sessionDelta => .sessionDelta <$> decodeSessionDelta bytes

/-! ## One pair -/

section Pair

variable {α : Type} {wrap : α → ControlMessage} {v : α} {encoded : Except String Bytes} {decode : Bytes → Except String α}

theorem map_ok_iff {decoded : Except String α} {m : ControlMessage} :
    wrap <$> decoded = .ok m ↔ ∃ a, decoded = .ok a ∧ wrap a = m := by
  cases decoded with
  | error e => exact ⟨fun h => (nomatch h), fun ⟨a, h, _⟩ => (nomatch h)⟩
  | ok a => exact ⟨fun h => ⟨a, rfl, Except.ok.inj h⟩, fun ⟨b, hb, h⟩ => by rw [hb, ← h]; rfl⟩

/-- a pair whose decoder takes all its encoder writes -/
theorem agreed_of_round_trip (h : ∀ out, encoded = .ok out → decode out = .ok v) :
    (∀ out, encoded = .ok out → wrap <$> decode out = .ok (wrap v)) ↔ True :=
  iff_true_intro fun out hout => map_ok_iff.mpr ⟨v, h out hout, rfl⟩

/-- a pair whose decoder checks one thing more than its encoder -/
theorem agreed_iff {bytes : Bytes} {accepts takes : Prop} (hinj : ∀ a b, wrap a = wrap b → a = b)
    (hencode : ∀ out, encoded = .ok out ↔ accepts ∧ out = bytes) (hdecode : accepts → (decode bytes = .ok v ↔ takes)) :
    (∀ out, encoded = .ok out → wrap <$> decode out = .ok (wrap v)) ↔ (accepts → takes) := by
  constructor
  · intro h haccepts
    obtain ⟨a, ha, hwrap⟩ := map_ok_iff.mp (h bytes ((hencode bytes).mpr ⟨haccepts, rfl⟩))
    exact (hdecode haccepts).mp (hinj a v hwrap ▸ ha)
  · intro h out hout
    obtain ⟨haccepts, rfl⟩ := (hencode out).mp hout
    exact map_ok_iff.mpr ⟨v, (hdecode haccepts).mpr (h haccepts), rfl⟩

end Pair

/-! ## All pairs -/

theorem ControlMessage.round_trip_iff (m : ControlMessage) :
    (∀ out, m.encode = .ok out → m.kind.decode out = .ok m) ↔ m.Agreed := by
  cases m with
  | snapshotBegin v => exact agreed_of_round_trip (decodeSnapshotBegin_encode v)
  | snapshotChunk v => exact agreed_of_round_trip (decodeSnapshotChunk_encode v)
  | snapshotCommit v =>
    exact agreed_of_round_trip fun _ h => decodeSnapshotCommit_iff.mpr (encodeSnapshotCommit_iff.mp h)
  | snapshotAbort v => exact agreed_of_round_trip fun _ h => decodeSnapshotAbort_iff.mpr (Except.ok.inj h).symm
  | routeAnnounce v => exact agreed_of_round_trip (decodeRouteAnnounce_encode v)
  | appHello v => exact agreed_of_round_trip fun _ h => decodeAppHello_iff.mpr (encodeAppHello_iff.mp h)
  | appHelloAck v =>
    refine agreed_iff (fun _ _ h => appHelloAck.inj h) (fun _ => encodeAppHelloAck_iff) fun hhash => ?_
    exact ⟨fun h => (decodeAppHelloAck_passes h).1, fun hversion => decodeAppHelloAck_bytes hversion hhash⟩
  | appRouteReport v =>
    exact agreed_of_round_trip fun _ h => decodeAppRouteReport_iff.mpr (encodeAppRouteReport_iff.mp h)
  | appRouteAck v =>
    refine agreed_of_round_trip fun out h => ?_
    obtain ⟨hhash, rfl⟩ := encodeAppRouteAck_iff.mp h
    exact decodeAppRouteAck_bytes hhash
  | appApplyResult v => exact agreed_of_round_trip fun _ h => Except.ok.inj h ▸ decodeAppApplyResult_encode v
  | driverEvent v => exact agreed_of_round_trip fun _ h => decodeDriverEvent_encode h
  | ownerHello v => exact agreed_of_round_trip fun _ h => decodeOwnerHello_iff.mpr (encodeOwnerHello_iff.mp h)
  | ownerHelloAck v => exact agreed_of_round_trip fun _ h => decodeOwnerHelloAck_iff.mpr (encodeOwnerHelloAck_iff.mp h)
  | ownSession v =>
    refine agreed_iff (fun _ _ h => ownSession.inj h) (fun _ => encodeOwnSession_iff) fun hselector => ?_
    rw [decodeOwnSession_iff]
    exact ⟨fun h => h.1.2, fun hsession => ⟨⟨hselector, hsession⟩, rfl⟩⟩
  | owned v =>
    refine agreed_iff (fun _ _ h => owned.inj h) (fun _ => encodeOwned_iff) fun heffect => ?_
    rw [decodeOwned_iff]
    exact ⟨fun h => h.1.1, fun hsession => ⟨⟨hsession, heffect⟩, rfl⟩⟩
  | ownerFailed v => exact agreed_of_round_trip fun _ h => decodeOwnerFailed_iff.mpr (encodeOwnerFailed_iff.mp h)
  | releaseSession v =>
    exact agreed_of_round_trip fun _ h => decodeReleaseSession_iff.mpr (encodeReleaseSession_iff.mp h)
  | released v => exact agreed_of_round_trip fun _ h => decodeReleased_iff.mpr (encodeReleased_iff.mp h)
  | sessionDelta v => exact agreed_of_round_trip fun _ h => decodeSessionDelta_iff.mpr (encodeSessionDelta_iff.mp h)

theorem MessageKind.decode_encodes {kind : MessageKind} {bytes : Bytes} {m : ControlMessage}
    (h : kind.decode bytes = .ok m) : m.kind = kind ∧ ∃ out, m.encode = .ok out := by
  cases kind with
  | snapshotBegin =>
    obtain ⟨v, hv, rfl⟩ := map_ok_iff.mp h
    exact ⟨rfl, _, encodeSnapshotBegin_iff.mpr (decodeSnapshotBegin_iff.mp hv)⟩
  | snapshotChunk =>
    obtain ⟨v, hv, rfl⟩ := map_ok_iff.mp h
    exact ⟨rfl, _, encodeSnapshotChunk_iff.mpr (decodeSnapshotChunk_iff.mp hv)⟩
  | snapshotCommit =>
    obtain ⟨v, hv, rfl⟩ := map_ok_iff.mp h
    exact ⟨rfl, _, encodeSnapshotCommit_iff.mpr (decodeSnapshotCommit_iff.mp hv)⟩
  | snapshotAbort =>
    obtain ⟨v, -, rfl⟩ := map_ok_iff.mp h
    exact ⟨rfl, _, rfl⟩
  | routeAnnounce =>
    obtain ⟨v, hv, rfl⟩ := map_ok_iff.mp h
    exact ⟨rfl, _, encodeRouteAnnounce_iff.mpr ⟨decodeRouteAnnounce_passes hv, rfl⟩⟩
  | appHello =>
    obtain ⟨v, hv, rfl⟩ := map_ok_iff.mp h
    exact ⟨rfl, _, encodeAppHello_iff.mpr (decodeAppHello_iff.mp hv)⟩
  | appHelloAck =>
    obtain ⟨v, hv, rfl⟩ := map_ok_iff.mp h
    exact ⟨rfl, _, encodeAppHelloAck_iff.mpr ⟨(decodeAppHelloAck_passes hv).2, rfl⟩⟩
  | appRouteReport =>
    obtain ⟨v, hv, rfl⟩ := map_ok_iff.mp h
    exact ⟨rfl, _, encodeAppRouteReport_iff.mpr (decodeAppRouteReport_iff.mp hv)⟩
  | appRouteAck =>
    obtain ⟨v, hv, rfl⟩ := map_ok_iff.mp h
    exact ⟨rfl, _, encodeAppRouteAck_iff.mpr ⟨decodeAppRouteAck_passes hv, rfl⟩⟩
  | appApplyResult =>
    obtain ⟨v, -, rfl⟩ := map_ok_iff.mp h
    exact ⟨rfl, _, rfl⟩
  | driverEvent =>
    obtain ⟨v, hv, rfl⟩ := map_ok_iff.mp h
    exact ⟨rfl, _, encodeDriverEvent_iff.mpr ⟨decodeDriverEvent_known hv, rfl⟩⟩
  | ownerHello =>
    obtain ⟨v, hv, rfl⟩ := map_ok_iff.mp h
    exact ⟨rfl, _, encodeOwnerHello_iff.mpr (decodeOwnerHello_iff.mp hv)⟩
  | ownerHelloAck =>
    obtain ⟨v, hv, rfl⟩ := map_ok_iff.mp h
    exact ⟨rfl, _, encodeOwnerHelloAck_iff.mpr (decodeOwnerHelloAck_iff.mp hv)⟩
  | ownSession =>
    obtain ⟨v, hv, rfl⟩ := map_ok_iff.mp h
    exact ⟨rfl, _, encodeOwnSession_iff.mpr ⟨(decodeOwnSession_iff.mp hv).1.1, rfl⟩⟩
  | owned =>
    obtain ⟨v, hv, rfl⟩ := map_ok_iff.mp h
    exact ⟨rfl, _, encodeOwned_iff.mpr ⟨(decodeOwned_iff.mp hv).1.2, rfl⟩⟩
  | ownerFailed =>
    obtain ⟨v, hv, rfl⟩ := map_ok_iff.mp h
    exact ⟨rfl, _, encodeOwnerFailed_iff.mpr (decodeOwnerFailed_iff.mp hv)⟩
  | releaseSession =>
    obtain ⟨v, hv, rfl⟩ := map_ok_iff.mp h
    exact ⟨rfl, _, encodeReleaseSession_iff.mpr (decodeReleaseSession_iff.mp hv)⟩
  | released =>
    obtain ⟨v, hv, rfl⟩ := map_ok_iff.mp h
    exact ⟨rfl, _, encodeReleased_iff.mpr (decodeReleased_iff.mp hv)⟩
  | sessionDelta =>
    obtain ⟨v, hv, rfl⟩ := map_ok_iff.mp h
    exact ⟨rfl, _, encodeSessionDelta_iff.mpr (decodeSessionDelta_iff.mp hv)⟩

/-- **When the two sides of a control message agree.** A value that is encoded is decoded to itself exactly when it is
`Agreed`, and a decoded value is always one the encoder accepts. -/
theorem control_messages_agree (m : ControlMessage) :
    ((∀ out, m.encode = .ok out → m.kind.decode out = .ok m) ↔ m.Agreed) ∧
    ∀ (kind : MessageKind) bytes, kind.decode bytes = .ok m → m.kind = kind ∧ ∃ out, m.encode = .ok out :=
  ⟨m.round_trip_iff, fun _ _ => MessageKind.decode_encodes⟩

/-- an acknowledgement of version 2, a command for session 1 and a report about session 1: encoded, and refused by the
reader -/
theorem hello_ack_and_sessions_drift :
    ¬ (∀ out, (ControlMessage.appHelloAck { version := 2 }).encode = .ok out →
      MessageKind.appHelloAck.decode out = .ok (.appHelloAck { version := 2 })) ∧
    ¬ (∀ out, (ControlMessage.ownSession { audioSessionId := 1 }).encode = .ok out →
      MessageKind.ownSession.decode out = .ok (.ownSession { audioSessionId := 1 })) ∧
    ¬ ∀ out, (ControlMessage.owned { audioSessionId := 1, effectId := 7 }).encode = .ok out →
      MessageKind.owned.decode out = .ok (.owned { audioSessionId := 1, effectId := 7 }) := by
  refine ⟨fun h => ?_, fun h => ?_, fun h => ?_⟩
  · exact absurd ((ControlMessage.round_trip_iff _).mp h (.inl rfl)) (by decide)
  · exact absurd ((ControlMessage.round_trip_iff _).mp h (by decide)) (by decide)
  · exact absurd ((ControlMessage.round_trip_iff _).mp h (by decide)) (by decide)

end ViperFx.Protocol
