/-
The App-to-daemon protocol: `protocol/AppCommand.cpp`.

The App says hello, reports the output route, and is told what the daemon made of its snapshots. A hash field is 64 bytes
wide and all zero when there is no hash, so what is read is cut at its first zero byte.

Results:
  · readHash_put                : a hash field is read back, the absent one included
  · decodeAppHello_iff, …       : each codec as one condition on the value; where the decoder looks at fewer bytes than
                                  the encoder writes there is a lemma for each direction
-/
import Mathlib.Data.List.TakeWhile
import ViperFx.Protocol.SnapshotCommand

namespace ViperFx.Protocol

def kAppProtocolVersion : UInt16 := 1
def kAppHelloWireSize : ℕ := 24
def kAppHelloAckWireSize : ℕ := 96
def kAppRouteReportHeaderSize : ℕ := 32
def kAppRouteAckWireSize : ℕ := 96
def kAppApplyResultWireSize : ℕ := 48
def kMaxAppRouteFieldBytes : ℕ := 256
def kAppDeviceHashSize : ℕ := 64

/-- above the snapshot commands, so that the type of a frame tells one from the other -/
inductive AppMessageType where
  | appHello
  | appHelloAck
  | appRouteReport
  | appRouteAck
  | appApplyResult
  deriving DecidableEq

namespace AppMessageType

def code : AppMessageType → UInt16
  | appHello => 200
  | appHelloAck => 201
  | appRouteReport => 202
  | appRouteAck => 203
  | appApplyResult => 204

/-- `static_cast<AppMessageType>`, where there is such a type -/
def ofCode? (value : UInt16) : Option AppMessageType :=
  if value = 200 then some appHello
  else if value = 201 then some appHelloAck
  else if value = 202 then some appRouteReport
  else if value = 203 then some appRouteAck
  else if value = 204 then some appApplyResult
  else none

end AppMessageType

def isAppMessageType (value : UInt16) : Bool :=
  AppMessageType.appHello.code ≤ value && value ≤ AppMessageType.appApplyResult.code

structure AppHello where
  version : UInt16 := kAppProtocolVersion
  appGeneration : UInt64 := 0
  deriving DecidableEq

structure AppHelloAck where
  version : UInt16 := kAppProtocolVersion
  flags : UInt16 := 0
  daemonGeneration : UInt64 := 0
  routeEpoch : UInt64 := 0
  routeKeyHash : Bytes := []
  deriving DecidableEq

structure AppRouteReport where
  version : UInt16 := kAppProtocolVersion
  routeType : Bytes
  stableAddressOrPort : Bytes
  productName : Bytes
  encoding : Bytes
  sampleRate : UInt32 := 0
  channelMask : UInt32 := 0
  outputFlags : UInt32 := 0
  deriving DecidableEq

structure AppRouteAck where
  accepted : Bool := false
  daemonGeneration : UInt64 := 0
  routeEpoch : UInt64 := 0
  routeKeyHash : Bytes := []
  deriving DecidableEq

structure AppApplyResult where
  accepted : Bool := false
  errorCode : UInt32 := 0
  appGeneration : UInt64 := 0
  daemonGeneration : UInt64 := 0
  resourceGeneration : UInt64 := 0
  graphGeneration : UInt64 := 0
  deriving DecidableEq

/-! ## Shared fields -/

def isLowerHexHash (value : Bytes) : Bool := isLowerHex value

def putHash (hash : Bytes) : Bytes :=
  hash.take kAppDeviceHashSize ++ List.replicate (kAppDeviceHashSize - hash.length) 0

def kHashMessage : String := "route_key_hash must be 64 lowercase hex characters"

/-- the field is cut at its first NUL before it is looked at -/
def readHash : Reader Bytes := do
  let field ← takeBytes kAppDeviceHashSize
  let decoded := field.takeWhile (· ≠ 0)
  refuseIf (decoded ≠ [] ∧ isLowerHexHash decoded = false) kHashMessage
  pure decoded

def validateRouteField (value : Bytes) : Except String Unit :=
  if value = [] then .error "route field must not be empty"
  else if kMaxAppRouteFieldBytes < value.length then .error "route field is too large"
  else if value.contains 124 then .error "route field contains the key delimiter"
  else if value.any fun byte => byte < 0x20 || byte == 0x7F then .error "route field contains a control character"
  else .ok ()

/-! ## APP_HELLO -/

def appHelloBytes (hello : AppHello) : Bytes :=
  putU16 hello.version ++ (putU16 0 ++ (putU64 hello.appGeneration ++ (putU64 0 ++ putU32 0)))

def encodeAppHello (hello : AppHello) : Except String Bytes :=
  if hello.version ≠ kAppProtocolVersion then .error "unsupported app protocol version"
  else .ok (appHelloBytes hello)

def readAppHello : Reader AppHello := do
  let version ← readU16
  refuseIf (version ≠ kAppProtocolVersion) "unsupported app protocol version"
  let reserved ← readU16
  refuseIf (reserved ≠ 0) "reserved field must be zero"
  let appGeneration ← readU64
  let reserved ← readU64
  refuseIf (reserved ≠ 0) "reserved field must be zero"
  let reserved ← readU32
  refuseIf (reserved ≠ 0) "reserved field must be zero"
  pure ⟨version, appGeneration⟩

def decodeAppHello (bytes : Bytes) : Except String AppHello :=
  if bytes.length ≠ kAppHelloWireSize then .error "app hello size mismatch"
  else Prod.fst <$> readAppHello bytes

/-! ## APP_HELLO_ACK -/

def appHelloAckBytes (ack : AppHelloAck) : Bytes :=
  putU16 ack.version ++ (putU16 ack.flags ++ (putU64 ack.daemonGeneration ++ (putU64 ack.routeEpoch ++ (putU64 0
    ++ (putU32 0 ++ putHash ack.routeKeyHash)))))

/-- the version is written as it is, unlike everywhere else -/
def encodeAppHelloAck (ack : AppHelloAck) : Except String Bytes :=
  if ack.routeKeyHash ≠ [] ∧ isLowerHexHash ack.routeKeyHash = false then .error kHashMessage
  else .ok (appHelloAckBytes ack)

def readAppHelloAck : Reader AppHelloAck := do
  let version ← readU16
  refuseIf (version ≠ kAppProtocolVersion) "unsupported app protocol version"
  let flags ← readU16
  let daemonGeneration ← readU64
  let routeEpoch ← readU64
  let reserved ← readU64
  refuseIf (reserved ≠ 0) "reserved field must be zero"
  let reserved ← readU32
  refuseIf (reserved ≠ 0) "reserved field must be zero"
  let routeKeyHash ← readHash
  pure ⟨version, flags, daemonGeneration, routeEpoch, routeKeyHash⟩

def decodeAppHelloAck (bytes : Bytes) : Except String AppHelloAck :=
  if bytes.length ≠ kAppHelloAckWireSize then .error "app hello ack size mismatch"
  else Prod.fst <$> readAppHelloAck bytes

/-! ## APP_ROUTE_REPORT -/

def appRouteReportBytes (report : AppRouteReport) : Bytes :=
  putU16 report.version ++ (putU16 0 ++ (putU32 report.sampleRate ++ (putU32 report.channelMask
    ++ (putU32 report.outputFlags ++ (putSize report.routeType ++ (putSize report.stableAddressOrPort
    ++ (putSize report.productName ++ (putSize report.encoding ++ (report.routeType ++ (report.stableAddressOrPort
    ++ (report.productName ++ report.encoding)))))))))))

/-- the fields in the order both sides check them -/
def validateRouteFields (routeType stableAddressOrPort productName encoding : Bytes) : Except String Unit := do
  validateRouteField routeType
  validateRouteField stableAddressOrPort
  validateRouteField productName
  validateRouteField encoding

def encodeAppRouteReport (report : AppRouteReport) : Except String Bytes :=
  if report.version ≠ kAppProtocolVersion then .error "unsupported app protocol version"
  else
    match validateRouteFields report.routeType report.stableAddressOrPort report.productName report.encoding with
    | .error e => .error e
    | .ok () =>
      if report.sampleRate = 0 ∨ report.channelMask = 0 then .error "route format fields must be non-zero"
      else .ok (appRouteReportBytes report)

def readAppRouteReport : Reader AppRouteReport := do
  let version ← readU16
  refuseIf (version ≠ kAppProtocolVersion) "unsupported app protocol version"
  let reserved ← readU16
  refuseIf (reserved ≠ 0) "reserved field must be zero"
  let sampleRate ← readU32
  let channelMask ← readU32
  let outputFlags ← readU32
  let routeTypeSize ← readU32
  let addressSize ← readU32
  let productSize ← readU32
  let encodingSize ← readU32
  refuseIf (kMaxAppRouteFieldBytes < routeTypeSize.toNat ∨ kMaxAppRouteFieldBytes < addressSize.toNat
    ∨ kMaxAppRouteFieldBytes < productSize.toNat ∨ kMaxAppRouteFieldBytes < encodingSize.toNat) "route field is too large"
  refuseIf ((← remaining) ≠ routeTypeSize.toNat + addressSize.toNat + productSize.toNat + encodingSize.toNat)
    "app route report length mismatch"
  let routeType ← takeBytes routeTypeSize.toNat
  let stableAddressOrPort ← takeBytes addressSize.toNat
  let productName ← takeBytes productSize.toNat
  let encoding ← takeBytes encodingSize.toNat
  check (validateRouteFields routeType stableAddressOrPort productName encoding)
  refuseIf (sampleRate = 0 ∨ channelMask = 0) "route format fields must be non-zero"
  pure ⟨version, routeType, stableAddressOrPort, productName, encoding, sampleRate, channelMask, outputFlags⟩

def decodeAppRouteReport (bytes : Bytes) : Except String AppRouteReport :=
  if bytes.length < kAppRouteReportHeaderSize then .error "app route report is truncated"
  else Prod.fst <$> readAppRouteReport bytes

/-! ## APP_ROUTE_ACK -/

def appRouteAckBytes (ack : AppRouteAck) : Bytes :=
  putFlag ack.accepted ++ (putU16 0 ++ (putU64 ack.daemonGeneration ++ (putU64 ack.routeEpoch ++ (putU64 0
    ++ (putU32 0 ++ putHash ack.routeKeyHash)))))

def encodeAppRouteAck (ack : AppRouteAck) : Except String Bytes :=
  if ack.routeKeyHash ≠ [] ∧ isLowerHexHash ack.routeKeyHash = false then .error kHashMessage
  else .ok (appRouteAckBytes ack)

def readAppRouteAck : Reader AppRouteAck := do
  let accepted ← readU16
  let reserved ← readU16
  refuseIf (reserved ≠ 0) "reserved field must be zero"
  let daemonGeneration ← readU64
  let routeEpoch ← readU64
  let reserved ← readU64
  refuseIf (reserved ≠ 0) "reserved field must be zero"
  let reserved ← readU32
  refuseIf (reserved ≠ 0) "reserved field must be zero"
  let routeKeyHash ← readHash
  pure ⟨accepted != 0, daemonGeneration, routeEpoch, routeKeyHash⟩

def decodeAppRouteAck (bytes : Bytes) : Except String AppRouteAck :=
  if bytes.length ≠ kAppRouteAckWireSize then .error "app route ack size mismatch"
  else Prod.fst <$> readAppRouteAck bytes

/-! ## APP_APPLY_RESULT -/

def appApplyResultBytes (result : AppApplyResult) : Bytes :=
  putFlag result.accepted ++ (putU16 0 ++ (putU32 result.errorCode ++ (putU64 result.appGeneration
    ++ (putU64 result.daemonGeneration ++ (putU64 result.resourceGeneration ++ (putU64 result.graphGeneration
    ++ putU64 0))))))

def encodeAppApplyResult (result : AppApplyResult) : Bytes := appApplyResultBytes result

def readAppApplyResult : Reader AppApplyResult := do
  let accepted ← readU16
  let reserved ← readU16
  refuseIf (reserved ≠ 0) "reserved field must be zero"
  let errorCode ← readU32
  let appGeneration ← readU64
  let daemonGeneration ← readU64
  let resourceGeneration ← readU64
  let graphGeneration ← readU64
  let reserved ← readU64
  refuseIf (reserved ≠ 0) "reserved field must be zero"
  pure ⟨accepted != 0, errorCode, appGeneration, daemonGeneration, resourceGeneration, graphGeneration⟩

def decodeAppApplyResult (bytes : Bytes) : Except String AppApplyResult :=
  if bytes.length ≠ kAppApplyResultWireSize then .error "app apply result size mismatch"
  else Prod.fst <$> readAppApplyResult bytes

/-! ## Fields read back -/

/-- a hash a message may carry: none, or a digest -/
def HashOk (hash : Bytes) : Prop := hash = [] ∨ isLowerHexHash hash = true

theorem hashOk_iff {hash : Bytes} : ¬ (hash ≠ [] ∧ isLowerHexHash hash = false) ↔ HashOk hash := by
  unfold HashOk
  rw [not_and_or, not_not, Bool.not_eq_false]

theorem HashOk.put_length {hash : Bytes} (h : HashOk hash) : (putHash hash).length = kAppDeviceHashSize := by
  rcases h with rfl | h
  · rfl
  · have hlength : hash.length = kAppDeviceHashSize := isLowerHex_length h
    simp [putHash, hlength]

/-- no digit is the zero byte -/
theorem isLowerHex_nonzero {hash : Bytes} (h : isLowerHex hash = true) : ∀ b ∈ hash, b ≠ 0 := by
  simp only [isLowerHex, Bool.and_eq_true, List.all_eq_true] at h
  intro b hb hzero
  have hdigit := h.2 b hb
  rw [hzero] at hdigit
  exact absurd hdigit (by decide)

theorem readHash_put {hash : Bytes} (h : HashOk hash) : readHash (putHash hash) = .ok (hash, []) := by
  have hcut : (putHash hash).takeWhile (· ≠ 0) = hash := by
    rcases h with rfl | h
    · rfl
    · have hlength : hash.length = kAppDeviceHashSize := isLowerHex_length h
      have hput : putHash hash = hash := by
        rw [putHash, hlength, Nat.sub_self, List.replicate_zero, List.append_nil, List.take_of_length_le hlength.le]
      rw [hput, List.takeWhile_eq_self_iff]
      simpa using isLowerHex_nonzero h
  simp only [readHash, bind_iff, takeBytes_iff, refuseIf_iff, pure_iff]
  exact ⟨putHash hash, [], ⟨(List.append_nil _).symm, h.put_length⟩, (), [], ⟨by rw [hcut]; exact hashOk_iff.mpr h, rfl⟩,
    hcut, rfl⟩

theorem readHash_ok {s s' hash : Bytes} (h : readHash s = .ok (hash, s')) : HashOk hash := by
  simp only [readHash, bind_iff, refuseIf_iff, pure_iff] at h
  obtain ⟨field, t, -, -, u, ⟨hhash, -⟩, rfl, -⟩ := h
  exact hashOk_iff.mp hhash

/-! ## Codecs -/

theorem encodeAppHello_iff {hello : AppHello} {out : Bytes} :
    encodeAppHello hello = .ok out ↔ hello.version = kAppProtocolVersion ∧ out = appHelloBytes hello := by
  simp only [encodeAppHello, guard_iff, ne_eq, not_not, Except.ok.injEq]
  exact and_congr_right fun _ => eq_comm

theorem decodeAppHello_iff {hello : AppHello} {bytes : Bytes} :
    decodeAppHello bytes = .ok hello ↔ hello.version = kAppProtocolVersion ∧ bytes = appHelloBytes hello := by
  simp only [decodeAppHello, guard_iff, fst_iff, readAppHello, bind_iff, readU16_iff, readU32_iff, readU64_iff, refuseIf_iff,
    pure_iff, ne_eq, not_not]
  constructor
  · rintro ⟨hwire, rest, version, s, rfl, -, s, ⟨hversion, rfl⟩, _, s, rfl, -, s, ⟨rfl, rfl⟩, app, s, rfl, _, s, rfl, -, s,
      ⟨rfl, rfl⟩, _, s, rfl, -, s, ⟨rfl, rfl⟩, rfl, rfl⟩
    simp only [List.length_append, putU16_length, putU32_length, putU64_length, kAppHelloWireSize] at hwire
    obtain rfl : s = [] := List.length_eq_zero_iff.mp (by omega)
    exact ⟨hversion, by rw [appHelloBytes, List.append_nil]⟩
  · rintro ⟨hversion, rfl⟩
    exact ⟨rfl, [], _, _, rfl, (), _, ⟨hversion, rfl⟩, _, _, rfl, (), _, ⟨rfl, rfl⟩, _, _, rfl, _, _, rfl, (), _, ⟨rfl, rfl⟩,
      _, _, (List.append_nil _).symm, (), _, ⟨rfl, rfl⟩, rfl, rfl⟩

theorem encodeAppHelloAck_iff {ack : AppHelloAck} {out : Bytes} :
    encodeAppHelloAck ack = .ok out ↔ HashOk ack.routeKeyHash ∧ out = appHelloAckBytes ack := by
  simp only [encodeAppHelloAck, guard_iff, hashOk_iff, Except.ok.injEq]
  exact and_congr_right fun _ => eq_comm

theorem decodeAppHelloAck_bytes {ack : AppHelloAck} (hversion : ack.version = kAppProtocolVersion)
    (hhash : HashOk ack.routeKeyHash) : decodeAppHelloAck (appHelloAckBytes ack) = .ok ack := by
  have hwire : (appHelloAckBytes ack).length = kAppHelloAckWireSize := by
    simp [appHelloAckBytes, hhash.put_length, kAppDeviceHashSize, kAppHelloAckWireSize]
  simp only [decodeAppHelloAck, guard_iff, fst_iff, readAppHelloAck, bind_iff, readU16_iff, readU32_iff, readU64_iff,
    refuseIf_iff, pure_iff, ne_eq, not_not]
  exact ⟨hwire, [], _, _, rfl, (), _, ⟨hversion, rfl⟩, _, _, rfl, _, _, rfl, _, _, rfl, _, _, rfl, (), _, ⟨rfl, rfl⟩, _, _, rfl,
    (), _, ⟨rfl, rfl⟩, _, _, readHash_put hhash, rfl, rfl⟩

theorem decodeAppHelloAck_passes {ack : AppHelloAck} {bytes : Bytes} (h : decodeAppHelloAck bytes = .ok ack) :
    ack.version = kAppProtocolVersion ∧ HashOk ack.routeKeyHash := by
  simp only [decodeAppHelloAck, guard_iff, fst_iff, readAppHelloAck, bind_iff, refuseIf_iff, pure_iff, ne_eq, not_not] at h
  obtain ⟨-, rest, version, s, -, -, s, ⟨hversion, -⟩, flags, s, -, daemon, s, -, epoch, s, -, _, s, -, -, s, -, _, s, -, -, s,
    -, hash, s, hhash, rfl, -⟩ := h
  exact ⟨hversion, readHash_ok hhash⟩

/-- what both sides of APP_ROUTE_REPORT check -/
structure AppRouteReport.Passes (report : AppRouteReport) : Prop where
  version : report.version = kAppProtocolVersion
  fields : validateRouteFields report.routeType report.stableAddressOrPort report.productName report.encoding = .ok ()
  format : ¬ (report.sampleRate = 0 ∨ report.channelMask = 0)

theorem encodeAppRouteReport_iff {report : AppRouteReport} {out : Bytes} :
    encodeAppRouteReport report = .ok out ↔ report.Passes ∧ out = appRouteReportBytes report := by
  rw [encodeAppRouteReport, guard_iff, ne_eq, not_not]
  constructor
  · rintro ⟨hversion, h⟩
    cases hfields : validateRouteFields report.routeType report.stableAddressOrPort report.productName report.encoding with
    | error e => rw [hfields] at h; cases h
    | ok u =>
      rw [hfields] at h
      obtain ⟨hformat, hout⟩ := guard_iff.mp h
      exact ⟨⟨hversion, hfields, hformat⟩, (Except.ok.inj hout).symm⟩
  · rintro ⟨h, rfl⟩
    rw [h.fields]
    exact ⟨h.version, guard_iff.mpr ⟨h.format, rfl⟩⟩

theorem validateRouteField_length {value : Bytes} (h : validateRouteField value = .ok ()) :
    value.length ≤ kMaxAppRouteFieldBytes := by
  simp only [validateRouteField, guard_iff, not_lt] at h
  exact h.2.1

theorem except_bind_iff {α β : Type} {e : Except String α} {f : α → Except String β} {b : β} :
    (e >>= f) = .ok b ↔ ∃ a, e = .ok a ∧ f a = .ok b := by
  cases e with
  | error m => exact ⟨fun h => (nomatch h), fun ⟨a, h, _⟩ => (nomatch h)⟩
  | ok a => exact ⟨fun h => ⟨a, rfl, h⟩, fun ⟨a', ha, h⟩ => Except.ok.inj ha ▸ h⟩

theorem decodeAppRouteReport_iff {report : AppRouteReport} {bytes : Bytes} :
    decodeAppRouteReport bytes = .ok report ↔ report.Passes ∧ bytes = appRouteReportBytes report := by
  simp only [decodeAppRouteReport, guard_iff, fst_iff, readAppRouteReport, bind_iff, readU16_iff, readU32_iff, refuseIf_iff,
    remaining_iff, takeBytes_iff, check_iff, pure_iff, ne_eq, not_not]
  constructor
  · rintro ⟨-, rest, version, s, rfl, -, s, ⟨hversion, rfl⟩, _, s, rfl, -, s, ⟨rfl, rfl⟩, rate, s, rfl, mask, s, rfl, flags, s,
      rfl, typeSize, s, rfl, addressSize, s, rfl, productSize, s, rfl, encodingSize, s, rfl, -, s, ⟨-, rfl⟩, _, s, ⟨rfl, rfl⟩,
      -, s, ⟨htotal, rfl⟩, type, s, ⟨rfl, htype⟩, address, s, ⟨rfl, haddress⟩, product, s, ⟨rfl, hproduct⟩, encoding, s,
      ⟨rfl, hencoding⟩, -, s, ⟨hfields, rfl⟩, -, s, ⟨hformat, rfl⟩, rfl, rfl⟩
    simp only [List.length_append, htype, haddress, hproduct, hencoding] at htotal
    obtain rfl : s = [] := List.length_eq_zero_iff.mp (by omega)
    refine ⟨⟨hversion, hfields, hformat⟩, ?_⟩
    simp only [appRouteReportBytes, putSize_read htype, putSize_read haddress, putSize_read hproduct, putSize_read hencoding,
      List.append_nil]
  · rintro ⟨h, rfl⟩
    have hfields := h.fields
    simp only [validateRouteFields, except_bind_iff] at hfields
    obtain ⟨_, htype, _, haddress, _, hproduct, hencoding⟩ := hfields
    have htype := validateRouteField_length htype
    have haddress := validateRouteField_length haddress
    have hproduct := validateRouteField_length hproduct
    have hencoding := validateRouteField_length hencoding
    have htypeSize := toNat_size htype (by decide)
    have haddressSize := toNat_size haddress (by decide)
    have hproductSize := toNat_size hproduct (by decide)
    have hencodingSize := toNat_size hencoding (by decide)
    have hwire : ¬ (appRouteReportBytes report).length < kAppRouteReportHeaderSize := by
      simp only [appRouteReportBytes, putSize, List.length_append, putU16_length, putU32_length, kAppRouteReportHeaderSize]
      omega
    refine ⟨hwire, [], _, _, rfl, (), _, ⟨h.version, rfl⟩, _, _, rfl, (), _, ⟨rfl, rfl⟩, _, _, rfl, _, _, rfl, _, _, rfl, _, _,
      rfl, _, _, rfl, _, _, rfl, _, _, rfl, (), _, ⟨?_, rfl⟩, _, _, ⟨rfl, rfl⟩, (), _, ⟨?_, rfl⟩, _, _, ⟨rfl, htypeSize.symm⟩,
      _, _, ⟨rfl, haddressSize.symm⟩, _, _, ⟨rfl, hproductSize.symm⟩, _, _,
      ⟨(List.append_nil _).symm, hencodingSize.symm⟩, (), _, ⟨h.fields, rfl⟩, (), _, ⟨h.format, rfl⟩, rfl, rfl⟩
    · rw [htypeSize, haddressSize, hproductSize, hencodingSize]
      omega
    · simp only [htypeSize, haddressSize, hproductSize, hencodingSize, List.length_append]
      omega

theorem encodeAppRouteAck_iff {ack : AppRouteAck} {out : Bytes} :
    encodeAppRouteAck ack = .ok out ↔ HashOk ack.routeKeyHash ∧ out = appRouteAckBytes ack := by
  simp only [encodeAppRouteAck, guard_iff, hashOk_iff, Except.ok.injEq]
  exact and_congr_right fun _ => eq_comm

theorem decodeAppRouteAck_bytes {ack : AppRouteAck} (hhash : HashOk ack.routeKeyHash) :
    decodeAppRouteAck (appRouteAckBytes ack) = .ok ack := by
  have hwire : (appRouteAckBytes ack).length = kAppRouteAckWireSize := by
    simp [appRouteAckBytes, putFlag, hhash.put_length, kAppDeviceHashSize, kAppRouteAckWireSize]
  simp only [decodeAppRouteAck, guard_iff, fst_iff, readAppRouteAck, bind_iff, readU16_iff, readU32_iff, readU64_iff,
    refuseIf_iff, pure_iff, ne_eq, not_not]
  refine ⟨hwire, [], _, _, rfl, _, _, rfl, (), _, ⟨rfl, rfl⟩, _, _, rfl, _, _, rfl, _, _, rfl, (), _, ⟨rfl, rfl⟩, _, _, rfl, (),
    _, ⟨rfl, rfl⟩, _, _, readHash_put hhash, ?_, rfl⟩
  rw [flag_ne_zero]

theorem decodeAppRouteAck_passes {ack : AppRouteAck} {bytes : Bytes} (h : decodeAppRouteAck bytes = .ok ack) :
    HashOk ack.routeKeyHash := by
  simp only [decodeAppRouteAck, guard_iff, fst_iff, readAppRouteAck, bind_iff, refuseIf_iff, pure_iff] at h
  obtain ⟨-, rest, accepted, s, -, _, s, -, -, s, -, daemon, s, -, epoch, s, -, _, s, -, -, s, -, _, s, -, -, s, -, hash, s,
    hhash, rfl, -⟩ := h
  exact readHash_ok hhash

theorem decodeAppApplyResult_encode (result : AppApplyResult) :
    decodeAppApplyResult (encodeAppApplyResult result) = .ok result := by
  simp only [decodeAppApplyResult, guard_iff, fst_iff, readAppApplyResult, bind_iff, readU16_iff, readU32_iff, readU64_iff,
    refuseIf_iff, pure_iff, ne_eq, not_not]
  refine ⟨rfl, [], _, _, rfl, _, _, rfl, (), _, ⟨rfl, rfl⟩, _, _, rfl, _, _, rfl, _, _, rfl, _, _, rfl, _, _, rfl, _, _,
    (List.append_nil _).symm, (), _, ⟨rfl, rfl⟩, ?_, rfl⟩
  rw [flag_ne_zero]

end ViperFx.Protocol
