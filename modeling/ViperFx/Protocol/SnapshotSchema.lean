/-
The snapshot document: `protocol/SnapshotSchema.cpp`.

A snapshot is the whole state of one output route: its key and hash, the generation pair the driver orders snapshots
by, the master switch, and the raw parameter records the driver replays. `encodeSnapshot` writes it as an 80-byte
header and four counted sections followed by the resource table, `decodeSnapshot` reads it back, and both end in
`validateSnapshot`, which recomputes the hash from the key.

Nothing about the format rests on what the digest computes, so the codec is written over any digest (`…With`) and the
program's own is the instance at SHA-256.

Results:
  · decodeSnapshot_encode : a snapshot that was encoded is decoded unchanged
  · readSnapshot_length   : a decoded snapshot is written in as many bytes as it was read from
  · snapshot_round_trip   : both directions of the format, and that the decoder stays inside its input
-/
import ViperFx.Protocol.DeviceKey
import ViperFx.Protocol.Frame

namespace ViperFx.Protocol

def kSnapshotSchemaVersion : UInt16 := 1
def kSnapshotDriverProtocolVersion : UInt16 := kProtocolVersion
def kSnapshotHeaderSize : ℕ := 80
def kMaxSnapshotSize : ℕ := 4 * 1024 * 1024
def kMaxParameterBytes : ℕ := 1024 * 1024
def kMaxSnapshotString : ℕ := 4096
def kMaxSnapshotResources : ℕ := 128
def kResourceFixedSize : ℕ := 32

/-- "V4AS" -/
def kSnapshotMagic : Bytes := ascii ['V', '4', 'A', 'S']

structure ResourceReference where
  resourceId : Bytes
  contentSha256 : Bytes
  size : UInt64
  kind : UInt32
  format : UInt32
  channels : UInt32
  order : UInt32
  deriving DecidableEq

structure Snapshot where
  schemaVersion : UInt16
  driverProtocolVersion : UInt16
  deviceKey : Bytes
  deviceKeyHash : Bytes
  bootId : UInt64
  daemonGeneration : UInt64
  appGeneration : UInt64
  createdAtMillis : UInt64
  masterEnabled : Bool
  globalMode : Bool
  parameters : Bytes
  iemParameters : Bytes
  resources : List ResourceReference
  resourceGeneration : UInt64
  graphGeneration : UInt64
  deriving DecidableEq

/-! ## Validation -/

def isXDigit (b : UInt8) : Bool := (48 ≤ b && b ≤ 57) || (65 ≤ b && b ≤ 70) || (97 ≤ b && b ≤ 102)

def isHex64 (value : Bytes) : Bool := value.length == 64 && value.all isXDigit

def isLowerHex64 (value : Bytes) : Bool :=
  isHex64 value && value.all fun b => (48 ≤ b && b ≤ 57) || (97 ≤ b && b ≤ 122)

/-- the resource loop of `ValidateSnapshot`, with the ids and hashes already seen -/
def validateResources : List Bytes → List Bytes → List ResourceReference → Except String Unit
  | _, _, [] => .ok ()
  | ids, hashes, r :: rest =>
    if r.resourceId.isEmpty || kMaxSnapshotString < r.resourceId.length then .error "resource_id is invalid"
    else if !isLowerHex64 r.contentSha256 then .error "resource content_sha256 must be 64 hex characters"
    else if ids.contains r.resourceId then .error "duplicate resource_id"
    else if hashes.contains r.contentSha256 then .error "duplicate resource hash"
    else validateResources (r.resourceId :: ids) (r.contentSha256 :: hashes) rest

section Digest

variable (sha256Hex : Bytes → Bytes)

def validateSnapshotWith (s : Snapshot) : Except String Unit :=
  if s.schemaVersion ≠ kSnapshotSchemaVersion then .error "unsupported snapshot schema"
  else if s.driverProtocolVersion ≠ kSnapshotDriverProtocolVersion then .error "unsupported driver protocol version"
  else if s.deviceKey.isEmpty || kMaxSnapshotString < s.deviceKey.length then .error "device_key is invalid"
  else if !s.deviceKey.contains 124 then .error "device_key is not canonical"
  else if !isLowerHex64 s.deviceKeyHash then .error "device_key_hash must be 64 lowercase hex characters"
  else if hashDeviceKeyWith sha256Hex s.deviceKey ≠ s.deviceKeyHash then .error "device_key_hash mismatch"
  else if s.bootId = 0 then .error "boot_id must be non-zero"
  else if s.daemonGeneration = 0 then .error "daemon_generation must be non-zero"
  else if s.appGeneration = 0 then .error "app_generation must be non-zero"
  else if s.createdAtMillis = 0 then .error "created_at_millis must be non-zero"
  else if kMaxParameterBytes < s.parameters.length || kMaxParameterBytes < s.iemParameters.length then
    .error "parameter payload is too large"
  else if kMaxSnapshotResources < s.resources.length then .error "too many resources"
  else validateResources [] [] s.resources

/-! ## Encoding -/

def putBool (b : Bool) : Bytes := [if b then 1 else 0]

/-- a container size narrowed by `static_cast<uint32_t>` -/
def putSize (bytes : Bytes) : Bytes := putU32 (UInt32.ofNat bytes.length)

def encodeResource (r : ResourceReference) : Bytes :=
  putSize r.resourceId ++ putSize r.contentSha256 ++ putU64 r.size ++ putU32 r.kind ++ putU32 r.format
    ++ putU32 r.channels ++ putU32 r.order ++ r.resourceId ++ r.contentSha256

def snapshotBytes (s : Snapshot) : Bytes :=
  kSnapshotMagic ++ putU16 s.schemaVersion ++ putU16 s.driverProtocolVersion ++ putU64 s.bootId
    ++ putU64 s.daemonGeneration ++ putU64 s.appGeneration ++ putU64 s.createdAtMillis
    ++ putBool s.masterEnabled ++ putBool s.globalMode ++ putU16 0
    ++ putSize s.deviceKey ++ putSize s.deviceKeyHash ++ putSize s.parameters ++ putSize s.iemParameters
    ++ putU32 (UInt32.ofNat s.resources.length) ++ putU64 s.resourceGeneration ++ putU64 s.graphGeneration
    ++ s.deviceKey ++ s.deviceKeyHash ++ s.parameters ++ s.iemParameters
    ++ s.resources.flatMap encodeResource

def encodeSnapshotWith (s : Snapshot) : Except String Bytes :=
  match validateSnapshotWith sha256Hex s with
  | .error e => .error e
  | .ok () =>
    let out := snapshotBytes s
    if kMaxSnapshotSize < out.length then .error "snapshot is too large" else .ok out

/-! ## Decoding -/

def readByte : Reader UInt8 := (fun b => b.headD 0) <$> takeBytes 1

def readResource : Reader ResourceReference := do
  refuseIf ((← remaining) < kResourceFixedSize) "snapshot resource truncated"
  let resourceIdLength ← readU32
  let hashLength ← readU32
  let size ← readU64
  let kind ← readU32
  let format ← readU32
  let channels ← readU32
  let order ← readU32
  refuseIf (kMaxSnapshotString < resourceIdLength.toNat ∨ kMaxSnapshotString < hashLength.toNat
    ∨ (← remaining) < resourceIdLength.toNat + hashLength.toNat) "snapshot resource truncated"
  let resourceId ← takeBytes resourceIdLength.toNat
  let contentSha256 ← takeBytes hashLength.toNat
  pure ⟨resourceId, contentSha256, size, kind, format, channels, order⟩

def readResources : ℕ → Reader (List ResourceReference)
  | 0 => pure []
  | count + 1 => do
    let r ← readResource
    let rest ← readResources count
    pure (r :: rest)

def readSnapshot : Reader Snapshot := do
  let schemaVersion ← readU16
  let driverProtocolVersion ← readU16
  let bootId ← readU64
  let daemonGeneration ← readU64
  let appGeneration ← readU64
  let createdAtMillis ← readU64
  let masterEnabled ← readByte
  let globalMode ← readByte
  let _reserved ← readU16
  let deviceKeyLength ← readU32
  let deviceHashLength ← readU32
  let parameterLength ← readU32
  let iemParameterLength ← readU32
  let resourceCount ← readU32
  let resourceGeneration ← readU64
  let graphGeneration ← readU64
  refuseIf (kMaxSnapshotString < deviceKeyLength.toNat ∨ kMaxSnapshotString < deviceHashLength.toNat
    ∨ kMaxParameterBytes < parameterLength.toNat ∨ kMaxParameterBytes < iemParameterLength.toNat
    ∨ kMaxSnapshotResources < resourceCount.toNat) "snapshot field exceeds limit"
  refuseIf ((← remaining) < deviceKeyLength.toNat + deviceHashLength.toNat + parameterLength.toNat
    + iemParameterLength.toNat) "snapshot truncated"
  let deviceKey ← takeBytes deviceKeyLength.toNat
  let deviceKeyHash ← takeBytes deviceHashLength.toNat
  let parameters ← takeBytes parameterLength.toNat
  let iemParameters ← takeBytes iemParameterLength.toNat
  let resources ← readResources resourceCount.toNat
  pure { schemaVersion, driverProtocolVersion, deviceKey, deviceKeyHash, bootId, daemonGeneration, appGeneration,
         createdAtMillis, masterEnabled := masterEnabled != 0, globalMode := globalMode != 0, parameters,
         iemParameters, resources, resourceGeneration, graphGeneration }

def decodeSnapshotWith (bytes : Bytes) : Except String Snapshot :=
  if bytes.length < kSnapshotHeaderSize then .error "snapshot truncated"
  else if kMaxSnapshotSize < bytes.length then .error "snapshot is too large"
  else if bytes.take 4 ≠ kSnapshotMagic then .error "bad snapshot magic"
  else
    match readSnapshot (bytes.drop 4) with
    | .error e => .error e
    | .ok (s, rest) =>
      if !rest.isEmpty then .error "snapshot trailing bytes"
      else match validateSnapshotWith sha256Hex s with
        | .error e => .error e
        | .ok () => .ok s

/-- DecodeSnapshot with its out-parameter, which is assigned after the last check -/
def decodeSnapshotInto (bytes : Bytes) (out : Snapshot) : Bool × Snapshot :=
  match decodeSnapshotWith sha256Hex bytes with
  | .error _ => (false, out)
  | .ok s => (true, s)

end Digest

def validateSnapshot (s : Snapshot) : Except String Unit := validateSnapshotWith Sha256.digestHex s

def encodeSnapshot (s : Snapshot) : Except String Bytes := encodeSnapshotWith Sha256.digestHex s

def decodeSnapshot (bytes : Bytes) : Except String Snapshot := decodeSnapshotWith Sha256.digestHex bytes

/-! ## What a decoded snapshot satisfies -/

section Digest

variable {sha256Hex : Bytes → Bytes}

/-- a decoder that ends in a check returns only checked values -/
theorem decodeSnapshot_valid (bytes : Bytes) (s : Snapshot) (h : decodeSnapshotWith sha256Hex bytes = .ok s) :
    validateSnapshotWith sha256Hex s = .ok () := by
  unfold decodeSnapshotWith at h
  split_ifs at h
  cases hr : readSnapshot (bytes.drop 4) with
  | error e => rw [hr] at h; cases h
  | ok p =>
    obtain ⟨t, rest⟩ := p
    rw [hr] at h
    simp only at h
    split_ifs at h
    cases hv : validateSnapshotWith sha256Hex t with
    | error e => rw [hv] at h; cases h
    | ok u =>
      rw [hv] at h
      cases h
      exact hv

/-- an encoder that starts with a check accepts only checked values -/
theorem encodeSnapshot_valid (s : Snapshot) (out : Bytes) (h : encodeSnapshotWith sha256Hex s = .ok out) :
    validateSnapshotWith sha256Hex s = .ok () ∧ out = snapshotBytes s := by
  unfold encodeSnapshotWith at h
  cases hv : validateSnapshotWith sha256Hex s with
  | error e => rw [hv] at h; cases h
  | ok u =>
    rw [hv] at h
    simp only at h
    split_ifs at h
    exact ⟨rfl, (Except.ok.inj h).symm⟩

theorem encodeSnapshot_size {s : Snapshot} {out : Bytes} (h : encodeSnapshotWith sha256Hex s = .ok out) :
    out.length ≤ kMaxSnapshotSize := by
  obtain ⟨hvalid, hout⟩ := encodeSnapshot_valid s out h
  unfold encodeSnapshotWith at h
  rw [hvalid] at h
  simp only at h
  split_ifs at h with hsize
  rw [hout]
  exact not_lt.mp hsize

/-! ## Round trip -/

theorem readByte_put (b : Bool) (rest : Bytes) : readByte (putBool b ++ rest) = .ok (if b then 1 else 0, rest) := by
  cases b <;> rfl

/-- a length that was narrowed to 32 bits reads back as itself, below the limits -/
theorem toNat_size {bytes : Bytes} {limit : ℕ} (h : bytes.length ≤ limit) (hlimit : limit < 2 ^ 32) :
    (UInt32.ofNat bytes.length).toNat = bytes.length :=
  UInt32.toNat_ofNat_of_lt (Nat.lt_of_le_of_lt h hlimit)

theorem isLowerHex64_length {value : Bytes} (h : isLowerHex64 value = true) : value.length = 64 := by
  simp only [isLowerHex64, isHex64, Bool.and_eq_true, beq_iff_eq] at h
  exact h.1.1

theorem encodeResource_length (r : ResourceReference) :
    (encodeResource r).length = kResourceFixedSize + r.resourceId.length + r.contentSha256.length := by
  simp only [encodeResource, putSize, List.length_append, putU32_length, putU64_length, kResourceFixedSize]

theorem readResource_encode {r : ResourceReference} (hid : r.resourceId.length ≤ kMaxSnapshotString)
    (hhash : r.contentSha256.length ≤ kMaxSnapshotString) (rest : Bytes) :
    readResource (encodeResource r ++ rest) = .ok (r, rest) := by
  have hid' := toNat_size hid (by decide)
  have hhash' := toNat_size hhash (by decide)
  have hfixed : ¬ (encodeResource r ++ rest).length < kResourceFixedSize := by
    rw [List.length_append, encodeResource_length]
    omega
  unfold readResource
  rw [bind_ok (remaining_eq _), bind_ok (refuseIf_pass hfixed _ _)]
  simp only [encodeResource, putSize, List.append_assoc]
  rw [bind_ok (readU32_put _ _), bind_ok (readU32_put _ _), bind_ok (readU64_put _ _), bind_ok (readU32_put _ _),
    bind_ok (readU32_put _ _), bind_ok (readU32_put _ _), bind_ok (readU32_put _ _), bind_ok (remaining_eq _)]
  rw [hid', hhash', bind_ok (refuseIf_pass (by simp only [List.length_append]; omega) _ _),
    bind_ok (takeBytes_append _ _ _ rfl), bind_ok (takeBytes_append _ _ _ rfl)]
  rfl

theorem readResources_encode {resources : List ResourceReference}
    (h : ∀ r ∈ resources, r.resourceId.length ≤ kMaxSnapshotString ∧ r.contentSha256.length ≤ kMaxSnapshotString)
    (rest : Bytes) :
    readResources resources.length (resources.flatMap encodeResource ++ rest) = .ok (resources, rest) := by
  induction resources with
  | nil => rfl
  | cons r resources ih =>
    obtain ⟨hid, hhash⟩ := h r List.mem_cons_self
    have htail := ih fun r' hr' => h r' (List.mem_cons_of_mem _ hr')
    simp only [List.length_cons, readResources, List.flatMap_cons, List.append_assoc]
    rw [bind_ok (readResource_encode hid hhash _), bind_ok htail]
    rfl

theorem validateResources_lengths {ids hashes : List Bytes} {resources : List ResourceReference}
    (h : validateResources ids hashes resources = .ok ()) :
    ∀ r ∈ resources, r.resourceId.length ≤ kMaxSnapshotString ∧ r.contentSha256.length ≤ kMaxSnapshotString := by
  induction resources generalizing ids hashes with
  | nil => intro r hr; cases hr
  | cons r resources ih =>
    unfold validateResources at h
    split_ifs at h with hid hhex hdup hdup'
    intro r' hr'
    rcases List.mem_cons.mp hr' with rfl | hr'
    · simp only [Bool.or_eq_true, decide_eq_true_eq, not_or, not_lt] at hid
      have hlen := isLowerHex64_length (by simpa using hhex)
      exact ⟨hid.2, by rw [hlen]; decide⟩
    · exact ih h r' hr'

/-- one guard of a chain of checks -/
theorem unrefused {c : Prop} [Decidable c] {e : String} {rest : Except String Unit}
    (h : (if c then .error e else rest) = .ok ()) : ¬ c ∧ rest = .ok () := by
  by_cases hc : c
  · rw [if_pos hc] at h
    cases h
  · rw [if_neg hc] at h
    exact ⟨hc, h⟩

/-- the limits a valid snapshot keeps -/
structure WithinLimits (s : Snapshot) : Prop where
  deviceKey : s.deviceKey.length ≤ kMaxSnapshotString
  deviceKeyHash : s.deviceKeyHash.length ≤ kMaxSnapshotString
  parameters : s.parameters.length ≤ kMaxParameterBytes
  iemParameters : s.iemParameters.length ≤ kMaxParameterBytes
  resourceCount : s.resources.length ≤ kMaxSnapshotResources
  resources : ∀ r ∈ s.resources,
    r.resourceId.length ≤ kMaxSnapshotString ∧ r.contentSha256.length ≤ kMaxSnapshotString

theorem validateSnapshot_limits {s : Snapshot} (h : validateSnapshotWith sha256Hex s = .ok ()) : WithinLimits s := by
  obtain ⟨-, h⟩ := unrefused h
  obtain ⟨-, h⟩ := unrefused h
  obtain ⟨hkey, h⟩ := unrefused h
  obtain ⟨-, h⟩ := unrefused h
  obtain ⟨hhex, h⟩ := unrefused h
  obtain ⟨-, h⟩ := unrefused h
  obtain ⟨-, h⟩ := unrefused h
  obtain ⟨-, h⟩ := unrefused h
  obtain ⟨-, h⟩ := unrefused h
  obtain ⟨-, h⟩ := unrefused h
  obtain ⟨hparams, h⟩ := unrefused h
  obtain ⟨hcount, h⟩ := unrefused h
  simp only [Bool.or_eq_true, decide_eq_true_eq, not_or, not_lt] at hkey hparams
  have hhash : s.deviceKeyHash.length = 64 := isLowerHex64_length (by simpa using hhex)
  exact ⟨hkey.2, by rw [hhash]; decide, hparams.1, hparams.2, not_lt.mp hcount, validateResources_lengths h⟩

/-- everything the header is followed by -/
def snapshotBody (s : Snapshot) : Bytes :=
  s.deviceKey ++ (s.deviceKeyHash ++ (s.parameters ++ (s.iemParameters ++ s.resources.flatMap encodeResource)))

theorem snapshotBody_length (s : Snapshot) :
    s.deviceKey.length + s.deviceKeyHash.length + s.parameters.length + s.iemParameters.length
      ≤ (snapshotBody s).length := by
  simp only [snapshotBody, List.length_append]
  omega

theorem drop_magic (rest : Bytes) : (kSnapshotMagic ++ rest).drop 4 = rest := rfl

theorem take_magic (rest : Bytes) : (kSnapshotMagic ++ rest).take 4 = kSnapshotMagic := rfl

theorem snapshotBytes_eq (s : Snapshot) :
    snapshotBytes s = kSnapshotMagic ++ (putU16 s.schemaVersion ++ (putU16 s.driverProtocolVersion
      ++ (putU64 s.bootId ++ (putU64 s.daemonGeneration ++ (putU64 s.appGeneration ++ (putU64 s.createdAtMillis
      ++ (putBool s.masterEnabled ++ (putBool s.globalMode ++ (putU16 0
      ++ (putSize s.deviceKey ++ (putSize s.deviceKeyHash ++ (putSize s.parameters ++ (putSize s.iemParameters
      ++ (putU32 (UInt32.ofNat s.resources.length) ++ (putU64 s.resourceGeneration ++ (putU64 s.graphGeneration
      ++ snapshotBody s)))))))))))))))) := by
  unfold snapshotBytes snapshotBody
  simp only [List.append_assoc]

theorem readSnapshot_encode {s : Snapshot} (h : validateSnapshotWith sha256Hex s = .ok ()) :
    readSnapshot ((snapshotBytes s).drop 4) = .ok (s, []) := by
  have hlimits := validateSnapshot_limits h
  have hkey := toNat_size hlimits.deviceKey (by decide)
  have hhash := toNat_size hlimits.deviceKeyHash (by decide)
  have hparams := toNat_size hlimits.parameters (by decide)
  have hiem := toNat_size hlimits.iemParameters (by decide)
  have hcount : (UInt32.ofNat s.resources.length).toNat = s.resources.length :=
    UInt32.toNat_ofNat_of_lt (Nat.lt_of_le_of_lt hlimits.resourceCount (by decide))
  have hwithin : ¬ (kMaxSnapshotString < s.deviceKey.length ∨ kMaxSnapshotString < s.deviceKeyHash.length
      ∨ kMaxParameterBytes < s.parameters.length ∨ kMaxParameterBytes < s.iemParameters.length
      ∨ kMaxSnapshotResources < s.resources.length) := by
    simp only [not_or, not_lt]
    exact ⟨hlimits.deviceKey, hlimits.deviceKeyHash, hlimits.parameters, hlimits.iemParameters, hlimits.resourceCount⟩
  have hlength := not_lt.mpr (snapshotBody_length s)
  have hresources := readResources_encode hlimits.resources []
  rw [List.append_nil] at hresources
  rw [snapshotBytes_eq, drop_magic]
  unfold readSnapshot
  rw [bind_ok (readU16_put _ _), bind_ok (readU16_put _ _), bind_ok (readU64_put _ _), bind_ok (readU64_put _ _),
    bind_ok (readU64_put _ _), bind_ok (readU64_put _ _), bind_ok (readByte_put _ _), bind_ok (readByte_put _ _),
    bind_ok (readU16_put _ _)]
  unfold putSize
  rw [bind_ok (readU32_put _ _), bind_ok (readU32_put _ _), bind_ok (readU32_put _ _), bind_ok (readU32_put _ _),
    bind_ok (readU32_put _ _), bind_ok (readU64_put _ _), bind_ok (readU64_put _ _)]
  rw [hkey, hhash, hparams, hiem, hcount, bind_ok (refuseIf_pass hwithin _ _), bind_ok (remaining_eq _),
    bind_ok (refuseIf_pass hlength _ _)]
  unfold snapshotBody
  rw [bind_ok (takeBytes_append _ _ _ rfl), bind_ok (takeBytes_append _ _ _ rfl), bind_ok (takeBytes_append _ _ _ rfl),
    bind_ok (takeBytes_append _ _ _ rfl), bind_ok hresources]
  obtain ⟨_, _, _, _, _, _, _, _, masterEnabled, globalMode, _, _, _, _, _⟩ := s
  cases masterEnabled <;> cases globalMode <;> rfl

/-- **Snapshot round trip.** What `EncodeSnapshot` writes, `DecodeSnapshot` reads back unchanged. -/
theorem decodeSnapshot_encode {s : Snapshot} {out : Bytes} (h : encodeSnapshotWith sha256Hex s = .ok out) :
    decodeSnapshotWith sha256Hex out = .ok s := by
  obtain ⟨hvalid, hout⟩ := encodeSnapshot_valid s out h
  have hsize : ¬ kMaxSnapshotSize < (snapshotBytes s).length := hout ▸ not_lt.mpr (encodeSnapshot_size h)
  have hheader : ¬ (snapshotBytes s).length < kSnapshotHeaderSize := by
    have hmagic : kSnapshotMagic.length = 4 := rfl
    simp only [snapshotBytes_eq, putSize, putBool, List.length_append, putU16_length, putU32_length, putU64_length,
      List.length_singleton, kSnapshotHeaderSize, hmagic]
    omega
  have hmagic : (snapshotBytes s).take 4 = kSnapshotMagic := by rw [snapshotBytes_eq, take_magic]
  unfold decodeSnapshotWith
  rw [hout, if_neg hheader, if_neg hsize, if_neg (not_not.mpr hmagic), readSnapshot_encode hvalid]
  simp only [List.isEmpty_nil, Bool.not_true, Bool.false_eq_true, if_false, hvalid]

/-! ## From bytes -/

theorem readByte_iff {s s' : Bytes} {b : UInt8} : readByte s = .ok (b, s') ↔ s = b :: s' := by
  constructor
  · intro h
    obtain ⟨field, hfield, rfl⟩ := map_inv h
    obtain ⟨rfl, hlength⟩ := takeBytes_inv hfield
    obtain ⟨c, rfl⟩ := List.length_eq_one_iff.mp hlength
    rfl
  · rintro rfl
    rfl

/-- a counted field is written with the length it was read with -/
theorem putSize_read {field : Bytes} {length : UInt32} (h : field.length = length.toNat) : putSize field = putU32 length := by
  rw [putSize, h]
  simp

theorem readResource_inv {s s' : Bytes} {r : ResourceReference} (h : readResource s = .ok (r, s')) :
    s = encodeResource r ++ s' := by
  simp only [readResource, bind_iff, remaining_iff, refuseIf_iff, readU32_iff, readU64_iff, takeBytes_iff, pure_iff] at h
  obtain ⟨_, s, ⟨-, rfl⟩, -, s, ⟨-, rfl⟩, idLength, s, rfl, hashLength, s, rfl, size, s, rfl, kind, s, rfl, format, s, rfl,
    channels, s, rfl, order, s, rfl, _, s, ⟨-, rfl⟩, -, s, ⟨-, rfl⟩, resourceId, s, ⟨rfl, hid⟩, hash, s, ⟨rfl, hhash⟩,
    rfl, rfl⟩ := h
  simp only [encodeResource, putSize_read hid, putSize_read hhash, List.append_assoc]

theorem readResources_inv {count : ℕ} {s s' : Bytes} {resources : List ResourceReference}
    (h : readResources count s = .ok (resources, s')) :
    s = resources.flatMap encodeResource ++ s' ∧ resources.length = count := by
  induction count generalizing s resources with
  | zero =>
    obtain ⟨rfl, rfl⟩ := pure_iff.mp h
    exact ⟨rfl, rfl⟩
  | succ count ih =>
    simp only [readResources, bind_iff, pure_iff] at h
    obtain ⟨r, t, hr, rest, t', hrest, rfl, rfl⟩ := h
    obtain ⟨htail, hcount⟩ := ih hrest
    rw [List.flatMap_cons, List.append_assoc, ← htail, List.length_cons, hcount]
    exact ⟨readResource_inv hr, rfl⟩

/-- the flags may be any non-zero byte and the reserved field is not looked at, so the bytes may differ; their number
does not -/
theorem readSnapshot_length {t rest : Bytes} {s : Snapshot} (h : readSnapshot t = .ok (s, rest)) :
    (snapshotBytes s).length + rest.length = t.length + 4 := by
  simp only [readSnapshot, bind_iff, remaining_iff, refuseIf_iff, readU16_iff, readU32_iff, readU64_iff, readByte_iff,
    takeBytes_iff, pure_iff] at h
  obtain ⟨schema, t, rfl, protocol, t, rfl, boot, t, rfl, daemon, t, rfl, app, t, rfl, created, t, rfl, master, t, rfl,
    mode, t, rfl, reserved, t, rfl, keyLength, t, rfl, hashLength, t, rfl, paramLength, t, rfl, iemLength, t, rfl, count, t,
    rfl, resourceGeneration, t, rfl, graphGeneration, t, rfl, -, t, ⟨-, rfl⟩, _, t, ⟨-, rfl⟩, -, t, ⟨-, rfl⟩, key, t,
    ⟨rfl, -⟩, hash, t, ⟨rfl, -⟩, params, t, ⟨rfl, -⟩, iem, t, ⟨rfl, -⟩, resources, t, hresources, rfl, rfl⟩ := h
  obtain ⟨rfl, -⟩ := readResources_inv hresources
  have hmagic : kSnapshotMagic.length = 4 := rfl
  simp only [snapshotBytes_eq, snapshotBody, putSize, putBool, List.length_append, List.length_cons, List.length_nil,
    putU16_length, putU32_length, putU64_length, hmagic]
  omega

theorem decodeSnapshot_inv {bytes : Bytes} {s : Snapshot} (h : decodeSnapshotWith sha256Hex bytes = .ok s) :
    bytes.length ≤ kMaxSnapshotSize ∧ (snapshotBytes s).length = bytes.length := by
  unfold decodeSnapshotWith at h
  split_ifs at h with hheader hsize hmagic
  have hlong : 80 ≤ bytes.length := not_lt.mp hheader
  cases hread : readSnapshot (bytes.drop 4) with
  | error e => rw [hread] at h; cases h
  | ok p =>
    obtain ⟨t, rest⟩ := p
    rw [hread] at h
    dsimp only at h
    split_ifs at h with hrest
    cases hvalid : validateSnapshotWith sha256Hex t with
    | error e => rw [hvalid] at h; cases h
    | ok u =>
      rw [hvalid] at h
      obtain rfl := Except.ok.inj h
      have hempty : rest = [] := by simpa using hrest
      have hlength := readSnapshot_length hread
      rw [hempty, List.length_nil, List.length_drop] at hlength
      exact ⟨not_lt.mp hsize, by omega⟩

/-- what was decoded can be encoded -/
theorem encodeSnapshot_decode {bytes : Bytes} {s : Snapshot} (h : decodeSnapshotWith sha256Hex bytes = .ok s) :
    encodeSnapshotWith sha256Hex s = .ok (snapshotBytes s) := by
  obtain ⟨hsize, hlength⟩ := decodeSnapshot_inv h
  have hwide : ¬ kMaxSnapshotSize < (snapshotBytes s).length := by
    rw [hlength]
    exact not_lt.mpr hsize
  rw [encodeSnapshotWith, decodeSnapshot_valid bytes s h]
  exact if_neg hwide

/-- another generation does not make a valid snapshot invalid, but for 0 -/
theorem validateSnapshot_generation {s : Snapshot} (h : validateSnapshotWith sha256Hex s = .ok ()) {g : UInt64} (hg : g ≠ 0) :
    validateSnapshotWith sha256Hex { s with daemonGeneration := g } = .ok () := by
  obtain ⟨hschema, h⟩ := unrefused h
  obtain ⟨hprotocol, h⟩ := unrefused h
  obtain ⟨hkey, h⟩ := unrefused h
  obtain ⟨hcanonical, h⟩ := unrefused h
  obtain ⟨hhex, h⟩ := unrefused h
  obtain ⟨hhash, h⟩ := unrefused h
  obtain ⟨hboot, h⟩ := unrefused h
  obtain ⟨-, h⟩ := unrefused h
  obtain ⟨happ, h⟩ := unrefused h
  obtain ⟨hcreated, h⟩ := unrefused h
  obtain ⟨hparams, h⟩ := unrefused h
  obtain ⟨hcount, h⟩ := unrefused h
  unfold validateSnapshotWith
  rw [if_neg hschema, if_neg hprotocol, if_neg hkey, if_neg hcanonical, if_neg hhex, if_neg hhash, if_neg hboot, if_neg hg,
    if_neg happ, if_neg hcreated, if_neg hparams, if_neg hcount]
  exact h

theorem validateSnapshot_zero (s : Snapshot) : validateSnapshotWith sha256Hex { s with daemonGeneration := 0 } ≠ .ok () := by
  intro h
  obtain ⟨-, h⟩ := unrefused h
  obtain ⟨-, h⟩ := unrefused h
  obtain ⟨-, h⟩ := unrefused h
  obtain ⟨-, h⟩ := unrefused h
  obtain ⟨-, h⟩ := unrefused h
  obtain ⟨-, h⟩ := unrefused h
  obtain ⟨-, h⟩ := unrefused h
  obtain ⟨hzero, -⟩ := unrefused h
  exact hzero rfl

/-- what was decoded can be encoded under another generation, for it is as long -/
theorem encodeSnapshot_generation {bytes : Bytes} {s : Snapshot} (h : decodeSnapshotWith sha256Hex bytes = .ok s) {g : UInt64}
    (hg : g ≠ 0) : encodeSnapshotWith sha256Hex { s with daemonGeneration := g } =
      .ok (snapshotBytes { s with daemonGeneration := g }) := by
  obtain ⟨hsize, hlength⟩ := decodeSnapshot_inv h
  have hsame : (snapshotBytes { s with daemonGeneration := g }).length = (snapshotBytes s).length := by
    unfold snapshotBytes
    repeat rw [List.length_append]
    repeat rw [putU64_length]
  have hwide : ¬ kMaxSnapshotSize < (snapshotBytes { s with daemonGeneration := g }).length := by
    rw [hsame, hlength]
    exact not_lt.mpr hsize
  rw [encodeSnapshotWith, validateSnapshot_generation (decodeSnapshot_valid bytes s h) hg]
  exact if_neg hwide

/-! ## Inside the input -/

theorem stays_readByte {s : Bytes} {Q : UInt8 → Bytes → Prop} (hn : 1 ≤ s.length)
    (h : ∀ b s', s'.length = s.length - 1 → Q b s') : Stays readByte Q s :=
  stays_map (stays_takeBytes hn fun _ s' _ hlen => h _ s' hlen)

theorem stays_readResource {s : Bytes} {Q : ResourceReference → Bytes → Prop} (h : ∀ r s', Q r s') :
    Stays readResource Q s := by
  unfold readResource
  refine stays_bind (stays_remaining ?_)
  refine stays_bind (stays_refuseIf (by decide) fun hfixed => ?_)
  have hfixed : 32 ≤ s.length := not_lt.mp hfixed
  refine stays_bind (stays_readU32 (by omega) fun idLength s hs => ?_)
  refine stays_bind (stays_readU32 (by omega) fun hashLength s hs => ?_)
  refine stays_bind (stays_readU64 (by omega) fun _ s hs => ?_)
  refine stays_bind (stays_readU32 (by omega) fun _ s hs => ?_)
  refine stays_bind (stays_readU32 (by omega) fun _ s hs => ?_)
  refine stays_bind (stays_readU32 (by omega) fun _ s hs => ?_)
  refine stays_bind (stays_readU32 (by omega) fun _ s hs => ?_)
  refine stays_bind (stays_remaining ?_)
  refine stays_bind (stays_refuseIf (by decide) fun hlimits => ?_)
  simp only [not_or, not_lt] at hlimits
  refine stays_bind (stays_takeBytes (by omega) fun _ s _ hs => ?_)
  exact stays_bind (stays_takeBytes (by omega) fun _ s _ _ => stays_pure (h _ _))

theorem stays_readResources {count : ℕ} {s : Bytes} {Q : List ResourceReference → Bytes → Prop} (h : ∀ rs s', Q rs s') :
    Stays (readResources count) Q s := by
  induction count generalizing s Q with
  | zero => exact stays_pure (h _ _)
  | succ count ih =>
    refine stays_bind (stays_readResource fun r s => ?_)
    exact stays_bind (ih fun rs s' => stays_pure (h _ _))

theorem stays_readSnapshot {s : Bytes} (hs : 76 ≤ s.length) : Stays readSnapshot (fun _ _ => True) s := by
  unfold readSnapshot
  refine stays_bind (stays_readU16 (by omega) fun _ s hs => ?_)
  refine stays_bind (stays_readU16 (by omega) fun _ s hs => ?_)
  refine stays_bind (stays_readU64 (by omega) fun _ s hs => ?_)
  refine stays_bind (stays_readU64 (by omega) fun _ s hs => ?_)
  refine stays_bind (stays_readU64 (by omega) fun _ s hs => ?_)
  refine stays_bind (stays_readU64 (by omega) fun _ s hs => ?_)
  refine stays_bind (stays_readByte (by omega) fun _ s hs => ?_)
  refine stays_bind (stays_readByte (by omega) fun _ s hs => ?_)
  refine stays_bind (stays_readU16 (by omega) fun _ s hs => ?_)
  refine stays_bind (stays_readU32 (by omega) fun keyLength s hs => ?_)
  refine stays_bind (stays_readU32 (by omega) fun hashLength s hs => ?_)
  refine stays_bind (stays_readU32 (by omega) fun paramLength s hs => ?_)
  refine stays_bind (stays_readU32 (by omega) fun iemLength s hs => ?_)
  refine stays_bind (stays_readU32 (by omega) fun _ s hs => ?_)
  refine stays_bind (stays_readU64 (by omega) fun _ s hs => ?_)
  refine stays_bind (stays_readU64 (by omega) fun _ s hs => ?_)
  refine stays_bind (stays_refuseIf (by decide) fun _ => ?_)
  refine stays_bind (stays_remaining ?_)
  refine stays_bind (stays_refuseIf (by decide) fun hbody => ?_)
  have hbody := not_lt.mp hbody
  refine stays_bind (stays_takeBytes (by omega) fun _ s _ hs => ?_)
  refine stays_bind (stays_takeBytes (by omega) fun _ s _ hs => ?_)
  refine stays_bind (stays_takeBytes (by omega) fun _ s _ hs => ?_)
  refine stays_bind (stays_takeBytes (by omega) fun _ s _ _ => ?_)
  exact stays_bind (stays_readResources fun _ _ => stays_pure trivial)

/-- a check that refuses with a message of its own -/
theorem guard_message {c : Prop} [Decidable c] {e message : String} {rest : Except String Unit} (he : e ≠ message)
    (h : rest ≠ .error message) : (if c then .error e else rest) ≠ .error message := by
  split_ifs
  · exact fun heq => he (Except.error.inj heq)
  · exact h

/-- what the resource loop says when it refuses -/
def resourceMessages : List String :=
  ["resource_id is invalid", "resource content_sha256 must be 64 hex characters", "duplicate resource_id",
    "duplicate resource hash"]

theorem validateResources_message {message : String} (hmessage : message ∉ resourceMessages) {ids hashes : List Bytes}
    {resources : List ResourceReference} : validateResources ids hashes resources ≠ .error message := by
  simp only [resourceMessages, List.mem_cons, List.not_mem_nil, or_false, not_or] at hmessage
  obtain ⟨hid, hhash, htwice, hagain⟩ := hmessage
  induction resources generalizing ids hashes with
  | nil => exact fun h => nomatch h
  | cons r resources ih =>
    unfold validateResources
    refine guard_message (Ne.symm hid) ?_
    refine guard_message (Ne.symm hhash) ?_
    refine guard_message (Ne.symm htwice) ?_
    refine guard_message (Ne.symm hagain) ?_
    exact ih

theorem validateSnapshot_message {s : Snapshot} : validateSnapshotWith sha256Hex s ≠ .error outOfBounds := by
  unfold validateSnapshotWith
  iterate 12 refine guard_message (by decide) ?_
  exact validateResources_message (by decide)

theorem decodeSnapshot_inside (bytes : Bytes) : decodeSnapshotWith sha256Hex bytes ≠ .error outOfBounds := by
  unfold decodeSnapshotWith
  split_ifs with hheader hsize hmagic
  · decide
  · decide
  · decide
  have hlong : 80 ≤ bytes.length := not_lt.mp hheader
  have hstays := stays_readSnapshot (s := bytes.drop 4) (by rw [List.length_drop]; omega)
  cases hread : readSnapshot (bytes.drop 4) with
  | error e => exact fun h => hstays.inside (hread.trans (congrArg _ (Except.error.inj h)))
  | ok p =>
    dsimp only
    split_ifs
    · decide
    cases hvalid : validateSnapshotWith sha256Hex p.1 with
    | error e => exact fun h => validateSnapshot_message (hvalid.trans (congrArg _ (Except.error.inj h)))
    | ok u => exact fun h => nomatch h

end Digest

/-- **The snapshot format round trips.** Over every digest: what is encoded is within the size limit and is decoded
unchanged, what is decoded can be encoded and is decoded again unchanged, and on every input whatsoever the decoder reads
inside it and leaves its out-parameter alone when it fails. -/
theorem snapshot_round_trip (sha256Hex : Bytes → Bytes) :
    (∀ s out, encodeSnapshotWith sha256Hex s = .ok out →
      out.length ≤ kMaxSnapshotSize ∧ decodeSnapshotWith sha256Hex out = .ok s) ∧
    (∀ bytes s, decodeSnapshotWith sha256Hex bytes = .ok s →
      ∃ out, encodeSnapshotWith sha256Hex s = .ok out ∧ decodeSnapshotWith sha256Hex out = .ok s) ∧
    ∀ bytes, decodeSnapshotWith sha256Hex bytes ≠ .error outOfBounds ∧
      ∀ out, (decodeSnapshotInto sha256Hex bytes out).1 = false → (decodeSnapshotInto sha256Hex bytes out).2 = out := by
  refine ⟨fun s out h => ⟨encodeSnapshot_size h, decodeSnapshot_encode h⟩, fun bytes s h => ?_, fun bytes =>
    ⟨decodeSnapshot_inside bytes, fun out h => ?_⟩⟩
  · have hencode := encodeSnapshot_decode h
    exact ⟨snapshotBytes s, hencode, decodeSnapshot_encode hencode⟩
  · unfold decodeSnapshotInto at h ⊢
    cases hdecode : decodeSnapshotWith sha256Hex bytes with
    | error e => rfl
    | ok s => rw [hdecode] at h; cases h

end ViperFx.Protocol
