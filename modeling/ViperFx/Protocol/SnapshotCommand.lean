/-
The daemon-to-driver commands: `protocol/SnapshotCommand.cpp`.

A snapshot is streamed as BEGIN, CHUNK*, COMMIT, may be abandoned by ABORT, and is only looked at under the route the
daemon announced with ROUTE_ANNOUNCE. Each command is a fixed-size record (a chunk: a fixed header and its bytes).

Results:
  · decodeSnapshotBegin_encode, decodeRouteAnnounce_encode : what the daemon encodes is what the driver decodes
-/
import ViperFx.Protocol.SnapshotSchema

namespace ViperFx.Protocol

def kSnapshotCommandVersion : UInt16 := 1
def kSnapshotBeginWireSize : ℕ := 96
def kSnapshotChunkHeaderSize : ℕ := 16
def kSnapshotCommitWireSize : ℕ := 24
def kSnapshotAbortWireSize : ℕ := 16
def kRouteAnnounceWireSize : ℕ := 72
def kMaxSnapshotChunkBytes : ℕ := 64 * 1024

inductive SnapshotCommandType where
  | snapshotBegin
  | snapshotChunk
  | snapshotCommit
  | snapshotAbort
  | routeAnnounce
  deriving DecidableEq

namespace SnapshotCommandType

def code : SnapshotCommandType → UInt16
  | snapshotBegin => 100
  | snapshotChunk => 101
  | snapshotCommit => 102
  | snapshotAbort => 103
  | routeAnnounce => 104

/-- `static_cast<SnapshotCommandType>`, where there is such a type -/
def ofCode? (value : UInt16) : Option SnapshotCommandType :=
  if value = 100 then some snapshotBegin
  else if value = 101 then some snapshotChunk
  else if value = 102 then some snapshotCommit
  else if value = 103 then some snapshotAbort
  else if value = 104 then some routeAnnounce
  else none

end SnapshotCommandType

def isSnapshotCommandType (value : UInt16) : Bool :=
  SnapshotCommandType.snapshotBegin.code ≤ value && value ≤ SnapshotCommandType.routeAnnounce.code

structure SnapshotBegin where
  version : UInt16 := kSnapshotCommandVersion
  appGeneration : UInt64
  daemonGeneration : UInt64
  totalSize : UInt32
  crc32 : UInt32
  deviceKeyHash : Bytes
  deriving DecidableEq

structure SnapshotChunk where
  offset : UInt32
  data : Bytes
  deriving DecidableEq

structure SnapshotCommit where
  appGeneration : UInt64
  daemonGeneration : UInt64
  deriving DecidableEq

structure SnapshotAbort where
  reason : UInt32
  deriving DecidableEq

structure RouteAnnounce where
  version : UInt16 := kSnapshotCommandVersion
  deviceKeyHash : Bytes
  deriving DecidableEq

def isLowerHex (value : Bytes) : Bool :=
  value.length == 64 && value.all fun b => (48 ≤ b && b ≤ 57) || (97 ≤ b && b ≤ 102)

/-! ## BEGIN -/

def beginBytes (b : SnapshotBegin) : Bytes :=
  putU16 b.version ++ (putU16 0 ++ (putU32 b.totalSize ++ (putU64 b.appGeneration
    ++ (putU64 b.daemonGeneration ++ (putU32 b.crc32 ++ (putU32 0 ++ b.deviceKeyHash))))))

def encodeSnapshotBegin (b : SnapshotBegin) : Except String Bytes :=
  if b.version ≠ kSnapshotCommandVersion then .error "unsupported snapshot command version"
  else if !isLowerHex b.deviceKeyHash then .error "device_key_hash must be 64 lowercase hex characters"
  else if b.totalSize = 0 ∨ kMaxSnapshotSize < b.totalSize.toNat then .error "snapshot size is out of range"
  else if b.appGeneration = 0 ∨ b.daemonGeneration = 0 then .error "snapshot generations must be non-zero"
  else .ok (beginBytes b)

def readBegin : Reader SnapshotBegin := do
  let version ← readU16
  refuseIf (version ≠ kSnapshotCommandVersion) "unsupported snapshot command version"
  let reserved ← readU16
  refuseIf (reserved ≠ 0) "reserved field must be zero"
  let totalSize ← readU32
  let appGeneration ← readU64
  let daemonGeneration ← readU64
  let crc32 ← readU32
  let reserved ← readU32
  refuseIf (reserved ≠ 0) "reserved field must be zero"
  let deviceKeyHash ← takeBytes 64
  refuseIf (isLowerHex deviceKeyHash = false) "device_key_hash must be 64 lowercase hex characters"
  refuseIf (totalSize = 0 ∨ kMaxSnapshotSize < totalSize.toNat) "snapshot size is out of range"
  refuseIf (appGeneration = 0 ∨ daemonGeneration = 0) "snapshot generations must be non-zero"
  pure ⟨version, appGeneration, daemonGeneration, totalSize, crc32, deviceKeyHash⟩

def decodeSnapshotBegin (bytes : Bytes) : Except String SnapshotBegin :=
  if bytes.length ≠ kSnapshotBeginWireSize then .error "snapshot begin size mismatch"
  else Prod.fst <$> readBegin bytes

/-! ## CHUNK -/

def chunkBytes (c : SnapshotChunk) : Bytes :=
  putU32 c.offset ++ (putU32 (UInt32.ofNat c.data.length) ++ (putU64 0 ++ c.data))

def encodeSnapshotChunk (c : SnapshotChunk) : Except String Bytes :=
  if c.data.isEmpty ∨ kMaxSnapshotChunkBytes < c.data.length then .error "snapshot chunk size is out of range"
  else .ok (chunkBytes c)

def readChunk : Reader SnapshotChunk := do
  let offset ← readU32
  let length ← readU32
  let reserved ← readU64
  refuseIf (reserved ≠ 0) "reserved field must be zero"
  refuseIf (length = 0 ∨ kMaxSnapshotChunkBytes < length.toNat) "snapshot chunk size is out of range"
  refuseIf ((← remaining) ≠ length.toNat) "snapshot chunk length does not match the frame"
  let data ← get
  pure ⟨offset, data⟩

def decodeSnapshotChunk (bytes : Bytes) : Except String SnapshotChunk :=
  if bytes.length < kSnapshotChunkHeaderSize then .error "snapshot chunk header is truncated"
  else Prod.fst <$> readChunk bytes

/-! ## COMMIT and ABORT -/

def commitBytes (c : SnapshotCommit) : Bytes :=
  putU64 c.appGeneration ++ (putU64 c.daemonGeneration ++ putU64 0)

def encodeSnapshotCommit (c : SnapshotCommit) : Except String Bytes :=
  if c.appGeneration = 0 ∨ c.daemonGeneration = 0 then .error "snapshot generations must be non-zero"
  else .ok (commitBytes c)

def readCommit : Reader SnapshotCommit := do
  let appGeneration ← readU64
  let daemonGeneration ← readU64
  let reserved ← readU64
  refuseIf (reserved ≠ 0) "reserved field must be zero"
  refuseIf (appGeneration = 0 ∨ daemonGeneration = 0) "snapshot generations must be non-zero"
  pure ⟨appGeneration, daemonGeneration⟩

def decodeSnapshotCommit (bytes : Bytes) : Except String SnapshotCommit :=
  if bytes.length ≠ kSnapshotCommitWireSize then .error "snapshot commit size mismatch"
  else Prod.fst <$> readCommit bytes

def encodeSnapshotAbort (a : SnapshotAbort) : Bytes := putU32 a.reason ++ (putU32 0 ++ putU64 0)

def readAbort : Reader SnapshotAbort := do
  let reason ← readU32
  let reserved ← readU32
  let reserved' ← readU64
  refuseIf (reserved ≠ 0 ∨ reserved' ≠ 0) "reserved field must be zero"
  pure ⟨reason⟩

def decodeSnapshotAbort (bytes : Bytes) : Except String SnapshotAbort :=
  if bytes.length ≠ kSnapshotAbortWireSize then .error "snapshot abort size mismatch"
  else Prod.fst <$> readAbort bytes

/-! ## ROUTE_ANNOUNCE -/

def announceBytes (a : RouteAnnounce) : Bytes :=
  putU16 a.version ++ (putU16 0 ++ (putU32 (UInt32.ofNat a.deviceKeyHash.length)
    ++ (a.deviceKeyHash ++ List.replicate (64 - a.deviceKeyHash.length) 0)))

def encodeRouteAnnounce (a : RouteAnnounce) : Except String Bytes :=
  if a.version ≠ kSnapshotCommandVersion then .error "unsupported snapshot command version"
  else if !a.deviceKeyHash.isEmpty ∧ !isLowerHex a.deviceKeyHash then
    .error "device_key_hash must be 64 lowercase hex characters or empty"
  else .ok (announceBytes a)

def readAnnounce : Reader RouteAnnounce := do
  let version ← readU16
  refuseIf (version ≠ kSnapshotCommandVersion) "unsupported snapshot command version"
  let reserved ← readU16
  refuseIf (reserved ≠ 0) "reserved field must be zero"
  let length ← readU32
  refuseIf (length ≠ 0 ∧ length ≠ 64) "device_key_hash length must be 0 or 64"
  if length = 0 then pure ⟨version, []⟩
  else do
    let deviceKeyHash ← takeBytes length.toNat
    refuseIf (isLowerHex deviceKeyHash = false) "device_key_hash must be 64 lowercase hex characters"
    pure ⟨version, deviceKeyHash⟩

def decodeRouteAnnounce (bytes : Bytes) : Except String RouteAnnounce :=
  if bytes.length ≠ kRouteAnnounceWireSize then .error "route announce size mismatch"
  else Prod.fst <$> readAnnounce bytes

/-! ## Round trips -/

theorem isLowerHex_length {value : Bytes} (h : isLowerHex value = true) : value.length = 64 := by
  simp only [isLowerHex, Bool.and_eq_true, beq_iff_eq] at h
  exact h.1

/-- what both sides of BEGIN check -/
structure SnapshotBegin.Passes (b : SnapshotBegin) : Prop where
  version : b.version = kSnapshotCommandVersion
  hash : isLowerHex b.deviceKeyHash = true
  size : ¬ (b.totalSize = 0 ∨ kMaxSnapshotSize < b.totalSize.toNat)
  generations : ¬ (b.appGeneration = 0 ∨ b.daemonGeneration = 0)

theorem encodeSnapshotBegin_iff {b : SnapshotBegin} {out : Bytes} :
    encodeSnapshotBegin b = .ok out ↔ b.Passes ∧ out = beginBytes b := by
  simp only [encodeSnapshotBegin, guard_iff, ne_eq, not_not, Bool.not_eq_true', Bool.not_eq_false, Except.ok.injEq]
  constructor
  · rintro ⟨hversion, hhash, hsize, hgenerations, rfl⟩
    exact ⟨⟨hversion, hhash, hsize, hgenerations⟩, rfl⟩
  · rintro ⟨h, rfl⟩
    exact ⟨h.version, h.hash, h.size, h.generations, rfl⟩

theorem decodeSnapshotBegin_iff {b : SnapshotBegin} {bytes : Bytes} :
    decodeSnapshotBegin bytes = .ok b ↔ b.Passes ∧ bytes = beginBytes b := by
  simp only [decodeSnapshotBegin, guard_iff, fst_iff, readBegin, bind_iff, readU16_iff, readU32_iff, readU64_iff,
    takeBytes_iff, refuseIf_iff, pure_iff, ne_eq, not_not, Bool.not_eq_false]
  constructor
  · rintro ⟨hwire, rest, version, s, rfl, -, s, ⟨hversion, rfl⟩, _, s, rfl, -, s, ⟨rfl, rfl⟩, total, s, rfl, app, s, rfl,
      daemon, s, rfl, crc, s, rfl, _, s, rfl, -, s, ⟨rfl, rfl⟩, hash, s, ⟨rfl, hlength⟩, -, s, ⟨hhash, rfl⟩, -, s,
      ⟨hsize, rfl⟩, -, s, ⟨hgenerations, rfl⟩, rfl, rfl⟩
    simp only [List.length_append, putU16_length, putU32_length, putU64_length, hlength, kSnapshotBeginWireSize] at hwire
    obtain rfl : s = [] := List.length_eq_zero_iff.mp (by omega)
    refine ⟨⟨hversion, hhash, hsize, hgenerations⟩, ?_⟩
    rw [beginBytes, List.append_nil]
  · rintro ⟨h, rfl⟩
    have hlength := isLowerHex_length h.hash
    have hwire : (beginBytes b).length = kSnapshotBeginWireSize := by
      simp [beginBytes, hlength, kSnapshotBeginWireSize]
    exact ⟨hwire, [], _, _, rfl, (), _, ⟨h.version, rfl⟩, _, _, rfl, (), _, ⟨rfl, rfl⟩, _, _, rfl, _, _, rfl, _, _, rfl,
      _, _, rfl, _, _, rfl, (), _, ⟨rfl, rfl⟩, _, _, ⟨(List.append_nil _).symm, hlength⟩, (), _, ⟨h.hash, rfl⟩, (), _,
      ⟨h.size, rfl⟩, (), _, ⟨h.generations, rfl⟩, rfl, rfl⟩

/-- **BEGIN round trip.** Whatever `EncodeSnapshotBegin` accepts, `DecodeSnapshotBegin` reads back unchanged. -/
theorem decodeSnapshotBegin_encode (b : SnapshotBegin) (out : Bytes) (h : encodeSnapshotBegin b = .ok out) :
    decodeSnapshotBegin out = .ok b := decodeSnapshotBegin_iff.mpr (encodeSnapshotBegin_iff.mp h)

/-- an accepted BEGIN declares a size within the limit -/
theorem decodeSnapshotBegin_size {payload : Bytes} {b : SnapshotBegin} (h : decodeSnapshotBegin payload = .ok b) :
    b.totalSize.toNat ≤ kMaxSnapshotSize := by
  have hsize := (decodeSnapshotBegin_iff.mp h).1.size
  push Not at hsize
  exact hsize.2

theorem encodeSnapshotChunk_iff {c : SnapshotChunk} {out : Bytes} :
    encodeSnapshotChunk c = .ok out ↔ (c.data ≠ [] ∧ c.data.length ≤ kMaxSnapshotChunkBytes) ∧ out = chunkBytes c := by
  simp only [encodeSnapshotChunk, guard_iff, not_or, not_lt, List.isEmpty_iff, Except.ok.injEq, ne_eq]
  exact and_congr_right fun _ => eq_comm

theorem decodeSnapshotChunk_iff {c : SnapshotChunk} {bytes : Bytes} :
    decodeSnapshotChunk bytes = .ok c ↔
      (c.data ≠ [] ∧ c.data.length ≤ kMaxSnapshotChunkBytes) ∧ bytes = chunkBytes c := by
  simp only [decodeSnapshotChunk, guard_iff, fst_iff, readChunk, bind_iff, readU32_iff, readU64_iff, refuseIf_iff,
    remaining_iff, get_iff, pure_iff, ne_eq, not_not, not_or, not_lt]
  constructor
  · rintro ⟨-, rest, offset, s, rfl, length, s, rfl, _, s, rfl, -, s, ⟨rfl, rfl⟩, -, s, ⟨hlength, rfl⟩, _, s, ⟨rfl, rfl⟩, -, s,
      ⟨hdata, rfl⟩, _, s, ⟨rfl, rfl⟩, rfl, rfl⟩
    refine ⟨⟨?_, hdata ▸ hlength.2⟩, ?_⟩
    · rintro rfl
      exact hlength.1 (UInt32.toNat_inj.mp hdata.symm)
    · rw [chunkBytes, hdata, UInt32.ofNat_toNat]
  · rintro ⟨⟨hdata, hmax⟩, rfl⟩
    have hlength := toNat_size hmax (by decide)
    have hwire : kSnapshotChunkHeaderSize ≤ (chunkBytes c).length := by
      simp only [chunkBytes, List.length_append, putU32_length, putU64_length, kSnapshotChunkHeaderSize]
      omega
    have hzero : UInt32.ofNat c.data.length ≠ 0 := by
      intro hz
      rw [hz] at hlength
      exact hdata (List.length_eq_zero_iff.mp hlength.symm)
    exact ⟨hwire, _, _, _, rfl, _, _, rfl, _, _, rfl, (), _, ⟨rfl, rfl⟩, (), _, ⟨⟨hzero, hlength.le.trans hmax⟩, rfl⟩, _, _,
      ⟨rfl, rfl⟩, (), _, ⟨hlength.symm, rfl⟩, _, _, ⟨rfl, rfl⟩, rfl, rfl⟩

/-- **CHUNK round trip.** -/
theorem decodeSnapshotChunk_encode (c : SnapshotChunk) (out : Bytes) (h : encodeSnapshotChunk c = .ok out) :
    decodeSnapshotChunk out = .ok c := decodeSnapshotChunk_iff.mpr (encodeSnapshotChunk_iff.mp h)

theorem encodeSnapshotCommit_iff {c : SnapshotCommit} {out : Bytes} :
    encodeSnapshotCommit c = .ok out ↔ ¬ (c.appGeneration = 0 ∨ c.daemonGeneration = 0) ∧ out = commitBytes c := by
  simp only [encodeSnapshotCommit, guard_iff, Except.ok.injEq]
  exact and_congr_right fun _ => eq_comm

theorem decodeSnapshotCommit_iff {c : SnapshotCommit} {bytes : Bytes} :
    decodeSnapshotCommit bytes = .ok c ↔ ¬ (c.appGeneration = 0 ∨ c.daemonGeneration = 0) ∧ bytes = commitBytes c := by
  simp only [decodeSnapshotCommit, guard_iff, fst_iff, readCommit, bind_iff, readU64_iff, refuseIf_iff, pure_iff, ne_eq,
    not_not]
  constructor
  · rintro ⟨hwire, rest, app, s, rfl, daemon, s, rfl, _, s, rfl, -, s, ⟨rfl, rfl⟩, -, s, ⟨hgenerations, rfl⟩, rfl, rfl⟩
    simp only [List.length_append, putU64_length, kSnapshotCommitWireSize] at hwire
    obtain rfl : s = [] := List.length_eq_zero_iff.mp (by omega)
    refine ⟨hgenerations, ?_⟩
    rw [commitBytes, List.append_nil]
  · rintro ⟨hgenerations, rfl⟩
    exact ⟨rfl, [], _, _, rfl, _, _, rfl, _, _, (List.append_nil _).symm, (), _, ⟨rfl, rfl⟩, (), _, ⟨hgenerations, rfl⟩, rfl,
      rfl⟩

theorem decodeSnapshotAbort_iff {a : SnapshotAbort} {bytes : Bytes} :
    decodeSnapshotAbort bytes = .ok a ↔ bytes = encodeSnapshotAbort a := by
  simp only [decodeSnapshotAbort, guard_iff, fst_iff, readAbort, bind_iff, readU32_iff, readU64_iff, refuseIf_iff, pure_iff,
    ne_eq, not_not, not_or]
  constructor
  · rintro ⟨hwire, rest, reason, s, rfl, _, s, rfl, _, s, rfl, -, s, ⟨⟨rfl, rfl⟩, rfl⟩, rfl, rfl⟩
    simp only [List.length_append, putU32_length, putU64_length, kSnapshotAbortWireSize] at hwire
    obtain rfl : s = [] := List.length_eq_zero_iff.mp (by omega)
    rw [encodeSnapshotAbort, List.append_nil]
  · rintro rfl
    exact ⟨rfl, [], _, _, rfl, _, _, rfl, _, _, (List.append_nil _).symm, (), _, ⟨⟨rfl, rfl⟩, rfl⟩, rfl, rfl⟩

/-- what both sides of ROUTE_ANNOUNCE check -/
structure RouteAnnounce.Passes (a : RouteAnnounce) : Prop where
  version : a.version = kSnapshotCommandVersion
  hash : a.deviceKeyHash = [] ∨ isLowerHex a.deviceKeyHash = true

theorem encodeRouteAnnounce_iff {a : RouteAnnounce} {out : Bytes} :
    encodeRouteAnnounce a = .ok out ↔ a.Passes ∧ out = announceBytes a := by
  simp only [encodeRouteAnnounce, guard_iff, ne_eq, not_not, Bool.not_eq_true', not_and, Bool.not_eq_false,
    Except.ok.injEq]
  constructor
  · rintro ⟨hversion, hhash, rfl⟩
    refine ⟨⟨hversion, ?_⟩, rfl⟩
    by_cases hempty : a.deviceKeyHash = []
    · exact .inl hempty
    · exact .inr (hhash (by simpa using hempty))
  · rintro ⟨h, rfl⟩
    refine ⟨h.version, fun hne => ?_, rfl⟩
    rcases h.hash with hempty | hhash
    · rw [hempty] at hne
      cases hne
    · exact hhash

/-- the bytes behind an empty hash are not looked at, so a decoded announce does not fix its bytes -/
theorem decodeRouteAnnounce_passes {a : RouteAnnounce} {bytes : Bytes} (h : decodeRouteAnnounce bytes = .ok a) :
    a.Passes := by
  simp only [decodeRouteAnnounce, guard_iff, fst_iff, readAnnounce, bind_iff, readU16_iff, readU32_iff, refuseIf_iff, ne_eq,
    not_not] at h
  obtain ⟨-, rest, version, s, -, -, s, ⟨hversion, -⟩, _, s, -, -, s, -, length, s, -, -, s, -, h⟩ := h
  split_ifs at h with hzero
  · obtain ⟨rfl, -⟩ := pure_iff.mp h
    exact ⟨hversion, .inl rfl⟩
  · simp only [bind_iff, refuseIf_iff, pure_iff, Bool.not_eq_false] at h
    obtain ⟨hash, s, -, -, s, ⟨hhash, -⟩, rfl, -⟩ := h
    exact ⟨hversion, .inr hhash⟩

theorem decodeRouteAnnounce_current {a : RouteAnnounce} {bytes : Bytes} (h : decodeRouteAnnounce bytes = .ok a) :
    decodeRouteAnnounce bytes = .ok { deviceKeyHash := a.deviceKeyHash } := by
  rw [h, ← (decodeRouteAnnounce_passes h).version]

/-- **ROUTE_ANNOUNCE round trip.** The driver adopts exactly the hash the daemon announced, the empty one included. -/
theorem decodeRouteAnnounce_encode (a : RouteAnnounce) (out : Bytes) (h : encodeRouteAnnounce a = .ok out) :
    decodeRouteAnnounce out = .ok a := by
  obtain ⟨hpasses, rfl⟩ := encodeRouteAnnounce_iff.mp h
  simp only [decodeRouteAnnounce, guard_iff, fst_iff, readAnnounce, bind_iff, readU16_iff, readU32_iff, refuseIf_iff, ne_eq,
    not_not]
  rcases hpasses.hash with hempty | hhash
  · obtain ⟨version, hash⟩ := a
    obtain rfl : hash = [] := hempty
    exact ⟨rfl, _, _, _, rfl, (), _, ⟨hpasses.version, rfl⟩, _, _, rfl, (), _, ⟨rfl, rfl⟩, _, _, rfl, (), _,
      ⟨fun h => h.1 rfl, rfl⟩, rfl⟩
  · have hlength := isLowerHex_length hhash
    have hwire : (announceBytes a).length = kRouteAnnounceWireSize := by
      simp [announceBytes, hlength, kRouteAnnounceWireSize]
    refine ⟨hwire, [], _, _, rfl, (), _, ⟨hpasses.version, rfl⟩, _, _, rfl, (), _, ⟨rfl, rfl⟩, _, _, rfl, (), _, ⟨?_, rfl⟩, ?_⟩
    · rw [hlength]
      decide
    · rw [hlength, if_neg (by decide)]
      simp only [bind_iff, takeBytes_iff, refuseIf_iff, pure_iff, Bool.not_eq_false]
      exact ⟨a.deviceKeyHash, [], ⟨rfl, hlength⟩, (), _, ⟨hhash, rfl⟩, rfl, rfl⟩

end ViperFx.Protocol
