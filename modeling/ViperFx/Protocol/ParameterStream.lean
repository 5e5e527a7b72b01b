/-
The raw parameter records of a snapshot: `protocol/ParameterStream.cpp`.

The numbers of the array parameters live in ViPERParams.h of the ViPERDSP submodule, which is not part of the
repository; they are the fields of `ParamIds`. Nothing here needs them to differ from each other: a switch with two equal
labels would not compile, and the chains of tests below agree on which label goes first.

Results:
  · validateRawParamRecord_iff : a record is accepted with exactly the payload the driver will read
  · encodeParameterStream_iff, decodeParameterStream_iff : the two directions of the format, as one condition on records
-/
import ViperFx.Protocol.SnapshotSchema

namespace ViperFx.Protocol

/-- the parameter numbers `RequiredPayloadBytes` and `DspResources::CaptureRaw` switch on -/
structure ParamIds where
  convolverPrepareBuffer : Int32
  convolverSetBuffer : Int32
  convolverCommitBuffer : Int32
  ddcCoefficients : Int32
  equalizerBandLevels : Int32

structure RawParamRecord where
  param : Int32
  val1 : Int32
  val2 : Int32
  val3 : Int32
  arrSize : UInt32
  payload : Bytes
  deriving DecidableEq

def kParameterStreamVersion : UInt16 := 1
def kParameterStreamHeaderSize : ℕ := 12
def kParameterRecordHeaderSize : ℕ := 24
def kMaxParameterRecords : ℕ := 512
def kMaxRecordPayloadBytes : ℕ := 8192
def kMaxParameterStreamBytes : ℕ := 1024 * 1024

/-- "V4AP" -/
def kParameterMagic : Bytes := ascii ['V', '4', 'A', 'P']

def requiredPayloadBytes (ids : ParamIds) (param : Int32) (arrSize : UInt32) : ℕ :=
  if param = ids.convolverSetBuffer then arrSize.toNat * 4
  else if param = ids.ddcCoefficients then arrSize.toNat * 2 * 4
  else if param = ids.equalizerBandLevels then arrSize.toNat * 4
  else 0

def validateRawParamRecord (ids : ParamIds) (r : RawParamRecord) : Except String Unit :=
  if kMaxRecordPayloadBytes < r.payload.length then .error "parameter record payload is too large"
  else if kMaxRecordPayloadBytes < r.arrSize.toNat then .error "parameter record arr_size is too large"
  else
    let required := requiredPayloadBytes ids r.param r.arrSize
    if required = 0 then
      if !r.payload.isEmpty ∨ r.arrSize ≠ 0 then .error "scalar parameter must not carry an array payload"
      else .ok ()
    else if kMaxRecordPayloadBytes < required then
      .error "parameter record requires more payload than the driver accepts"
    else if r.payload.length ≠ required then .error "parameter record payload does not match arr_size"
    else .ok ()

/-! ## Encoding -/

def putI32 (value : Int32) : Bytes := putU32 value.toUInt32

def recordBytes (r : RawParamRecord) : Bytes :=
  putI32 r.param ++ (putI32 r.val1 ++ (putI32 r.val2 ++ (putI32 r.val3 ++ (putU32 r.arrSize ++ (putSize r.payload
    ++ r.payload)))))

def streamBytes (records : List RawParamRecord) : Bytes :=
  kParameterMagic ++ (putU16 kParameterStreamVersion ++ (putU16 0 ++ (putU32 (UInt32.ofNat records.length)
    ++ records.flatMap recordBytes)))

/-- the first loop of `EncodeParameterStream`, with its running total -/
def checkRecords (ids : ParamIds) : ℕ → List RawParamRecord → Except String ℕ
  | total, [] => .ok total
  | total, r :: rest =>
    match validateRawParamRecord ids r with
    | .error e => .error e
    | .ok () =>
      let total := total + (kParameterRecordHeaderSize + r.payload.length)
      if kMaxParameterStreamBytes < total then .error "parameter stream is too large"
      else checkRecords ids total rest

/-- the last test returns false and says nothing -/
def encodeParameterStream (ids : ParamIds) (records : List RawParamRecord) : Except String Bytes :=
  if kMaxParameterRecords < records.length then .error "too many parameter records"
  else
    match checkRecords ids kParameterStreamHeaderSize records with
    | .error e => .error e
    | .ok total =>
      let out := streamBytes records
      if out.length ≠ total then .error "" else .ok out

/-! ## Decoding -/

def readI32 : Reader Int32 := UInt32.toInt32 <$> readU32

def readRecord (ids : ParamIds) : Reader RawParamRecord := do
  refuseIf ((← remaining) < kParameterRecordHeaderSize) "parameter record header is truncated"
  let param ← readI32
  let val1 ← readI32
  let val2 ← readI32
  let val3 ← readI32
  let arrSize ← readU32
  let payloadLength ← readU32
  refuseIf (kMaxRecordPayloadBytes < payloadLength.toNat) "parameter record payload is too large"
  refuseIf ((← remaining) < payloadLength.toNat) "parameter record payload is truncated"
  let payload ← takeBytes payloadLength.toNat
  let record : RawParamRecord := ⟨param, val1, val2, val3, arrSize, payload⟩
  match validateRawParamRecord ids record with
  | .error e => throw e
  | .ok () => pure record

def readRecords (ids : ParamIds) : ℕ → Reader (List RawParamRecord)
  | 0 => pure []
  | count + 1 => do
    let r ← readRecord ids
    let rest ← readRecords ids count
    pure (r :: rest)

def readParameterStream (ids : ParamIds) : Reader (List RawParamRecord) := do
  let magic ← takeBytes 4
  refuseIf (magic ≠ kParameterMagic) "bad parameter stream magic"
  let version ← readU16
  refuseIf (version ≠ kParameterStreamVersion) "unsupported parameter stream version"
  let reserved ← readU16
  refuseIf (reserved ≠ 0) "reserved parameter stream field must be zero"
  let count ← readU32
  refuseIf (kMaxParameterRecords < count.toNat) "too many parameter records"
  let records ← readRecords ids count.toNat
  refuseIf (0 < (← remaining)) "parameter stream has trailing bytes"
  pure records

/-- an absent stream is valid and means "no parameters" -/
def decodeParameterStream (ids : ParamIds) (bytes : Bytes) : Except String (List RawParamRecord) :=
  if bytes.isEmpty then .ok []
  else if kMaxParameterStreamBytes < bytes.length then .error "parameter stream is too large"
  else if bytes.length < kParameterStreamHeaderSize then .error "parameter stream is truncated"
  else Prod.fst <$> readParameterStream ids bytes

/-! ## Records -/

section

variable {ids : ParamIds} {s s' : Bytes}

theorem validateRawParamRecord_iff {r : RawParamRecord} :
    validateRawParamRecord ids r = .ok () ↔
      r.payload.length = requiredPayloadBytes ids r.param r.arrSize ∧ r.payload.length ≤ kMaxRecordPayloadBytes ∧
        r.arrSize.toNat ≤ kMaxRecordPayloadBytes ∧ (requiredPayloadBytes ids r.param r.arrSize = 0 → r.arrSize = 0) := by
  unfold validateRawParamRecord
  dsimp only
  split_ifs with hpayload harr hscalar hempty hlimit hmatch
  · simp only [false_iff]
    omega
  · simp only [false_iff]
    omega
  · simp only [false_iff]
    rintro ⟨hlength, -, -, hzero⟩
    rw [hscalar] at hlength
    have hnil := List.length_eq_zero_iff.mp hlength
    rcases hempty with hpay | harrSize
    · rw [hnil] at hpay
      cases hpay
    · exact harrSize (hzero hscalar)
  · simp only [not_or, not_not, Bool.not_eq_true', Bool.not_eq_false, List.isEmpty_iff] at hempty
    simp only [true_iff]
    refine ⟨?_, not_lt.mp hpayload, not_lt.mp harr, fun _ => hempty.2⟩
    rw [hempty.1, hscalar]
    rfl
  · simp only [false_iff]
    omega
  · simp only [false_iff]
    exact fun h => hmatch h.1
  · simp only [true_iff]
    exact ⟨not_not.mp hmatch, not_lt.mp hpayload, not_lt.mp harr, fun hzero => absurd hzero hscalar⟩

@[simp] theorem putI32_length (value : Int32) : (putI32 value).length = 4 := putU32_length _

theorem readI32_iff {v : Int32} : readI32 s = .ok (v, s') ↔ s = putI32 v ++ s' := by
  constructor
  · intro h
    obtain ⟨w, hw, rfl⟩ := map_inv h
    rw [putI32, UInt32.toUInt32_toInt32]
    exact readU32_iff.mp hw
  · rintro rfl
    have hread := readU32_put v.toUInt32 s'
    show (do let p ← readU32 (putI32 v ++ s'); pure (p.1.toInt32, p.2)) = _
    rw [putI32, hread]
    rfl

theorem recordBytes_length (r : RawParamRecord) :
    (recordBytes r).length = kParameterRecordHeaderSize + r.payload.length := by
  simp only [recordBytes, putSize, List.length_append, putI32_length, putU32_length, kParameterRecordHeaderSize]
  omega

theorem readRecord_iff {r : RawParamRecord} :
    readRecord ids s = .ok (r, s') ↔ validateRawParamRecord ids r = .ok () ∧ s = recordBytes r ++ s' := by
  simp only [readRecord, bind_iff, remaining_iff, refuseIf_iff, readI32_iff, readU32_iff, takeBytes_iff]
  constructor
  · rintro ⟨_, s, ⟨-, rfl⟩, -, s, ⟨-, rfl⟩, param, s, rfl, val1, s, rfl, val2, s, rfl, val3, s, rfl, arrSize, s, rfl, length,
      s, rfl, -, s, ⟨-, rfl⟩, _, s, ⟨-, rfl⟩, -, s, ⟨-, rfl⟩, payload, s, ⟨rfl, hlength⟩, hend⟩
    cases hvalid : validateRawParamRecord ids ⟨param, val1, val2, val3, arrSize, payload⟩ with
    | error e => rw [hvalid] at hend; cases hend
    | ok u =>
      rw [hvalid] at hend
      obtain ⟨rfl, rfl⟩ := pure_iff.mp hend
      refine ⟨hvalid, ?_⟩
      simp only [recordBytes, putSize_read hlength, List.append_assoc]
  · rintro ⟨hvalid, rfl⟩
    obtain ⟨-, hmax, -, -⟩ := validateRawParamRecord_iff.mp hvalid
    have hlength := toNat_size hmax (by decide)
    have hheader : ¬ (recordBytes r ++ s').length < kParameterRecordHeaderSize := by
      rw [List.length_append, recordBytes_length]
      omega
    refine ⟨_, _, ⟨rfl, rfl⟩, (), _, ⟨hheader, rfl⟩, r.param, _, ?_, r.val1, _, rfl, r.val2, _, rfl, r.val3, _, rfl, r.arrSize,
      _, rfl, UInt32.ofNat r.payload.length, r.payload ++ s', rfl, (), _, ⟨?_, rfl⟩, _, _, ⟨rfl, rfl⟩, (), _, ⟨?_, rfl⟩,
      r.payload, s', ⟨rfl, hlength.symm⟩, ?_⟩
    · simp only [recordBytes, putSize, List.append_assoc]
    · rw [hlength]
      exact not_lt.mpr hmax
    · rw [hlength, List.length_append]
      omega
    · rw [hvalid]
      rfl

theorem readRecords_iff {count : ℕ} {records : List RawParamRecord} :
    readRecords ids count s = .ok (records, s') ↔
      records.length = count ∧ (∀ r ∈ records, validateRawParamRecord ids r = .ok ()) ∧
        s = records.flatMap recordBytes ++ s' := by
  induction count generalizing s s' records with
  | zero =>
    rw [readRecords, pure_iff]
    constructor
    · rintro ⟨rfl, rfl⟩
      exact ⟨rfl, fun r hr => (nomatch hr), rfl⟩
    · rintro ⟨hlength, -, rfl⟩
      obtain rfl := List.length_eq_zero_iff.mp hlength
      exact ⟨rfl, rfl⟩
  | succ count ih =>
    simp only [readRecords, bind_iff, readRecord_iff, ih, pure_iff]
    constructor
    · rintro ⟨r, t, ⟨hr, rfl⟩, rest, t', ⟨rfl, hrest, rfl⟩, rfl, rfl⟩
      refine ⟨rfl, List.forall_mem_cons.mpr ⟨hr, hrest⟩, ?_⟩
      rw [List.flatMap_cons, List.append_assoc]
    · rintro ⟨hlength, hvalid, rfl⟩
      obtain ⟨r, rest, rfl⟩ := List.exists_cons_of_length_eq_add_one hlength
      obtain ⟨hr, hrest⟩ := List.forall_mem_cons.mp hvalid
      refine ⟨r, rest.flatMap recordBytes ++ s', ⟨hr, ?_⟩, rest, s', ⟨Nat.succ.inj hlength, hrest, rfl⟩, rfl, rfl⟩
      rw [List.flatMap_cons, List.append_assoc]

/-! ## Streams -/

/-- the records a stream may carry -/
structure Streamable (ids : ParamIds) (records : List RawParamRecord) : Prop where
  count : records.length ≤ kMaxParameterRecords
  valid : ∀ r ∈ records, validateRawParamRecord ids r = .ok ()
  size : (streamBytes records).length ≤ kMaxParameterStreamBytes

theorem streamBytes_length (records : List RawParamRecord) :
    (streamBytes records).length = kParameterStreamHeaderSize + (records.flatMap recordBytes).length := by
  have hmagic : kParameterMagic.length = 4 := rfl
  simp only [streamBytes, List.length_append, putU16_length, putU32_length, hmagic, kParameterStreamHeaderSize]
  omega

theorem streamBytes_ne_nil (records : List RawParamRecord) : streamBytes records ≠ [] := by
  intro h
  have hlength := streamBytes_length records
  rw [h, List.length_nil, kParameterStreamHeaderSize] at hlength
  omega

theorem checkRecords_iff {start total : ℕ} {records : List RawParamRecord} (hstart : start ≤ kMaxParameterStreamBytes) :
    checkRecords ids start records = .ok total ↔
      (∀ r ∈ records, validateRawParamRecord ids r = .ok ()) ∧ total = start + (records.flatMap recordBytes).length ∧
        total ≤ kMaxParameterStreamBytes := by
  induction records generalizing start with
  | nil =>
    simp only [checkRecords, Except.ok.injEq, List.not_mem_nil, false_implies, implies_true, List.flatMap_nil,
      List.length_nil, Nat.add_zero, true_and]
    omega
  | cons r rest ih =>
    rw [checkRecords, List.forall_mem_cons, List.flatMap_cons, List.length_append, recordBytes_length]
    cases hvalid : validateRawParamRecord ids r with
    | error e => simp only [reduceCtorEq, false_and]
    | ok u =>
      dsimp only
      split_ifs with hlarge
      · simp only [true_and, false_iff]
        omega
      · rw [ih (not_lt.mp hlarge)]
        simp only [true_and, Nat.add_assoc]

theorem encodeParameterStream_iff {records : List RawParamRecord} {out : Bytes} :
    encodeParameterStream ids records = .ok out ↔ Streamable ids records ∧ out = streamBytes records := by
  have hstart : kParameterStreamHeaderSize ≤ kMaxParameterStreamBytes := by decide
  unfold encodeParameterStream
  constructor
  · intro h
    split_ifs at h with hcount
    cases hcheck : checkRecords ids kParameterStreamHeaderSize records with
    | error e => rw [hcheck] at h; cases h
    | ok total =>
      rw [hcheck] at h
      dsimp only at h
      split_ifs at h with htotal
      obtain ⟨hvalid, -, hsize⟩ := (checkRecords_iff hstart).mp hcheck
      exact ⟨⟨not_lt.mp hcount, hvalid, not_not.mp htotal ▸ hsize⟩, (Except.ok.inj h).symm⟩
  · rintro ⟨hstream, rfl⟩
    have hcheck : checkRecords ids kParameterStreamHeaderSize records = .ok (streamBytes records).length :=
      (checkRecords_iff hstart).mpr ⟨hstream.valid, streamBytes_length records, hstream.size⟩
    rw [if_neg (not_lt.mpr hstream.count), hcheck]
    exact if_neg (not_not.mpr rfl)

theorem decodeParameterStream_iff {records : List RawParamRecord} {bytes : Bytes} (hbytes : bytes ≠ []) :
    decodeParameterStream ids bytes = .ok records ↔ Streamable ids records ∧ bytes = streamBytes records := by
  have hempty : ¬ bytes.isEmpty := by rwa [List.isEmpty_iff]
  unfold decodeParameterStream
  rw [if_neg hempty]
  constructor
  · intro h
    split_ifs at h with hlarge hshort
    simp only [fst_iff, readParameterStream, bind_iff, takeBytes_iff, refuseIf_iff, readU16_iff, readU32_iff, readRecords_iff,
      remaining_iff, pure_iff] at h
    obtain ⟨rest, magic, s, ⟨rfl, -⟩, -, s, ⟨hmagic, rfl⟩, version, s, rfl, -, s, ⟨hversion, rfl⟩, reserved, s, rfl, -, s,
      ⟨hreserved, rfl⟩, count, s, rfl, -, s, ⟨hcount, rfl⟩, decoded, s, ⟨hlength, hvalid, rfl⟩, _, s, ⟨rfl, rfl⟩, -, s,
      ⟨hrest, rfl⟩, rfl, rfl⟩ := h
    have hcountSize : UInt32.ofNat decoded.length = count := by
      rw [hlength]
      simp
    have hnone : s = [] := List.length_eq_zero_iff.mp (Nat.eq_zero_of_not_pos hrest)
    have hstream : magic ++ (putU16 version ++ (putU16 reserved ++ (putU32 count ++ (decoded.flatMap recordBytes ++ s))))
        = streamBytes decoded := by
      rw [not_not.mp hmagic, not_not.mp hversion, not_not.mp hreserved, hnone, List.append_nil, streamBytes, hcountSize]
    refine ⟨⟨hlength ▸ not_lt.mp hcount, hvalid, ?_⟩, hstream⟩
    rw [← hstream]
    exact not_lt.mp hlarge
  · rintro ⟨hstream, rfl⟩
    have hcount : (UInt32.ofNat records.length).toNat = records.length := by
      rw [UInt32.toNat_ofNat']
      exact Nat.mod_eq_of_lt (lt_of_le_of_lt hstream.count (by decide))
    have hshort : ¬ (streamBytes records).length < kParameterStreamHeaderSize := by
      rw [streamBytes_length]
      omega
    rw [if_neg (not_lt.mpr hstream.size), if_neg hshort]
    simp only [fst_iff, readParameterStream, bind_iff, takeBytes_iff, refuseIf_iff, readU16_iff, readU32_iff, readRecords_iff,
      remaining_iff, pure_iff]
    refine ⟨[], kParameterMagic, _, ⟨rfl, rfl⟩, (), _, ⟨not_not.mpr rfl, rfl⟩, _, _, rfl, (), _, ⟨not_not.mpr rfl, rfl⟩, _, _,
      rfl, (), _, ⟨not_not.mpr rfl, rfl⟩, _, _, rfl, (), _, ⟨?_, rfl⟩, records, [], ⟨hcount.symm, hstream.valid, ?_⟩, _, _,
      ⟨rfl, rfl⟩, (), _, ⟨lt_irrefl _, rfl⟩, rfl, rfl⟩
    · rw [hcount]
      exact not_lt.mpr hstream.count
    · rw [List.append_nil]

end

end ViperFx.Protocol
