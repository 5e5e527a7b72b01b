/-
What a device key says of a device: `NormalizeField`, `NormalizeDeviceKey` and the checks of `ValidateSnapshot` on a key.

A field is normalized by the one-pass scan of `Core.Words` over its bytes in lower case. The fields of a key are joined with a
bar, which no field of a valid identity contains.

Results:
  · normalizeField_canonical : a normalized field is the field in lower case, collapsed and trimmed
  · devices_apart            : two valid identities have one key when they agree on the numbers and on the normalized fields, and
                               the key of a valid identity passes for the device key of a snapshot
-/
import ViperFx.Core.Words
import ViperFx.Protocol.Sha256

namespace ViperFx.Protocol

open ViperFx.Core

/-! ## Normalized fields -/

/-- what a field is compared by: lower case, one space for every run of whitespace, nothing at the ends -/
def canonicalField (value : Bytes) : Bytes := Words.trim isSpace (Words.collapse isSpace 32 (value.map toLower))

theorem isSpace_toLower (b : UInt8) : isSpace (toLower b) = isSpace b := by
  unfold isSpace toLower
  grind

theorem toLower_toLower (b : UInt8) : toLower (toLower b) = toLower b := by
  unfold toLower
  grind

theorem toLower_eq_bar {b : UInt8} (h : toLower b = 124) : b = 124 := by
  unfold toLower at h
  grind

/-- the loop of the source is the scan over the bytes in lower case -/
theorem normalizeStep_scan (st : Bytes × Bool) (byte : UInt8) :
    normalizeStep st byte = Words.scanStep isSpace 32 st (toLower byte) := by
  unfold normalizeStep Words.scanStep
  rw [isSpace_toLower]

theorem foldl_normalizeStep (value : Bytes) :
    value.foldl normalizeStep ([], false) = Words.scan isSpace 32 (value.map toLower) := by
  unfold Words.scan
  rw [List.foldl_map]
  congr 1
  funext st byte
  exact normalizeStep_scan st byte

/-- no space is left at the end for the last loop to take away -/
theorem normalizeField_scan (value : Bytes) : normalizeField value = (Words.scan isSpace 32 (value.map toLower)).1 := by
  have hblank : isSpace 32 = true := rfl
  have hscanned := Words.scanned hblank (value.map toLower)
  unfold normalizeField
  rw [foldl_normalizeStep]
  show (Words.scan isSpace 32 (value.map toLower)).1.rdropWhile (· == 32) = _
  rw [List.rdropWhile_eq_self_iff]
  intro hne hlast
  have htight := hscanned.tight _ (List.getLast?_eq_getLast_of_ne_nil hne)
  rw [beq_iff_eq.mp hlast] at htight
  exact absurd htight (by decide)

/-- **A normalized field** is the field in lower case, collapsed and trimmed. -/
theorem normalizeField_canonical (value : Bytes) : normalizeField value = canonicalField value := by
  rw [normalizeField_scan, Words.scan_eq rfl]
  rfl

theorem mem_normalizeField {value : Bytes} {b : UInt8} (h : b ∈ normalizeField value) : b = 32 ∨ ∃ c ∈ value, b = toLower c := by
  rw [normalizeField_scan] at h
  rcases Words.mem_scan h with h | h
  · exact .inl h
  · obtain ⟨c, hc, heq⟩ := List.mem_map.mp h
    exact .inr ⟨c, hc, heq.symm⟩

theorem normalizeField_idempotent (value : Bytes) : normalizeField (normalizeField value) = normalizeField value := by
  have hlower : (normalizeField value).map toLower = normalizeField value := by
    refine (List.map_congr_left fun b hb => ?_).trans (List.map_id _)
    rcases mem_normalizeField hb with rfl | ⟨c, _, rfl⟩
    · rfl
    · exact toLower_toLower c
  rw [normalizeField_scan (normalizeField value), hlower, normalizeField_scan value, Words.scan_scan rfl]

/-! ## Keys -/

/-- the fields of a key in their order -/
def keyFields (identity : DeviceIdentity) : List Bytes :=
  [normalizeField identity.routeType, normalizeField identity.stableAddressOrPort, normalizeField identity.productName,
    decimal identity.sampleRate, decimal identity.channelMask, normalizeField identity.encoding, decimal identity.outputFlags]

theorem normalizeDeviceKey_fields {identity : DeviceIdentity} (hvalid : isValidDeviceIdentity identity = true) :
    normalizeDeviceKey identity = List.intercalate [124] (keyFields identity) := by
  unfold normalizeDeviceKey
  rw [hvalid]
  simp [keyFields, List.intercalate]

theorem mem_asciiDigits {n : ℕ} {b : UInt8} (h : b ∈ ascii (Nat.toDigits 10 n)) : 48 ≤ b ∧ b ≤ 57 := by
  obtain ⟨c, hc, rfl⟩ := List.mem_map.mp h
  have hdigit := Nat.isDigit_of_mem_toDigits (by decide) (by decide) hc
  simp only [Char.isDigit, Bool.and_eq_true, decide_eq_true_eq] at hdigit
  have hlow : 48 ≤ c.toNat := UInt32.le_iff_toNat_le.mp hdigit.1
  have hhigh : c.toNat ≤ 57 := UInt32.le_iff_toNat_le.mp hdigit.2
  rw [UInt8.le_iff_toNat_le, UInt8.le_iff_toNat_le, UInt8.toNat_ofNat', Nat.mod_eq_of_lt (by omega)]
  exact ⟨hlow, hhigh⟩

/-- the digits of a number determine it -/
theorem decimal_inj {m n : UInt32} : decimal m = decimal n ↔ m = n := by
  constructor
  · intro h
    have hchars (k : UInt32) : (decimal k).map (fun b => Char.ofNat b.toNat) = Nat.toDigits 10 k.toNat := by
      unfold decimal ascii
      rw [List.map_map]
      refine (List.map_congr_left fun c hc => ?_).trans (List.map_id _)
      have hdigit := Nat.isDigit_of_mem_toDigits (by decide) (by decide) hc
      simp only [Char.isDigit, Bool.and_eq_true, decide_eq_true_eq] at hdigit
      have hhigh : c.toNat ≤ 57 := UInt32.le_iff_toNat_le.mp hdigit.2
      show Char.ofNat (UInt8.ofNat c.toNat).toNat = c
      rw [UInt8.toNat_ofNat', Nat.mod_eq_of_lt (by omega), Char.ofNat_toNat]
    have hdigits : Nat.toDigits 10 m.toNat = Nat.toDigits 10 n.toNat := by rw [← hchars, ← hchars, h]
    have hvalue := congrArg (Nat.ofDigitChars 10 · 0) hdigits
    simp only [Nat.ofDigitChars_ten_toDigits] at hvalue
    exact UInt32.toNat_inj.mp hvalue
  · intro h
    rw [h]

theorem bar_notMem_field {value : Bytes} (h : hasInvalidDelimiter value = false) : 124 ∉ normalizeField value := by
  intro hmem
  rcases mem_normalizeField hmem with h124 | ⟨c, hc, hlower⟩
  · exact absurd h124 (by decide)
  · have hbar := toLower_eq_bar hlower.symm
    simp only [hasInvalidDelimiter, Bool.or_eq_false_iff] at h
    exact absurd (hbar ▸ hc) (by simpa using h.1)

theorem bar_notMem_decimal (n : UInt32) : 124 ∉ decimal n := by
  intro hmem
  exact absurd (mem_asciiDigits hmem).2 (by decide)

theorem bar_notMem_keyFields {identity : DeviceIdentity} (hvalid : isValidDeviceIdentity identity = true) :
    ∀ field ∈ keyFields identity, 124 ∉ field := by
  simp only [isValidDeviceIdentity, Bool.and_eq_true, Bool.not_eq_true'] at hvalid
  obtain ⟨⟨⟨⟨⟨_, hroute⟩, haddress⟩, hproduct⟩, hencoding⟩, _⟩ := hvalid
  intro field hfield
  simp only [keyFields, List.mem_cons, List.not_mem_nil, or_false] at hfield
  rcases hfield with rfl | rfl | rfl | rfl | rfl | rfl | rfl
  · exact bar_notMem_field hroute
  · exact bar_notMem_field haddress
  · exact bar_notMem_field hproduct
  · exact bar_notMem_decimal _
  · exact bar_notMem_decimal _
  · exact bar_notMem_field hencoding
  · exact bar_notMem_decimal _

/-- two identities that a key does not tell apart -/
def SameDevice (a b : DeviceIdentity) : Prop :=
  a.sampleRate = b.sampleRate ∧ a.channelMask = b.channelMask ∧ a.outputFlags = b.outputFlags ∧
    normalizeField a.routeType = normalizeField b.routeType ∧
    normalizeField a.stableAddressOrPort = normalizeField b.stableAddressOrPort ∧
    normalizeField a.productName = normalizeField b.productName ∧ normalizeField a.encoding = normalizeField b.encoding

theorem normalizeDeviceKey_inj {a b : DeviceIdentity} (ha : isValidDeviceIdentity a = true)
    (hb : isValidDeviceIdentity b = true) : normalizeDeviceKey a = normalizeDeviceKey b ↔ SameDevice a b := by
  rw [normalizeDeviceKey_fields ha, normalizeDeviceKey_fields hb,
    Words.join_inj (by simp [keyFields]) (by simp [keyFields]) (bar_notMem_keyFields ha) (bar_notMem_keyFields hb)]
  simp only [keyFields, SameDevice, List.cons.injEq, decimal_inj]
  tauto

/-! ## Keys in snapshots -/

/-- the messages of `ValidateSnapshot` about the device key -/
def deviceKeyMessages : List String :=
  ["device_key is invalid", "device_key is not canonical", "device_key_hash must be 64 lowercase hex characters",
    "device_key_hash mismatch"]

/-- the key of a valid identity, with its hash, passes the checks of a snapshot's key -/
theorem normalizeDeviceKey_checked {s : Snapshot} {identity : DeviceIdentity} (hvalid : isValidDeviceIdentity identity = true)
    (hkey : s.deviceKey = normalizeDeviceKey identity) (hhash : s.deviceKeyHash = hashDeviceKey s.deviceKey) :
    s.deviceKey.isEmpty = false ∧ s.deviceKey.contains 124 = true ∧ isLowerHex64 s.deviceKeyHash = true ∧
      hashDeviceKeyWith Sha256.digestHex s.deviceKey = s.deviceKeyHash := by
  have hbar : 124 ∈ s.deviceKey := by
    rw [hkey, normalizeDeviceKey, hvalid]
    simp
  have hne : s.deviceKey.isEmpty = false := by
    rw [List.isEmpty_eq_false_iff]
    exact List.ne_nil_of_mem hbar
  refine ⟨hne, by simpa using hbar, ?_, hhash.symm⟩
  rw [hhash, hashDeviceKey, hashDeviceKeyWith, hne]
  exact (Sha256.digestHex_safe s.deviceKey).1

/-- what `ValidateSnapshot` says of a snapshot whose key passes -/
theorem validateSnapshot_keyed {s : Snapshot} (hempty : s.deviceKey.isEmpty = false)
    (hlength : s.deviceKey.length ≤ kMaxSnapshotString) (hbar : s.deviceKey.contains 124 = true)
    (hhex : isLowerHex64 s.deviceKeyHash = true)
    (hhash : hashDeviceKeyWith Sha256.digestHex s.deviceKey = s.deviceKeyHash) :
    (∀ e, validateSnapshot s = .error e → e ∉ deviceKeyMessages) ∧
      ∀ key hash, validateSnapshot { s with deviceKey := key, deviceKeyHash := hash } = .ok () → validateSnapshot s = .ok () := by
  have hsize : ¬(s.deviceKey.isEmpty || kMaxSnapshotString < s.deviceKey.length) = true := by
    simp [hempty, Nat.not_lt.mpr hlength]
  have hcanonical : ¬(!s.deviceKey.contains 124) = true := by rw [hbar]; decide
  have hdigits : ¬(!isLowerHex64 s.deviceKeyHash) = true := by rw [hhex]; decide
  constructor
  · intro e he hmem
    refine absurd he ?_
    simp only [deviceKeyMessages, List.mem_cons, List.not_mem_nil, or_false] at hmem
    unfold validateSnapshot validateSnapshotWith
    rw [if_neg hsize, if_neg hcanonical, if_neg hdigits, if_neg (not_not.mpr hhash)]
    rcases hmem with rfl | rfl | rfl | rfl
    all_goals
      iterate 8 refine guard_message (by decide) ?_
      exact validateResources_message (by decide)
  · intro key hash hother
    obtain ⟨hschema, h⟩ := unrefused hother
    obtain ⟨hdriver, h⟩ := unrefused h
    obtain ⟨-, h⟩ := unrefused h
    obtain ⟨-, h⟩ := unrefused h
    obtain ⟨-, h⟩ := unrefused h
    obtain ⟨-, h⟩ := unrefused h
    unfold validateSnapshot validateSnapshotWith
    rw [if_neg hschema, if_neg hdriver, if_neg hsize, if_neg hcanonical, if_neg hdigits, if_neg (not_not.mpr hhash)]
    exact h

/-- **Device keys identify devices.** Valid identities have one key exactly when they agree on the numbers and on the normalized
fields. Normalization is idempotent and identifies the strings that are equal in lower case, collapsed and trimmed. The key of a
valid identity that is not too long passes, with its hash, for the device key of a snapshot: a snapshot with it is never refused
because of it, and is accepted if it is with any key at all. -/
theorem devices_apart :
    (∀ a b, isValidDeviceIdentity a = true → isValidDeviceIdentity b = true →
      (normalizeDeviceKey a = normalizeDeviceKey b ↔ SameDevice a b)) ∧
    (∀ value, normalizeField (normalizeField value) = normalizeField value) ∧
    (∀ value value', normalizeField value = normalizeField value' ↔ canonicalField value = canonicalField value') ∧
    ∀ (s : Snapshot) (identity : DeviceIdentity), isValidDeviceIdentity identity = true →
      s.deviceKey = normalizeDeviceKey identity → s.deviceKeyHash = hashDeviceKey s.deviceKey →
      s.deviceKey.length ≤ kMaxSnapshotString →
      (∀ e, validateSnapshot s = .error e → e ∉ deviceKeyMessages) ∧
        ∀ key hash, validateSnapshot { s with deviceKey := key, deviceKeyHash := hash } = .ok () →
          validateSnapshot s = .ok () := by
  refine ⟨fun a b ha hb => normalizeDeviceKey_inj ha hb, normalizeField_idempotent, fun value value' => ?_, ?_⟩
  · rw [normalizeField_canonical, normalizeField_canonical]
  · intro s identity hvalid hkey hhash hlength
    obtain ⟨hempty, hbar, hhex, hequal⟩ := normalizeDeviceKey_checked hvalid hkey hhash
    exact validateSnapshot_keyed hempty hlength hbar hhex hequal

/-- a speaker as two reports name it -/
def namedSpeaker (productName : Bytes) : DeviceIdentity where
  routeType := ascii ['S', 'p', 'e', 'a', 'k', 'e', 'r']
  stableAddressOrPort := ascii ['b', 'u', 's', '0']
  productName := productName
  sampleRate := 48000
  channelMask := 3
  encoding := ascii ['p', 'c', 'm', '_', '1', '6']
  outputFlags := 0

/-- a snapshot of a speaker -/
def namedSnapshot : Snapshot where
  schemaVersion := kSnapshotSchemaVersion
  driverProtocolVersion := kSnapshotDriverProtocolVersion
  bootId := 1
  daemonGeneration := 1
  appGeneration := 1
  createdAtMillis := 1
  masterEnabled := true
  globalMode := false
  deviceKey := normalizeDeviceKey (namedSpeaker (ascii ['H', 'i', '-', 'F', 'i']))
  deviceKeyHash := hashDeviceKey (normalizeDeviceKey (namedSpeaker (ascii ['H', 'i', '-', 'F', 'i'])))
  parameters := []
  iemParameters := []
  resources := []
  resourceGeneration := 0
  graphGeneration := 0

/-- two names of one speaker, and its snapshot -/
theorem devices_apart_speaker :
    normalizeDeviceKey (namedSpeaker (ascii ['H', 'i', '-', 'F', 'i'])) =
      normalizeDeviceKey (namedSpeaker (ascii [' ', 'h', 'I', '-', 'f', 'I'])) ∧
    validateSnapshot namedSnapshot ≠ .error "device_key_hash mismatch" := by
  have hvalid : isValidDeviceIdentity (namedSpeaker (ascii ['H', 'i', '-', 'F', 'i'])) = true := by decide +kernel
  refine ⟨?_, fun he => ?_⟩
  · refine (devices_apart.1 _ _ hvalid (by decide +kernel)).mpr ?_
    unfold SameDevice
    decide +kernel
  · have hkeyed := devices_apart.2.2.2 namedSnapshot (namedSpeaker (ascii ['H', 'i', '-', 'F', 'i'])) hvalid
      (by simp only [namedSnapshot]) (by simp only [namedSnapshot]) (by decide +kernel)
    exact hkeyed.1 _ he (by decide)

end ViperFx.Protocol
