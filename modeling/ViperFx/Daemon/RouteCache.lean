/-
The memory of the last route: `daemon/RouteCache.cpp`.

The identity is written as lines `key=value` to a temporary file that is renamed over the cache file. `Load` reads the lines into a
map and trusts nothing: an unknown version, a key twice, a value with a control character or a number out of range leaves the
caller's identity as it was. Where the file system fails is part of the call.

Results:
  · parseLine_field, readFields_lines : lines that were written are read back
  · parseUnsigned_decimal             : so are numbers
  · load_stored                       : `Load` gives back what `Store` has written
  · loadInto_outcome                  : whatever the file holds, `Load` gives a valid identity or none
  · remembered                        : both, for the identity of a route report
-/
import ViperFx.Core.Table
import ViperFx.Protocol.AppCommand
import ViperFx.Protocol.DeviceIdentity

namespace ViperFx.Daemon

open ViperFx.Core ViperFx.Protocol

def kVersionValue : Bytes := ascii ['1']

def kMaxCacheSize : ℕ := 8192

/-- the step of `Store` at which the file system fails -/
inductive StoreFault where
  | none
  | createDirectories
  | createTemporary
  | writeTemporary
  | secureTemporary
  | openTemporary
  | syncTemporary
  | publish
  | openDirectory
  | syncDirectory
  deriving DecidableEq

/-- the step of `Load` at which the file system fails -/
inductive LoadFault where
  | none
  | size
  | open
  deriving DecidableEq

/-- the cache file: its path, and its content when it is a regular file -/
structure RouteCache where
  path : String
  file : Option Bytes := none
  deriving DecidableEq

def isSafeFieldValue (value : Bytes) : Bool := !value.any fun byte => byte == 124 || byte < 0x20 || byte == 0x7F

/-- the loop of `ParseUnsigned` -/
def parseDigits : Bytes → ℕ → Option ℕ
  | [], value => some value
  | byte :: rest, value =>
    if byte < 48 || 57 < byte then none
    else if 2 ^ 32 - 1 < value * 10 + (byte - 48).toNat then none
    else parseDigits rest (value * 10 + (byte - 48).toNat)

def parseUnsigned (text : Bytes) : Option UInt32 :=
  if text.isEmpty || 10 < text.length then none else (parseDigits text 0).map UInt32.ofNat

/-- a signed number as a stream prints it -/
def decimalMillis (millis : Int64) : Bytes :=
  if millis < 0 then 45 :: ascii (Nat.toDigits 10 millis.toInt.natAbs) else ascii (Nat.toDigits 10 millis.toInt.natAbs)

namespace RouteCache

def versionKey : Bytes := ascii "version".toList
def routeTypeKey : Bytes := ascii "route_type".toList
def addressKey : Bytes := ascii "stable_address_or_port".toList
def productNameKey : Bytes := ascii "product_name".toList
def encodingKey : Bytes := ascii "encoding".toList
def sampleRateKey : Bytes := ascii "sample_rate".toList
def channelMaskKey : Bytes := ascii "channel_mask".toList
def outputFlagsKey : Bytes := ascii "output_flags".toList
def updatedAtKey : Bytes := ascii "updated_at_millis".toList

/-! ## Store -/

/-- the fields in the order in which they are written -/
def storedFields (identity : DeviceIdentity) (nowMillis : Int64) : List (Bytes × Bytes) :=
  [(versionKey, kVersionValue), (routeTypeKey, identity.routeType), (addressKey, identity.stableAddressOrPort),
    (productNameKey, identity.productName), (encodingKey, identity.encoding), (sampleRateKey, decimal identity.sampleRate),
    (channelMaskKey, decimal identity.channelMask), (outputFlagsKey, decimal identity.outputFlags),
    (updatedAtKey, decimalMillis nowMillis)]

/-- a line, without the newline -/
def line (field : Bytes × Bytes) : Bytes := field.1 ++ 61 :: field.2

def encoded (identity : DeviceIdentity) (nowMillis : Int64) : Bytes :=
  (storedFields identity nowMillis).flatMap fun field => line field ++ [10]

def store (cache : RouteCache) (identity : DeviceIdentity) (nowMillis : Int64) (fault : StoreFault) :
    RouteCache × Except String Unit :=
  if !isValidDeviceIdentity identity then (cache, .error "route cache refuses an invalid identity")
  else if !isSafeFieldValue identity.routeType || !isSafeFieldValue identity.stableAddressOrPort
      || !isSafeFieldValue identity.productName || !isSafeFieldValue identity.encoding then
    (cache, .error "route cache refuses an unserializable identity")
  else match fault with
    | .createDirectories => (cache, .error "failed to create route cache directory")
    | .createTemporary => (cache, .error "failed to create route cache temporary file")
    | .writeTemporary => (cache, .error "failed to write route cache temporary file")
    | .secureTemporary => (cache, .error "failed to secure route cache temporary file")
    | .openTemporary => (cache, .error "failed to open route cache for fsync")
    | .syncTemporary => (cache, .error "failed to fsync route cache file")
    | .publish => (cache, .error "failed to publish route cache")
    -- the file has been replaced by now
    | .openDirectory => ({ cache with file := encoded identity nowMillis }, .error "failed to open route cache directory")
    | .syncDirectory => ({ cache with file := encoded identity nowMillis }, .error "failed to fsync route cache directory")
    | .none => ({ cache with file := encoded identity nowMillis }, .ok ())

/-! ## Load -/

/-- the bytes of a message -/
def text (bytes : Bytes) : String := String.ofList (bytes.map fun byte => Char.ofNat byte.toNat)

/-- a line that is not empty as a key and a value -/
def parseLine (line : Bytes) : Except String (Bytes × Bytes) :=
  if !line.contains 61 then .error "route cache has a malformed line"
  else
    let key := line.takeWhile (· != 61)
    let value := (line.dropWhile (· != 61)).drop 1
    -- a trailing carriage return would end up inside a field of the device key
    let value := if value.getLast? = some 13 then value.dropLast else value
    if key.isEmpty || !isSafeFieldValue value then .error ("route cache field " ++ text key ++ " is not trustworthy")
    else .ok (key, value)

/-- the loop over the lines of the file -/
def readFields : List Bytes → Table Bytes Bytes → Except String (Table Bytes Bytes)
  | [], fields => .ok fields
  | line :: rest, fields =>
    if line.isEmpty then readFields rest fields
    else match parseLine line with
      | .error e => .error e
      | .ok (key, value) =>
        if (fields.get? key).isSome then .error "route cache has a duplicated key" else readFields rest (fields.put key value)

/-- what is made of the fields of the file -/
def restore (fields : Table Bytes Bytes) : Except String DeviceIdentity :=
  if fields.get? versionKey ≠ some kVersionValue then .error "route cache version is missing or unknown"
  else match fields.get? routeTypeKey, fields.get? addressKey, fields.get? productNameKey, fields.get? encodingKey,
      fields.get? sampleRateKey, fields.get? channelMaskKey, fields.get? outputFlagsKey, fields.get? updatedAtKey with
    | some routeType, some address, some product, some encoding, some sampleRate, some channelMask, some outputFlags,
        some updatedAt =>
      match parseUnsigned sampleRate, parseUnsigned channelMask, parseUnsigned outputFlags with
      | some sampleRate, some channelMask, some outputFlags =>
        if updatedAt.isEmpty || updatedAt.any (fun byte => byte < 48 || 57 < byte) then
          .error "route cache timestamp is not numeric"
        else
          let restored : DeviceIdentity :=
            { routeType, stableAddressOrPort := address, productName := product, sampleRate, channelMask, encoding, outputFlags }
          if !isValidDeviceIdentity restored then .error "route cache holds an invalid identity" else .ok restored
      | _, _, _ => .error "route cache has a non-numeric field"
    | _, _, _, _, _, _, _, _ => .error "route cache is incomplete"

def load (cache : RouteCache) (fault : LoadFault) : Except String DeviceIdentity :=
  match cache.file with
  | none => .error ("route cache missing at " ++ cache.path)
  | some content =>
    if fault = .size || kMaxCacheSize < content.length then .error "route cache file is not a cache this daemon wrote"
    else if fault = .open then .error "failed to open route cache"
    else match readFields (content.splitOn 10) Table.empty with
      | .error e => .error e
      | .ok fields => restore fields

/-- `Load` with the identity of its caller -/
def loadInto (cache : RouteCache) (fault : LoadFault) (identity : DeviceIdentity) : Bool × DeviceIdentity :=
  match cache.load fault with
  | .error _ => (false, identity)
  | .ok restored => (true, restored)

/-! ## Numbers -/

theorem le_ofDigitChars (digits : List Char) (value : ℕ) : value ≤ Nat.ofDigitChars 10 digits value := by
  induction digits generalizing value with
  | nil => simp
  | cons c rest ih =>
    rw [Nat.ofDigitChars_cons]
    have := ih (10 * value + (c.toNat - '0'.toNat))
    omega

theorem parseDigits_ofDigitChars {digits : List Char} (hdigits : ∀ c ∈ digits, c.isDigit = true) (value : ℕ)
    (hrange : Nat.ofDigitChars 10 digits value < 2 ^ 32) :
    parseDigits (ascii digits) value = some (Nat.ofDigitChars 10 digits value) := by
  induction digits generalizing value with
  | nil => simp [ascii, parseDigits]
  | cons c rest ih =>
    have hc := hdigits c List.mem_cons_self
    simp only [Char.isDigit, Bool.and_eq_true, decide_eq_true_eq] at hc
    have hlow : 48 ≤ c.toNat := UInt32.le_iff_toNat_le.mp hc.1
    have hhigh : c.toNat ≤ 57 := UInt32.le_iff_toNat_le.mp hc.2
    have hbyte : (UInt8.ofNat c.toNat).toNat = c.toNat := by
      rw [UInt8.toNat_ofNat', Nat.mod_eq_of_lt (by omega)]
    have hdigit : (UInt8.ofNat c.toNat - 48).toNat = c.toNat - '0'.toNat := by
      rw [UInt8.toNat_sub_of_le _ _ (UInt8.le_iff_toNat_le.mpr (by rw [hbyte]; exact hlow)), hbyte]
      rfl
    have hnot : ¬((UInt8.ofNat c.toNat < 48 || 57 < UInt8.ofNat c.toNat) = true) := by
      simp only [Bool.or_eq_true, decide_eq_true_eq, UInt8.lt_iff_toNat_lt, hbyte, not_or, Nat.not_lt]
      exact ⟨hlow, hhigh⟩
    rw [Nat.ofDigitChars_cons] at hrange ⊢
    have hle := le_ofDigitChars rest (10 * value + (c.toNat - '0'.toNat))
    show parseDigits (UInt8.ofNat c.toNat :: ascii rest) value = _
    rw [parseDigits, if_neg hnot, hdigit, Nat.mul_comm value 10, if_neg (by omega)]
    exact ih (fun d hd => hdigits d (List.mem_cons_of_mem _ hd)) _ hrange

theorem decimal_length (n : UInt32) : (decimal n).length ≤ 10 := by
  unfold decimal ascii
  rw [List.length_map, Nat.length_toDigits_le_iff (by decide) (by decide)]
  have := n.toNat_lt
  omega

theorem decimal_ne_nil (n : UInt32) : decimal n ≠ [] := by
  unfold decimal ascii
  rw [ne_eq, List.map_eq_nil_iff]
  exact Nat.toDigits_ne_nil

/-- a number that was printed is parsed -/
theorem parseUnsigned_decimal (n : UInt32) : parseUnsigned (decimal n) = some n := by
  have hnot : ¬(((decimal n).isEmpty || 10 < (decimal n).length) = true) := by
    simp [decimal_ne_nil, decimal_length]
  have hvalue : Nat.ofDigitChars 10 (Nat.toDigits 10 n.toNat) 0 = n.toNat := Nat.ofDigitChars_ten_toDigits
  have hdigits : ∀ c ∈ Nat.toDigits 10 n.toNat, c.isDigit = true :=
    fun c hc => Nat.isDigit_of_mem_toDigits (by decide) (by decide) hc
  have hparse := parseDigits_ofDigitChars hdigits 0 (by rw [hvalue]; exact n.toNat_lt)
  rw [hvalue] at hparse
  rw [parseUnsigned, if_neg hnot, show decimal n = ascii (Nat.toDigits 10 n.toNat) from rfl, hparse]
  simp

theorem decimalMillis_ofNonneg {millis : Int64} (h : 0 ≤ millis) :
    decimalMillis millis = ascii (Nat.toDigits 10 millis.toInt.natAbs) :=
  if_neg (Int64.not_lt.mpr h)

theorem mem_decimalMillis {millis : Int64} (h : 0 ≤ millis) {byte : UInt8} (hmem : byte ∈ decimalMillis millis) :
    48 ≤ byte ∧ byte ≤ 57 := by
  rw [decimalMillis_ofNonneg h] at hmem
  exact mem_asciiDigits hmem

theorem decimalMillis_length {millis : Int64} (h : 0 ≤ millis) : (decimalMillis millis).length ≤ 19 := by
  have hrange := Int64.toInt_lt millis
  have hpos : 0 ≤ millis.toInt := Int64.le_iff_toInt_le.mp h
  rw [decimalMillis_ofNonneg h, ascii, List.length_map, Nat.length_toDigits_le_iff (by decide) (by decide)]
  omega

theorem decimalMillis_ne_nil {millis : Int64} (h : 0 ≤ millis) : decimalMillis millis ≠ [] := by
  rw [decimalMillis_ofNonneg h, ascii, ne_eq, List.map_eq_nil_iff]
  exact Nat.toDigits_ne_nil

/-! ## Lines -/

/-- a byte that a value may hold -/
theorem mem_safe {value : Bytes} (h : isSafeFieldValue value = true) {byte : UInt8} (hmem : byte ∈ value) : 0x20 ≤ byte := by
  simp only [isSafeFieldValue, Bool.not_eq_true', List.any_eq_false] at h
  have := h byte hmem
  simp only [Bool.or_eq_true, decide_eq_true_eq, not_or, UInt8.not_lt] at this
  exact this.1.2

theorem isSafeFieldValue_digits {value : Bytes} (h : ∀ byte ∈ value, 48 ≤ byte ∧ byte ≤ 57) : isSafeFieldValue value = true := by
  simp only [isSafeFieldValue, Bool.not_eq_true', List.any_eq_false]
  intro byte hbyte
  obtain ⟨hlow, hhigh⟩ := h byte hbyte
  grind

/-- what a field needs for its line to be read back -/
structure Storable (field : Bytes × Bytes) : Prop where
  key : field.1 ≠ []
  noEquals : 61 ∉ field.1
  noNewline : 10 ∉ field.1
  value : isSafeFieldValue field.2 = true

/-- **A line is read back** as the key and the value it was made of, whatever the value has of the separator. -/
theorem parseLine_line {field : Bytes × Bytes} (h : Storable field) : parseLine (line field) = .ok field := by
  have hkey : (line field).takeWhile (· != 61) = field.1 := by
    unfold line
    rw [List.takeWhile_append_of_pos fun b hb => by
      rw [bne_iff_ne]
      intro heq
      exact h.noEquals (heq ▸ hb)]
    simp
  have hrest : ((line field).dropWhile (· != 61)).drop 1 = field.2 := by
    unfold line
    rw [List.dropWhile_append_of_pos fun b hb => by
      rw [bne_iff_ne]
      intro heq
      exact h.noEquals (heq ▸ hb)]
    simp
  have hreturn : ¬field.2.getLast? = some 13 := by
    intro hlast
    have := mem_safe h.value (List.mem_of_getLast? hlast)
    exact absurd this (by decide)
  have hcontains : (line field).contains 61 = true := by simp [line]
  have hempty : field.1.isEmpty = false := by simpa using h.key
  unfold parseLine
  simp only [hcontains, hkey, hrest, if_neg hreturn, hempty, h.value]
  rfl

theorem line_noNewline {field : Bytes × Bytes} (h : Storable field) : 10 ∉ line field := by
  unfold line
  rw [List.mem_append, List.mem_cons, not_or, not_or]
  refine ⟨h.noNewline, by decide, fun hmem => ?_⟩
  exact absurd (mem_safe h.value hmem) (by decide)

/-- the file of some fields, cut at its newlines -/
theorem splitOn_lines {fields : List (Bytes × Bytes)} (h : ∀ field ∈ fields, Storable field) :
    (fields.flatMap fun field => line field ++ [10]).splitOn 10 = fields.map line ++ [[]] := by
  induction fields with
  | nil => rfl
  | cons field rest ih =>
    have hline := line_noNewline (h field List.mem_cons_self)
    rw [List.flatMap_cons, List.append_assoc, List.singleton_append, List.splitOn_append_cons_self_of_not_mem hline,
      ih fun other hother => h other (List.mem_cons_of_mem _ hother)]
    rfl

/-- **The lines are read back** into a map of the fields, if no key is there twice. -/
theorem readFields_lines {entries : List (Bytes × Bytes)} (h : ∀ field ∈ entries, Storable field)
    (hnodup : (entries.map Prod.fst).Nodup) (fields : Table Bytes Bytes)
    (hfresh : ∀ field ∈ entries, fields.get? field.1 = none) :
    ∃ read, readFields (entries.map line ++ [[]]) fields = .ok read ∧
      ∀ key, read.get? key = (lookupIn entries key).or (fields.get? key) := by
  induction entries generalizing fields with
  | nil => exact ⟨fields, rfl, fun key => rfl⟩
  | cons field rest ih =>
    rw [List.map_cons, List.nodup_cons] at hnodup
    have hfield := h field List.mem_cons_self
    have hline : (line field).isEmpty = false := by simp [line]
    have hput : ∀ other ∈ rest, (fields.put field.1 field.2).get? other.1 = none := by
      intro other hother
      have hne : field.1 ≠ other.1 := fun heq => hnodup.1 (heq ▸ List.mem_map_of_mem hother)
      rw [Table.get?_put_ne _ _ hne]
      exact hfresh other (List.mem_cons_of_mem _ hother)
    obtain ⟨read, hread, hget⟩ :=
      ih (fun other hother => h other (List.mem_cons_of_mem _ hother)) hnodup.2 (fields.put field.1 field.2) hput
    refine ⟨read, ?_, fun key => ?_⟩
    · rw [List.map_cons, List.cons_append, readFields, if_neg (by simp [hline]), parseLine_line hfield]
      dsimp only
      rw [hfresh field List.mem_cons_self]
      exact hread
    · rw [hget, Table.get?_put]
      obtain ⟨name, value⟩ := field
      by_cases hkey : name = key
      · subst hkey
        have hnone : lookupIn rest name = none := lookupIn_eq_none _ _ hnodup.1
        simp [lookupIn, hnone]
      · simp [lookupIn, hkey]

/-! ## What was stored -/

/-- a valid identity has fields that can be written -/
theorem isSafeFieldValue_valid {value : Bytes} (h : hasInvalidDelimiter value = false) : isSafeFieldValue value = true := by
  simp only [hasInvalidDelimiter, Bool.or_eq_false_iff, List.any_eq_false] at h
  simp only [isSafeFieldValue, Bool.not_eq_true', List.any_eq_false]
  intro byte hbyte
  have hbar : byte ≠ 124 := by
    rintro rfl
    exact absurd hbyte (by simpa using h.1)
  have hcontrol := h.2 byte hbyte
  grind

/-- the keys of the file -/
def keys : List Bytes :=
  [versionKey, routeTypeKey, addressKey, productNameKey, encodingKey, sampleRateKey, channelMaskKey, outputFlagsKey, updatedAtKey]

theorem keys_plain : ∀ key ∈ keys, key ≠ [] ∧ 61 ∉ key ∧ 10 ∉ key := by
  decide

theorem storable {key value : Bytes} (hkey : key ∈ keys) (hvalue : isSafeFieldValue value = true) : Storable (key, value) := by
  obtain ⟨hne, hequals, hnewline⟩ := keys_plain key hkey
  exact ⟨hne, hequals, hnewline, hvalue⟩

theorem storedFields_storable {identity : DeviceIdentity} (hvalid : isValidDeviceIdentity identity = true) {nowMillis : Int64}
    (hclock : 0 ≤ nowMillis) : ∀ field ∈ storedFields identity nowMillis, Storable field := by
  simp only [isValidDeviceIdentity, Bool.and_eq_true, Bool.not_eq_true'] at hvalid
  obtain ⟨⟨⟨⟨⟨_, hroute⟩, haddress⟩, hproduct⟩, hencoding⟩, _⟩ := hvalid
  have hnumber (n : UInt32) : isSafeFieldValue (decimal n) = true := isSafeFieldValue_digits fun _ h => mem_asciiDigits h
  have hmillis : isSafeFieldValue (decimalMillis nowMillis) = true :=
    isSafeFieldValue_digits fun _ h => mem_decimalMillis hclock h
  intro field hfield
  simp only [storedFields, List.mem_cons, List.not_mem_nil, or_false] at hfield
  rcases hfield with rfl | rfl | rfl | rfl | rfl | rfl | rfl | rfl | rfl
  · exact storable (by decide) (by decide)
  · exact storable (by decide) (isSafeFieldValue_valid hroute)
  · exact storable (by decide) (isSafeFieldValue_valid haddress)
  · exact storable (by decide) (isSafeFieldValue_valid hproduct)
  · exact storable (by decide) (isSafeFieldValue_valid hencoding)
  · exact storable (by decide) (hnumber _)
  · exact storable (by decide) (hnumber _)
  · exact storable (by decide) (hnumber _)
  · exact storable (by decide) hmillis

theorem storedFields_nodup (identity : DeviceIdentity) (nowMillis : Int64) :
    ((storedFields identity nowMillis).map Prod.fst).Nodup := by
  show keys.Nodup
  decide

/-- the fields of an identity are put together to what they were taken from -/
theorem restore_stored {identity : DeviceIdentity} (hvalid : isValidDeviceIdentity identity = true) {nowMillis : Int64}
    (hclock : 0 ≤ nowMillis) {fields : Table Bytes Bytes}
    (hget : ∀ key, fields.get? key = lookupIn (storedFields identity nowMillis) key) : restore fields = .ok identity := by
  have hversion : fields.get? versionKey = some kVersionValue := hget versionKey
  have hroute : fields.get? routeTypeKey = some identity.routeType := hget routeTypeKey
  have haddress : fields.get? addressKey = some identity.stableAddressOrPort := hget addressKey
  have hproduct : fields.get? productNameKey = some identity.productName := hget productNameKey
  have hencoding : fields.get? encodingKey = some identity.encoding := hget encodingKey
  have hrate : fields.get? sampleRateKey = some (decimal identity.sampleRate) := hget sampleRateKey
  have hmask : fields.get? channelMaskKey = some (decimal identity.channelMask) := hget channelMaskKey
  have hflags : fields.get? outputFlagsKey = some (decimal identity.outputFlags) := hget outputFlagsKey
  have hupdated : fields.get? updatedAtKey = some (decimalMillis nowMillis) := hget updatedAtKey
  have hdigits : ((decimalMillis nowMillis).any fun byte => byte < 48 || 57 < byte) = false := by
    rw [List.any_eq_false]
    intro byte hbyte
    obtain ⟨hlow, hhigh⟩ := mem_decimalMillis hclock hbyte
    grind
  have hempty : (decimalMillis nowMillis).isEmpty = false := by simpa using decimalMillis_ne_nil hclock
  -- the two ids that no route has are zero
  have hids : identity.audioSessionId = 0 ∧ identity.processId = 0 := by
    simp only [isValidDeviceIdentity, Bool.and_eq_true, Bool.not_eq_true', Bool.or_eq_false_iff, bne_eq_false_iff_eq] at hvalid
    exact hvalid.1.1.1.1.1.1.1
  have hsame : DeviceIdentity.mk identity.routeType identity.stableAddressOrPort identity.productName identity.sampleRate
      identity.channelMask identity.encoding identity.outputFlags 0 0 = identity := by
    obtain ⟨⟩ := identity
    simp only at hids
    simp [hids]
  unfold restore
  rw [if_neg (not_not.mpr hversion), hroute, haddress, hproduct, hencoding, hrate, hmask, hflags, hupdated]
  dsimp only
  rw [parseUnsigned_decimal, parseUnsigned_decimal, parseUnsigned_decimal]
  dsimp only
  rw [hsame, hempty, hdigits, hvalid]
  rfl

/-- **What was stored is loaded.** -/
theorem load_stored {identity : DeviceIdentity} (hvalid : isValidDeviceIdentity identity = true) {nowMillis : Int64}
    (hclock : 0 ≤ nowMillis) (hsize : (encoded identity nowMillis).length ≤ kMaxCacheSize) {cache : RouteCache}
    (hfile : cache.file = some (encoded identity nowMillis)) : cache.load .none = .ok identity := by
  have hstorable := storedFields_storable hvalid hclock
  obtain ⟨fields, hread, hget⟩ :=
    readFields_lines hstorable (storedFields_nodup identity nowMillis) Table.empty fun field _ => rfl
  have hlookup : ∀ key, fields.get? key = lookupIn (storedFields identity nowMillis) key := by
    intro key
    rw [hget, Table.get?_empty, Option.or_none]
  unfold load
  rw [hfile]
  dsimp only
  rw [if_neg (by simpa using hsize), if_neg (by decide), encoded, splitOn_lines hstorable, hread]
  exact restore_stored hvalid hclock hlookup

/-- the fields of a route report are short enough for the file -/
theorem encoded_length {identity : DeviceIdentity} {nowMillis : Int64} (hclock : 0 ≤ nowMillis) {bound : ℕ}
    (hroute : identity.routeType.length ≤ bound) (haddress : identity.stableAddressOrPort.length ≤ bound)
    (hproduct : identity.productName.length ≤ bound) (hencoding : identity.encoding.length ≤ bound) :
    (encoded identity nowMillis).length ≤ 4 * bound + 200 := by
  have hrate := decimal_length identity.sampleRate
  have hmask := decimal_length identity.channelMask
  have hflags := decimal_length identity.outputFlags
  have hmillis := decimalMillis_length hclock
  simp only [encoded, storedFields, List.flatMap_cons, List.flatMap_nil, line, List.length_append, List.length_cons,
    List.length_nil]
  simp only [versionKey, routeTypeKey, addressKey, productNameKey, encodingKey, sampleRateKey, channelMaskKey, outputFlagsKey,
    updatedAtKey, kVersionValue, ascii, List.length_map]
  have hkeys : "version".toList.length + "route_type".toList.length + "stable_address_or_port".toList.length +
    "product_name".toList.length + "encoding".toList.length + "sample_rate".toList.length + "channel_mask".toList.length +
    "output_flags".toList.length + "updated_at_millis".toList.length = 111 := by decide
  simp only [List.length_cons, List.length_nil]
  omega

/-- a cache that was stored has the encoded identity for its file -/
theorem store_ok {cache cache' : RouteCache} {identity : DeviceIdentity} {nowMillis : Int64} {fault : StoreFault}
    (h : cache.store identity nowMillis fault = (cache', .ok ())) : cache'.file = some (encoded identity nowMillis) := by
  unfold store at h
  split_ifs at h
  · cases congrArg Prod.snd h
  · cases congrArg Prod.snd h
  · cases fault with
    | none => exact (congrArg (fun p => p.1.file) h).symm
    | _ => cases congrArg Prod.snd h

/-- **Load trusts nothing.** It gives a valid identity, or leaves that of its caller alone. -/
theorem loadInto_outcome (cache : RouteCache) (fault : LoadFault) (identity : DeviceIdentity) :
    cache.loadInto fault identity = (false, identity) ∨
      ∃ restored, cache.loadInto fault identity = (true, restored) ∧ isValidDeviceIdentity restored = true := by
  have hrestore (fields : Table Bytes Bytes) (restored : DeviceIdentity) (h : restore fields = .ok restored) :
      isValidDeviceIdentity restored = true := by
    unfold restore at h
    split_ifs at h
    split at h
    · split at h
      · split_ifs at h
        dsimp only at h
        split_ifs at h with hvalid
        rw [← Except.ok.inj h]
        simpa using hvalid
      · cases h
    · cases h
  unfold loadInto
  cases hload : cache.load fault with
  | error e => exact .inl rfl
  | ok restored =>
    refine .inr ⟨restored, rfl, ?_⟩
    unfold load at hload
    split at hload
    · cases hload
    · split_ifs at hload
      split at hload
      · cases hload
      · exact hrestore _ _ hload

/-! ## Reported routes -/

/-- the identity that `OnRouteReport` stores -/
def identityOf (report : AppRouteReport) : DeviceIdentity :=
  { routeType := report.routeType, stableAddressOrPort := report.stableAddressOrPort
    productName := report.productName, encoding := report.encoding, sampleRate := report.sampleRate
    channelMask := report.channelMask, outputFlags := report.outputFlags }

/-- **The route cache round trips.** The identity of a route report that is stored is loaded as it is, and so are its key and its
hash. Whatever the cache file holds, `Load` leaves the identity of its caller unchanged and fails, or gives a valid one. -/
theorem remembered :
    (∀ (bytes : Bytes) (report : AppRouteReport) (cache cache' : RouteCache) (nowMillis : Int64) (fault : StoreFault)
      (identity : DeviceIdentity), decodeAppRouteReport bytes = .ok report → isValidDeviceIdentity (identityOf report) = true →
      0 ≤ nowMillis → cache.store (identityOf report) nowMillis fault = (cache', .ok ()) →
      cache'.loadInto .none identity = (true, identityOf report)) ∧
    ∀ (cache : RouteCache) (fault : LoadFault) (identity : DeviceIdentity),
      cache.loadInto fault identity = (false, identity) ∨
        ∃ restored, cache.loadInto fault identity = (true, restored) ∧ isValidDeviceIdentity restored = true := by
  refine ⟨?_, loadInto_outcome⟩
  intro bytes report cache cache' nowMillis fault identity hdecode hvalid hclock hstore
  have hpasses := (decodeAppRouteReport_iff.mp hdecode).1.fields
  simp only [validateRouteFields, except_bind_iff] at hpasses
  obtain ⟨_, htype, _, haddress, _, hproduct, hencoding⟩ := hpasses
  have hlength : (encoded (identityOf report) nowMillis).length ≤ 4 * kMaxAppRouteFieldBytes + 200 :=
    encoded_length hclock (validateRouteField_length htype) (validateRouteField_length haddress)
      (validateRouteField_length hproduct) (validateRouteField_length hencoding)
  have hload := load_stored hvalid hclock (hlength.trans (by decide)) (store_ok hstore)
  unfold loadInto
  rw [hload]

/-- a report of the speaker -/
def speakerReport : AppRouteReport where
  routeType := ascii ['s']
  stableAddressOrPort := ascii ['b', '=', '0']
  productName := ascii ['p', ' ', 'q']
  encoding := ascii ['e']
  sampleRate := 48000
  channelMask := 3

/-- the speaker is remembered -/
theorem remembered_speaker :
    ((RouteCache.mk "route.cache" none).store (identityOf speakerReport) 5 .none).1.loadInto .none {
        routeType := [], stableAddressOrPort := [], productName := [], sampleRate := 0, channelMask := 0, encoding := []
        outputFlags := 0 } = (true, identityOf speakerReport) := by
  have hpasses : speakerReport.Passes := ⟨rfl, rfl, by decide⟩
  exact remembered.1 (appRouteReportBytes speakerReport) speakerReport ⟨"route.cache", none⟩ _ 5 .none _
    (decodeAppRouteReport_iff.mpr ⟨hpasses, rfl⟩) (by decide +kernel) (by decide) rfl

end RouteCache

end ViperFx.Daemon
