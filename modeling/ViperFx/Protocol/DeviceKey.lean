/-
Route identity: `protocol/DeviceKey.cpp` and the digest it rests on, `tools/Sha256.cpp`.

A device key names an output route. The daemon addresses its snapshot store by the SHA-256 of the normalized key, the
driver refuses a snapshot whose hash is not the announced one, and `ValidateSnapshot` recomputes the hash from the key
a snapshot carries. Strings are byte strings; the character classes are those of the C locale.
-/
import ViperFx.Protocol.Wire

namespace ViperFx.Protocol

/-! ## SHA-256 -/

namespace Sha256

def kRound : List UInt32 := [
  0x428A2F98, 0x71374491, 0xB5C0FBCF, 0xE9B5DBA5, 0x3956C25B, 0x59F111F1, 0x923F82A4, 0xAB1C5ED5,
  0xD807AA98, 0x12835B01, 0x243185BE, 0x550C7DC3, 0x72BE5D74, 0x80DEB1FE, 0x9BDC06A7, 0xC19BF174,
  0xE49B69C1, 0xEFBE4786, 0x0FC19DC6, 0x240CA1CC, 0x2DE92C6F, 0x4A7484AA, 0x5CB0A9DC, 0x76F988DA,
  0x983E5152, 0xA831C66D, 0xB00327C8, 0xBF597FC7, 0xC6E00BF3, 0xD5A79147, 0x06CA6351, 0x14292967,
  0x27B70A85, 0x2E1B2138, 0x4D2C6DFC, 0x53380D13, 0x650A7354, 0x766A0ABB, 0x81C2C92E, 0x92722C85,
  0xA2BFE8A1, 0xA81A664B, 0xC24B8B70, 0xC76C51A3, 0xD192E819, 0xD6990624, 0xF40E3585, 0x106AA070,
  0x19A4C116, 0x1E376C08, 0x2748774C, 0x34B0BCB5, 0x391C0CB3, 0x4ED8AA4A, 0x5B9CCA4F, 0x682E6FF3,
  0x748F82EE, 0x78A5636F, 0x84C87814, 0x8CC70208, 0x90BEFFFA, 0xA4506CEB, 0xBEF9A3F7, 0xC67178F2]

/-- the eight working words -/
structure St where
  a : UInt32
  b : UInt32
  c : UInt32
  d : UInt32
  e : UInt32
  f : UInt32
  g : UInt32
  h : UInt32
  deriving DecidableEq

def init : St :=
  ⟨0x6A09E667, 0xBB67AE85, 0x3C6EF372, 0xA54FF53A, 0x510E527F, 0x9B05688C, 0x1F83D9AB, 0x5BE0CD19⟩

def rotateRight (value amount : UInt32) : UInt32 := (value >>> amount) ||| (value <<< (32 - amount))

/-- the big-endian word at position `index` of a block -/
def blockWord (block : Bytes) (index : ℕ) : UInt32 :=
  (block.getD (index * 4) 0).toUInt32 <<< 24 ||| (block.getD (index * 4 + 1) 0).toUInt32 <<< 16 |||
    (block.getD (index * 4 + 2) 0).toUInt32 <<< 8 ||| (block.getD (index * 4 + 3) 0).toUInt32

/-- the message schedule extends the words seen so far by one -/
def scheduleWord (words : List UInt32) (index : ℕ) : List UInt32 :=
  let w15 := words.getD (index - 15) 0
  let w2 := words.getD (index - 2) 0
  let s0 := rotateRight w15 7 ^^^ rotateRight w15 18 ^^^ (w15 >>> 3)
  let s1 := rotateRight w2 17 ^^^ rotateRight w2 19 ^^^ (w2 >>> 10)
  words ++ [words.getD (index - 16) 0 + s0 + words.getD (index - 7) 0 + s1]

def schedule (block : Bytes) : List UInt32 :=
  (List.range' 16 48).foldl scheduleWord ((List.range 16).map (blockWord block))

/-- one of the 64 rounds, with its constant and its schedule word -/
def mixRound (s : St) (kw : UInt32 × UInt32) : St :=
  let sum1 := rotateRight s.e 6 ^^^ rotateRight s.e 11 ^^^ rotateRight s.e 25
  let choice := (s.e &&& s.f) ^^^ (~~~ s.e &&& s.g)
  let temporary1 := s.h + sum1 + choice + kw.1 + kw.2
  let sum0 := rotateRight s.a 2 ^^^ rotateRight s.a 13 ^^^ rotateRight s.a 22
  let majority := (s.a &&& s.b) ^^^ (s.a &&& s.c) ^^^ (s.b &&& s.c)
  ⟨temporary1 + (sum0 + majority), s.a, s.b, s.c, s.d + temporary1, s.e, s.f, s.g⟩

def transform (block : Bytes) (s : St) : St :=
  let t := (kRound.zip (schedule block)).foldl mixRound s
  ⟨s.a + t.a, s.b + t.b, s.c + t.c, s.d + t.d, s.e + t.e, s.f + t.f, s.g + t.g, s.h + t.h⟩

/-- the whole blocks of `data`, folded into the state; `fuel` bounds the number of blocks -/
def absorb : ℕ → Bytes → St → Bytes × St
  | 0, data, s => (data, s)
  | fuel + 1, data, s =>
    if 64 ≤ data.length then absorb fuel (data.drop 64) (transform (data.take 64) s) else (data, s)

/-- the last one or two blocks: the remaining bytes, 0x80, zeros and the big-endian bit length -/
def tail (remaining : Bytes) (size : ℕ) : Bytes :=
  let padded := if remaining.length < 56 then 64 else 128
  remaining ++ [0x80] ++ List.replicate (padded - remaining.length - 9) 0 ++ (leBytes 8 (size * 8)).reverse

def wordBytes (w : UInt32) : Bytes := (leBytes 4 w.toNat).reverse

def digest (data : Bytes) : Bytes :=
  let (remaining, s) := absorb (data.length / 64) data init
  let pad := tail remaining data.length
  let s := transform (pad.take 64) s
  let s := if pad.length = 128 then transform (pad.drop 64) s else s
  [s.a, s.b, s.c, s.d, s.e, s.f, s.g, s.h].flatMap wordBytes

/-- a half byte as the lowercase hexadecimal digit `std::hex` prints -/
def hexDigit (n : ℕ) : UInt8 := if n < 10 then UInt8.ofNat (48 + n) else UInt8.ofNat (87 + n)

def digestHex (data : Bytes) : Bytes :=
  (digest data).flatMap fun b => [hexDigit (b.toNat / 16), hexDigit (b.toNat % 16)]

end Sha256

/-! ## Device identity -/

/-- the bytes of an ASCII literal -/
def ascii (text : List Char) : Bytes := text.map fun c => UInt8.ofNat c.toNat

structure DeviceIdentity where
  routeType : Bytes
  stableAddressOrPort : Bytes
  productName : Bytes
  sampleRate : UInt32
  channelMask : UInt32
  encoding : Bytes
  outputFlags : UInt32
  audioSessionId : UInt32 := 0
  processId : UInt32 := 0
  deriving DecidableEq

def isSpace (b : UInt8) : Bool := b == 32 || (9 ≤ b && b ≤ 13)

def toLower (b : UInt8) : UInt8 := if 65 ≤ b && b ≤ 90 then b + 32 else b

/-- the loop of `NormalizeField`: the output so far and whether a space is owed before the next character -/
def normalizeStep (st : Bytes × Bool) (byte : UInt8) : Bytes × Bool :=
  if isSpace byte then (st.1, !st.1.isEmpty)
  else if st.2 then (st.1 ++ [32] ++ [toLower byte], false)
  else (st.1 ++ [toLower byte], false)

def normalizeField (value : Bytes) : Bytes :=
  ((value.foldl normalizeStep ([], false)).1.reverse.dropWhile (· == 32)).reverse

/-- `haystack.find(needle) != npos` -/
def containsBytes (needle haystack : Bytes) : Bool := haystack.tails.any needle.isPrefixOf

def containsVolatileToken (value : Bytes) : Bool :=
  let lower := value.map toLower
  containsBytes (ascii ['s', 'e', 's', 's', 'i', 'o', 'n']) lower
    || containsBytes (ascii ['p', 'r', 'o', 'c', 'e', 's', 's']) lower
    || containsBytes (ascii ['p', 'i', 'd']) lower
    || containsBytes (ascii ['t', 'r', 'a', 'c', 'k']) lower

def hasInvalidDelimiter (value : Bytes) : Bool :=
  value.contains 124 || value.any fun byte => byte < 32 || byte == 127

def isValidDeviceIdentity (identity : DeviceIdentity) : Bool :=
  !(identity.audioSessionId != 0 || identity.processId != 0)
    && !(identity.sampleRate == 0 || identity.channelMask == 0)
    && !((normalizeField identity.routeType).isEmpty
      || (normalizeField identity.stableAddressOrPort).isEmpty
      || (normalizeField identity.productName).isEmpty
      || (normalizeField identity.encoding).isEmpty)
    && !hasInvalidDelimiter identity.routeType
    && !hasInvalidDelimiter identity.stableAddressOrPort
    && !hasInvalidDelimiter identity.productName
    && !hasInvalidDelimiter identity.encoding
    && !containsVolatileToken identity.stableAddressOrPort

/-- `std::to_string` of an unsigned number -/
def decimal (n : UInt32) : Bytes := ascii (Nat.toDigits 10 n.toNat)

def normalizeDeviceKey (identity : DeviceIdentity) : Bytes :=
  if !isValidDeviceIdentity identity then []
  else normalizeField identity.routeType ++ [124]
    ++ normalizeField identity.stableAddressOrPort ++ [124]
    ++ normalizeField identity.productName ++ [124]
    ++ decimal identity.sampleRate ++ [124]
    ++ decimal identity.channelMask ++ [124]
    ++ normalizeField identity.encoding ++ [124]
    ++ decimal identity.outputFlags

def hashDeviceKeyWith (sha256Hex : Bytes → Bytes) (normalizedKey : Bytes) : Bytes :=
  if normalizedKey.isEmpty then [] else sha256Hex normalizedKey

def hashDeviceKey (normalizedKey : Bytes) : Bytes := hashDeviceKeyWith Sha256.digestHex normalizedKey

/-- the digest of "abc", as in the standard -/
example : (hashDeviceKey [0x61, 0x62, 0x63]).take 8 = ascii ['b', 'a', '7', '8', '1', '6', 'b', 'f'] := by
  decide +kernel

theorem digestHex_length (data : Bytes) : (Sha256.digestHex data).length = 64 := by
  simp [Sha256.digestHex, Sha256.digest, Sha256.wordBytes]

theorem hexDigit_range (n : ℕ) (h : n < 16) :
    (48 ≤ Sha256.hexDigit n ∧ Sha256.hexDigit n ≤ 57) ∨ (97 ≤ Sha256.hexDigit n ∧ Sha256.hexDigit n ≤ 102) := by
  interval_cases n <;> decide

end ViperFx.Protocol
