/-
PCM into the float blocks that the graphs work on, and back: `src/AudioFormat.cpp`.

A float is the rational it stands for, or not finite; the sign of a zero is not kept, and no result here comes near the
greatest float. The arithmetic is that of single precision, and of double precision in `QuantizeSigned` (`Core/Rounding`).
Buffers are long enough, as `Process` has prepared them: null pointers are left out.

Results:
  · converted_back : what a format holds survives every format that is as fine
  · mixed_levels   : accumulating blocks of 16 or 24 bits is saturating addition, whatever their number
  · written_nearest: of every block, whatever is in it, the nearest samples are written
-/
import ViperFx.Core.Rounding
import ViperFx.Driver.SetConfig

namespace ViperFx.Driver

open ViperFx.Core

/-! ## Floats -/

def single : BinaryFormat := ⟨24, -149, by decide⟩
def double : BinaryFormat := ⟨53, -1074, by decide⟩

abbrev Single := Number single

/-- what a block may hold -/
inductive FloatSample where
  | finite (value : Single)
  /-- an infinity or a NaN -/
  | notFinite

theorem single_two_pow (k : ℕ) : single.Representable (2 ^ k) :=
  ⟨1, k, by decide, by show (-149 : ℤ) ≤ k; omega, by rw [zpow_natCast]; push_cast; ring⟩

def kInt16Scale : Single := ⟨2 ^ 15, single_two_pow 15⟩
def kInt24Scale : Single := ⟨2 ^ 23, single_two_pow 23⟩
def kInt32Scale : Single := ⟨2 ^ 31, single_two_pow 31⟩

def zero : Single := ⟨0, 0, 0, by decide, by decide, by norm_num⟩
def one : Single := ⟨1, by simpa using single_two_pow 0⟩
def minusOne : Single := ⟨-1, by simpa using (single_two_pow 0).neg⟩

def sanitizeAndClamp : FloatSample → Single
  | .notFinite => zero
  | .finite value => if value.value < -1 then minusOne else if 1 < value.value then one else value

/-- `static_cast<double>` of a float is exact -/
def toDouble (x : Single) : Number double := ⟨x.value, by
  obtain ⟨m, e, hm, he, hx⟩ := x.representable
  have hm' : |m| < 2 ^ 24 := hm
  have he' : (-149 : ℤ) ≤ e := he
  refine ⟨m, e, ?_, ?_, hx⟩
  · show |m| < 2 ^ 53
    omega
  · show (-1074 : ℤ) ≤ e
    omega⟩

def quantizeSigned (value : FloatSample) (bits : ℕ) : ℤ :=
  let scale : ℤ := 2 ^ (bits - 1)
  let minimum := -scale
  let maximum := scale - 1
  let normalized := sanitizeAndClamp value
  if normalized.value ≤ -1 then minimum
  else if 1 ≤ normalized.value then maximum
  else
    -- `std::llround`: ties away from zero
    let rounded := roundAway ((toDouble normalized).mul (Number.ofInt double scale)).value
    if rounded < minimum then minimum else if maximum < rounded then maximum else rounded

/-! ## Samples -/

/-- three bytes, the least significant first -/
structure Packed24 where
  b0 : BitVec 8
  b1 : BitVec 8
  b2 : BitVec 8
  deriving DecidableEq

def decodePacked24 (source : Packed24) : BitVec 32 :=
  let value := source.b0.setWidth 32 ||| source.b1.setWidth 32 <<< 8 ||| source.b2.setWidth 32 <<< 16
  if value &&& 0x00800000#32 ≠ 0#32 then value ||| 0xFF000000#32 else value

def encodePacked24 (value : BitVec 32) : Packed24 :=
  let bits := value &&& 0x00FFFFFF#32
  ⟨bits.setWidth 8, (bits >>> 8).setWidth 8, (bits >>> 16).setWidth 8⟩

/-- the three bytes as one number -/
def Packed24.toNat (source : Packed24) : ℕ := source.b0.toNat + source.b1.toNat * 2 ^ 8 + source.b2.toNat * 2 ^ 16

theorem Packed24.toNat_lt (source : Packed24) : source.toNat < 2 ^ 24 := by
  have h0 := source.b0.isLt
  have h1 := source.b1.isLt
  have h2 := source.b2.isLt
  unfold Packed24.toNat
  omega

theorem Packed24.ext_toNat {a b : Packed24} (h : a.toNat = b.toNat) : a = b := by
  obtain ⟨a0, a1, a2⟩ := a
  obtain ⟨b0, b1, b2⟩ := b
  have ha0 := a0.isLt
  have ha1 := a1.isLt
  have hb0 := b0.isLt
  have hb1 := b1.isLt
  simp only [Packed24.toNat] at h
  have h0 : a0 = b0 := BitVec.eq_of_toNat_eq (by omega)
  have h1 : a1 = b1 := BitVec.eq_of_toNat_eq (by omega)
  have h2 : a2 = b2 := BitVec.eq_of_toNat_eq (by omega)
  rw [h0, h1, h2]

theorem encodePacked24_toNat (value : BitVec 32) : (encodePacked24 value).toNat = value.toNat % 2 ^ 24 := by
  have hbits : (value &&& 0x00FFFFFF#32).toNat = value.toNat % 2 ^ 24 := by
    rw [BitVec.toNat_and]
    exact Nat.and_two_pow_sub_one_eq_mod value.toNat 24
  simp only [Packed24.toNat, encodePacked24, BitVec.toNat_setWidth, BitVec.toNat_ushiftRight, hbits, Nat.shiftRight_eq_div_pow]
  omega

/-- bytes that do not overlap add up -/
theorem or_shiftLeft {a b i : ℕ} (h : a < 2 ^ i) : a ||| b <<< i = a + b * 2 ^ i := by
  rw [Nat.or_comm, ← Nat.shiftLeft_add_eq_or_of_lt h, Nat.shiftLeft_eq, Nat.add_comm]

theorem decodePacked24_toInt (source : Packed24) : (decodePacked24 source).toInt =
    if source.toNat < 2 ^ 23 then (source.toNat : ℤ) else source.toNat - 2 ^ 24 := by
  have h0 := source.b0.isLt
  have h1 := source.b1.isLt
  have h2 := source.b2.isLt
  have hlt := source.toNat_lt
  have hvalue : (source.b0.setWidth 32 ||| source.b1.setWidth 32 <<< 8 ||| source.b2.setWidth 32 <<< 16).toNat =
      source.toNat := by
    have hfit : ∀ {b : ℕ}, b < 2 ^ 8 → b % 2 ^ 32 = b := fun hb => Nat.mod_eq_of_lt (by omega)
    have hshift1 : source.b1.toNat <<< 8 % 2 ^ 32 = source.b1.toNat <<< 8 := by
      rw [Nat.shiftLeft_eq]
      omega
    have hshift2 : source.b2.toNat <<< 16 % 2 ^ 32 = source.b2.toNat <<< 16 := by
      rw [Nat.shiftLeft_eq]
      omega
    rw [BitVec.toNat_or, BitVec.toNat_or, BitVec.toNat_shiftLeft, BitVec.toNat_shiftLeft, BitVec.toNat_setWidth,
      BitVec.toNat_setWidth, BitVec.toNat_setWidth, hfit h0, hfit h1, hfit h2, hshift1, hshift2, or_shiftLeft h0,
      or_shiftLeft (by omega)]
    rfl
  unfold decodePacked24
  generalize source.b0.setWidth 32 ||| source.b1.setWidth 32 <<< 8 ||| source.b2.setWidth 32 <<< 16 = value at hvalue ⊢
  have hmask : value &&& 0x00800000#32 = if value.getLsbD 23 then BitVec.twoPow 32 23 else 0#32 := BitVec.and_twoPow value 23
  have hsign : value.getLsbD 23 = decide (2 ^ 23 ≤ source.toNat) := by
    show value.toNat.testBit 23 = _
    rw [hvalue, Nat.testBit_eq_decide_div_mod_eq]
    exact decide_eq_decide.mpr (by omega)
  have htwo : BitVec.twoPow 32 23 ≠ 0#32 := by decide
  dsimp only
  rw [hmask, hsign]
  by_cases h : 2 ^ 23 ≤ source.toNat
  · have hor : (value ||| 0xFF000000#32).toNat = source.toNat + 0xFF * 2 ^ 24 := by
      rw [BitVec.toNat_or, hvalue]
      exact or_shiftLeft (i := 24) (b := 0xFF) hlt
    rw [if_pos (by simpa [htwo] using h), if_neg (by omega), BitVec.toInt_eq_toNat_cond, hor, if_neg (by omega)]
    push_cast
    ring
  · rw [if_neg (by simpa [htwo] using h), if_pos (by omega), BitVec.toInt_eq_toNat_cond, hvalue, if_pos (by omega)]

/-! ## Formats -/

/-- how the samples of an integer format are read and written, and that they hold what is written -/
structure IntegerPcm (σ : Type) where
  /-- the integer a sample holds -/
  load : σ → ℤ
  scale : Single
  /-- what `QuantizeSigned` is asked for -/
  bits : ℕ
  store : ℤ → σ
  /-- bits of the integer that a sample holds -/
  depth : ℕ
  bits_pos : 0 < bits
  bits_le : bits ≤ depth
  depth_le : depth ≤ 32
  scale_eq : scale.value = 2 ^ (depth - 1)
  load_bounds : ∀ s, -2 ^ (depth - 1) ≤ load s ∧ load s < 2 ^ (depth - 1)
  load_inj : ∀ s t, load s = load t → s = t
  load_store : ∀ q, -2 ^ (bits - 1) ≤ q → q < 2 ^ (bits - 1) → load (store q) = q * 2 ^ (depth - bits)

namespace IntegerPcm

variable {σ : Type} (P : IntegerPcm σ)

/-- a case of `ToFloat`, for one sample -/
def toFloat (input : σ) : Single := (Number.ofInt single (P.load input)).div P.scale

/-- a case of `FromFloat`, for one sample -/
def fromFloat (accumulate : Bool) (source : FloatSample) (output : σ) : σ :=
  let value := sanitizeAndClamp source
  let value := if accumulate then value.add (P.toFloat output) else value
  P.store (quantizeSigned (.finite value) P.bits)

end IntegerPcm

theorem bitVec_load_store {w : ℕ} (hw : 0 < w) (q : ℤ) (hlow : -2 ^ (w - 1) ≤ q) (hhigh : q < 2 ^ (w - 1)) :
    (BitVec.ofInt w q).toInt = q := by
  obtain ⟨k, rfl⟩ : ∃ k, w = k + 1 := ⟨w - 1, by omega⟩
  rw [BitVec.toInt_ofInt]
  rw [Nat.add_sub_cancel] at hlow hhigh
  refine Int.bmod_eq_of_le_mul_two ?_ ?_
  · push_cast
    rw [pow_succ]
    linarith
  · push_cast
    rw [pow_succ]
    linarith

theorem bitVec_load_bounds {w : ℕ} (s : BitVec w) : -2 ^ (w - 1) ≤ s.toInt ∧ s.toInt < 2 ^ (w - 1) :=
  ⟨BitVec.le_toInt s, BitVec.toInt_lt⟩

def pcm16Bit : IntegerPcm (BitVec 16) where
  load := BitVec.toInt
  scale := kInt16Scale
  bits := 16
  store := BitVec.ofInt 16
  depth := 16
  bits_pos := by decide
  bits_le := by decide
  depth_le := by decide
  scale_eq := rfl
  load_bounds := bitVec_load_bounds
  load_inj _ _ h := BitVec.eq_of_toInt_eq h
  load_store q hlow hhigh := by rw [bitVec_load_store (by decide) q hlow hhigh, Nat.sub_self, pow_zero, mul_one]

/-- 24 bits in the upper part of 32 -/
def pcm8_24Bit : IntegerPcm (BitVec 32) where
  load := BitVec.toInt
  scale := kInt32Scale
  bits := 24
  store quantized := BitVec.ofInt 32 (quantized * 256)
  depth := 32
  bits_pos := by decide
  bits_le := by decide
  depth_le := by decide
  scale_eq := rfl
  load_bounds := bitVec_load_bounds
  load_inj _ _ h := BitVec.eq_of_toInt_eq h
  load_store q hlow hhigh := by
    rw [bitVec_load_store (by decide)]
    · rfl
    · norm_num at hlow ⊢
      omega
    · norm_num at hhigh ⊢
      omega

theorem packed24_load_bounds (s : Packed24) : -2 ^ 23 ≤ (decodePacked24 s).toInt ∧ (decodePacked24 s).toInt < 2 ^ 23 := by
  have hlt := s.toNat_lt
  rw [decodePacked24_toInt]
  split_ifs with h
  · omega
  · omega

theorem packed24_load_inj (s t : Packed24) (h : (decodePacked24 s).toInt = (decodePacked24 t).toInt) : s = t := by
  have hs := s.toNat_lt
  have ht := t.toNat_lt
  rw [decodePacked24_toInt, decodePacked24_toInt] at h
  refine Packed24.ext_toNat ?_
  split_ifs at h <;> omega

theorem packed24_load_store (q : ℤ) (hlow : -2 ^ 23 ≤ q) (hhigh : q < 2 ^ 23) :
    (decodePacked24 (encodePacked24 (BitVec.ofInt 32 q))).toInt = q := by
  have hbits : (BitVec.ofInt 32 q).toNat = (q % 2 ^ 32).toNat := BitVec.toNat_ofInt q
  rw [decodePacked24_toInt, encodePacked24_toNat, hbits]
  split_ifs with h
  · omega
  · omega

def pcm24BitPacked : IntegerPcm Packed24 where
  load s := (decodePacked24 s).toInt
  scale := kInt24Scale
  bits := 24
  store q := encodePacked24 (BitVec.ofInt 32 q)
  depth := 24
  bits_pos := by decide
  bits_le := by decide
  depth_le := by decide
  scale_eq := rfl
  load_bounds := packed24_load_bounds
  load_inj := packed24_load_inj
  load_store q hlow hhigh := by rw [packed24_load_store q hlow hhigh, Nat.sub_self, pow_zero, mul_one]

def pcm32Bit : IntegerPcm (BitVec 32) where
  load := BitVec.toInt
  scale := kInt32Scale
  bits := 32
  store := BitVec.ofInt 32
  depth := 32
  bits_pos := by decide
  bits_le := by decide
  depth_le := by decide
  scale_eq := rfl
  load_bounds := bitVec_load_bounds
  load_inj _ _ h := BitVec.eq_of_toInt_eq h
  load_store q hlow hhigh := by rw [bitVec_load_store (by decide) q hlow hhigh, Nat.sub_self, pow_zero, mul_one]

/-! ## Quantisation -/

/-- saturation to a signed integer of `bits` bits -/
def saturated (bits : ℕ) (n : ℤ) : ℤ := max (-2 ^ (bits - 1)) (min (2 ^ (bits - 1) - 1) n)

theorem saturated_bounds (bits : ℕ) (n : ℤ) : -2 ^ (bits - 1) ≤ saturated bits n ∧ saturated bits n < 2 ^ (bits - 1) := by
  have hpos : (0 : ℤ) < 2 ^ (bits - 1) := by positivity
  unfold saturated
  omega

theorem saturated_of_bounds {bits : ℕ} {n : ℤ} (hlow : -2 ^ (bits - 1) ≤ n) (hhigh : n < 2 ^ (bits - 1)) :
    saturated bits n = n := by
  unfold saturated
  omega

/-- of the integers in range, none is nearer than the nearest one, saturated -/
theorem saturated_nearest {bits : ℕ} (x : ℚ) {k : ℤ} (hlow : -2 ^ (bits - 1) ≤ k) (hhigh : k < 2 ^ (bits - 1)) :
    |(saturated bits (roundAway x) : ℚ) - x| ≤ |(k : ℚ) - x| := by
  obtain ⟨hrlow, hrhigh⟩ := abs_le.mp (roundAway_near x)
  have hlow' : (-2 ^ (bits - 1) : ℚ) ≤ k := by exact_mod_cast hlow
  have hhigh' : (k : ℚ) ≤ 2 ^ (bits - 1) - 1 := by
    have hint : k ≤ 2 ^ (bits - 1) - 1 := by omega
    exact_mod_cast hint
  rcases lt_or_ge (roundAway x) (-2 ^ (bits - 1)) with h | hge
  · have hsaturated : saturated bits (roundAway x) = -2 ^ (bits - 1) := by
      unfold saturated
      omega
    have hgap : (roundAway x : ℚ) + 1 ≤ -2 ^ (bits - 1) := by exact_mod_cast h
    rw [hsaturated]
    push_cast
    rw [abs_of_nonneg (by linarith), abs_of_nonneg (by linarith)]
    linarith
  · rcases lt_or_ge (roundAway x) (2 ^ (bits - 1)) with hlt | h
    · rw [saturated_of_bounds hge hlt]
      exact toNearestAway.nearest x k
    · have hsaturated : saturated bits (roundAway x) = 2 ^ (bits - 1) - 1 := by
        unfold saturated
        omega
      have hgap : (2 ^ (bits - 1) : ℚ) ≤ roundAway x := by exact_mod_cast h
      rw [hsaturated]
      push_cast
      rw [abs_sub_comm, abs_of_nonneg (by linarith), abs_sub_comm, abs_of_nonneg (by linarith)]
      linarith

theorem sanitizeAndClamp_finite (v : Single) : (sanitizeAndClamp (.finite v)).value = max (-1) (min 1 v.value) := by
  unfold sanitizeAndClamp
  dsimp only
  split_ifs with hlow hhigh
  · rw [min_eq_right (by linarith), max_eq_left hlow.le]
    rfl
  · rw [min_eq_left hhigh.le, max_eq_right (by norm_num)]
    rfl
  · rw [min_eq_right (not_lt.mp hhigh), max_eq_right (not_lt.mp hlow)]

theorem sanitizeAndClamp_bounds (sample : FloatSample) :
    -1 ≤ (sanitizeAndClamp sample).value ∧ (sanitizeAndClamp sample).value ≤ 1 := by
  cases sample with
  | finite v =>
    rw [sanitizeAndClamp_finite]
    exact ⟨le_max_left _ _, max_le (by norm_num) (min_le_left _ _)⟩
  | notFinite => exact ⟨by show (-1 : ℚ) ≤ 0; norm_num, by show (0 : ℚ) ≤ 1; norm_num⟩

theorem sanitizeAndClamp_of_bounds {v : Single} (hlow : -1 ≤ v.value) (hhigh : v.value ≤ 1) :
    sanitizeAndClamp (.finite v) = v := by
  refine Number.ext_value ?_
  rw [sanitizeAndClamp_finite, min_eq_right hhigh, max_eq_right hlow]

/-- the product of `QuantizeSigned` has no more bits than the float -/
theorem toDouble_mul_value (x : Single) (k : ℕ) :
    ((toDouble x).mul (Number.ofInt double (2 ^ k))).value = x.value * 2 ^ k := by
  obtain ⟨m, e, hm, he, hx⟩ := x.representable
  have hm' : |m| < 2 ^ 24 := hm
  have he' : (-149 : ℤ) ≤ e := he
  have hscale : (Number.ofInt double (2 ^ k)).value = 2 ^ k := by
    have hpow : double.Representable (((2 ^ k : ℤ)) : ℚ) :=
      ⟨1, k, by decide, by show (-1074 : ℤ) ≤ k; omega, by rw [zpow_natCast]; push_cast; ring⟩
    rw [Number.ofInt, Number.round_value hpow]
    push_cast
    rfl
  have hvalue : (toDouble x).value * 2 ^ k = m * 2 ^ (e + k) := by
    show x.value * 2 ^ k = _
    rw [hx, BinaryFormat.two_zpow_add, zpow_natCast, mul_assoc]
  have hrep : double.Representable ((toDouble x).value * 2 ^ k) := by
    refine ⟨m, e + k, ?_, ?_, hvalue⟩
    · show |m| < 2 ^ 53
      omega
    · show (-1074 : ℤ) ≤ e + k
      omega
  rw [Number.mul, hscale, Number.round_value hrep]
  rfl

/-- **`QuantizeSigned`**: scaled, rounded, saturated -/
theorem quantizeSigned_finite (v : Single) (bits : ℕ) :
    quantizeSigned (.finite v) bits = saturated bits (roundAway (v.value * 2 ^ (bits - 1))) := by
  have hpos : (0 : ℚ) < 2 ^ (bits - 1) := by positivity
  unfold quantizeSigned saturated
  dsimp only
  rw [toDouble_mul_value, sanitizeAndClamp_finite]
  by_cases hlow : v.value ≤ -1
  · have hround : roundAway (v.value * 2 ^ (bits - 1)) ≤ -2 ^ (bits - 1) := by
      refine toNearestAway.toInt_le (q := v.value * 2 ^ (bits - 1)) ?_
      push_cast
      nlinarith
    rw [if_pos (max_le le_rfl ((min_le_right _ _).trans hlow))]
    omega
  · by_cases hhigh : 1 ≤ v.value
    · have hround : 2 ^ (bits - 1) ≤ roundAway (v.value * 2 ^ (bits - 1)) := by
        refine toNearestAway.le_toInt (q := v.value * 2 ^ (bits - 1)) ?_
        push_cast
        nlinarith
      rw [min_eq_left hhigh, max_eq_right (by norm_num), if_neg (by norm_num), if_pos le_rfl]
      have hint : (0 : ℤ) < 2 ^ (bits - 1) := by positivity
      omega
    · rw [min_eq_right (not_le.mp hhigh).le, max_eq_right (not_le.mp hlow).le, if_neg hlow, if_neg hhigh]
      have hint : (0 : ℤ) < 2 ^ (bits - 1) := by positivity
      split_ifs <;> omega

theorem quantizeSigned_bounds (v : Single) (bits : ℕ) :
    -2 ^ (bits - 1) ≤ quantizeSigned (.finite v) bits ∧ quantizeSigned (.finite v) bits < 2 ^ (bits - 1) := by
  rw [quantizeSigned_finite]
  exact saturated_bounds _ _

/-- what is on the grid already is not moved -/
theorem quantizeSigned_grid {v : Single} {bits : ℕ} {n : ℤ} (hv : v.value * 2 ^ (bits - 1) = n) :
    quantizeSigned (.finite v) bits = saturated bits n := by
  rw [quantizeSigned_finite, hv]
  exact congrArg (saturated bits) (toNearestAway.toInt_intCast n)

namespace IntegerPcm

variable {σ : Type} (P : IntegerPcm σ)

theorem fromFloat_write (source : FloatSample) (output : σ) :
    P.fromFloat false source output = P.store (quantizeSigned (.finite (sanitizeAndClamp source)) P.bits) := rfl

/-- a sample is read to single precision, and the scaling is exact -/
theorem toFloat_value (input : σ) :
    (P.toFloat input).value = single.rounded toNearestEven (P.load input) / 2 ^ (P.depth - 1) := by
  obtain ⟨k, hk⟩ := single.rounded_multiple toNearestEven (P.load input) 0
  rw [zpow_zero, mul_one, mul_one] at hk
  have hdepth := P.depth_le
  have hrep : single.Representable (k * 2 ^ (0 : ℤ)) := by
    rw [zpow_zero, mul_one, ← hk]
    exact single.rounded_representable _ _
  have hscaled := hrep.scale (s := -((P.depth - 1 : ℕ) : ℤ)) (by show (-149 : ℤ) ≤ _; omega)
  rw [zpow_zero, mul_one, zpow_neg, zpow_natCast, ← div_eq_mul_inv, ← hk] at hscaled
  have hvalue : (Number.ofInt single (P.load input)).value / P.scale.value =
      single.rounded toNearestEven (P.load input) / 2 ^ (P.depth - 1) := by
    rw [P.scale_eq]
    rfl
  rw [toFloat, Number.div, hvalue, Number.round_value hscaled]

theorem toFloat_exact {input : σ} {m : ℤ} {j : ℕ} (hm : |m| ≤ 2 ^ 24) (hload : P.load input = m * 2 ^ j) :
    (P.toFloat input).value = m * 2 ^ j / 2 ^ (P.depth - 1) := by
  have hrep : single.Representable (m * 2 ^ (j : ℤ)) := single.representable_of_le hm (by show (-149 : ℤ) ≤ j; omega)
  rw [zpow_natCast] at hrep
  rw [toFloat_value, hload]
  push_cast
  rw [single.rounded_of_representable _ hrep]

/-- what is written with at most 24 bits is read back as it was -/
theorem toFloat_store (hbits : P.bits ≤ 24) {q : ℤ} (hlow : -2 ^ (P.bits - 1) ≤ q) (hhigh : q < 2 ^ (P.bits - 1)) :
    (P.toFloat (P.store q)).value = q / 2 ^ (P.bits - 1) := by
  have hpow : (2 : ℤ) ^ (P.bits - 1) ≤ 2 ^ 24 := pow_le_pow_right₀ (by norm_num) (by omega)
  have hsplit : P.depth - 1 = (P.depth - P.bits) + (P.bits - 1) := by
    have := P.bits_pos
    have := P.bits_le
    omega
  rw [P.toFloat_exact (abs_le.mpr ⟨by omega, by omega⟩) (P.load_store q hlow hhigh), hsplit, pow_add,
    mul_comm (q : ℚ), mul_div_mul_left _ _ (by positivity)]

theorem toFloat_bounds (input : σ) : -1 ≤ (P.toFloat input).value ∧ (P.toFloat input).value ≤ 1 := by
  obtain ⟨hlow, hhigh⟩ := P.load_bounds input
  have hpos : (0 : ℚ) < 2 ^ (P.depth - 1) := by positivity
  have hrep := single_two_pow (P.depth - 1)
  have hlow' : -(2 ^ (P.depth - 1) : ℚ) ≤ P.load input := by exact_mod_cast hlow
  have hhigh' : (P.load input : ℚ) ≤ 2 ^ (P.depth - 1) := by exact_mod_cast hhigh.le
  rw [toFloat_value, le_div_iff₀ hpos, div_le_iff₀ hpos, neg_one_mul, one_mul]
  exact ⟨single.le_rounded _ hrep.neg hlow', single.rounded_le _ hrep hhigh'⟩

theorem sanitize_toFloat (input : σ) : sanitizeAndClamp (.finite (P.toFloat input)) = P.toFloat input :=
  sanitizeAndClamp_of_bounds (P.toFloat_bounds input).1 (P.toFloat_bounds input).2

/-- a float that was read is on the grid of the samples -/
theorem toFloat_grid (input : σ) : ∃ k : ℤ, (P.toFloat input).value * 2 ^ (P.depth - 1) = k := by
  obtain ⟨k, hk⟩ := single.rounded_multiple toNearestEven (P.load input) 0
  rw [zpow_zero, mul_one, mul_one] at hk
  refine ⟨k, ?_⟩
  rw [toFloat_value, hk, div_mul_cancel₀ _ (by positivity)]

theorem toFloat_shallow (hdepth : P.depth ≤ 24) (input : σ) :
    (P.toFloat input).value * 2 ^ (P.depth - 1) = P.load input := by
  obtain ⟨hlow, hhigh⟩ := P.load_bounds input
  have hpow : (2 : ℤ) ^ (P.depth - 1) ≤ 2 ^ 24 := pow_le_pow_right₀ (by norm_num) (by omega)
  rw [P.toFloat_exact (m := P.load input) (j := 0) (abs_le.mpr ⟨by omega, by omega⟩) (by rw [pow_zero, mul_one]), pow_zero,
    mul_one, div_mul_cancel₀ _ (by positivity)]

/-- what is left of a sample that is read and written again -/
def settled (input : σ) : σ := P.store (quantizeSigned (.finite (P.toFloat input)) P.bits)

theorem fromFloat_toFloat (input output : σ) : P.fromFloat false (.finite (P.toFloat input)) output = P.settled input := by
  rw [fromFloat_write, sanitize_toFloat]
  rfl

/-- nothing is lost where the float has all the bits -/
theorem settled_shallow (hdepth : P.depth ≤ 24) (hbits : P.bits = P.depth) (input : σ) : P.settled input = input := by
  obtain ⟨hlow, hhigh⟩ := P.load_bounds input
  have hquantized : quantizeSigned (.finite (P.toFloat input)) P.bits = P.load input := by
    rw [quantizeSigned_grid (by rw [hbits]; exact P.toFloat_shallow hdepth input)]
    exact saturated_of_bounds (by rw [hbits]; exact hlow) (by rw [hbits]; exact hhigh)
  refine P.load_inj _ _ ?_
  rw [settled, hquantized, P.load_store _ (by rw [hbits]; exact hlow) (by rw [hbits]; exact hhigh), hbits, Nat.sub_self,
    pow_zero, mul_one]

/-- a float on the grid of a format is what that format gives back -/
theorem kept_grid (hbits : P.bits ≤ 24) {v : Single} {n : ℤ} (hv : v.value * 2 ^ (P.bits - 1) = n)
    (hlow : -2 ^ (P.bits - 1) ≤ n) (hhigh : n < 2 ^ (P.bits - 1)) :
    P.toFloat (P.store (quantizeSigned (.finite v) P.bits)) = v := by
  refine Number.ext_value ?_
  rw [quantizeSigned_grid hv, saturated_of_bounds hlow hhigh, P.toFloat_store hbits hlow hhigh, ← hv,
    mul_div_cancel_right₀ _ (by positivity)]

/-- what was quantised is quantised to the same -/
theorem quantizeSigned_kept (hbits : P.bits ≤ 24) (v : Single) :
    quantizeSigned (.finite (P.toFloat (P.store (quantizeSigned (.finite v) P.bits)))) P.bits =
      quantizeSigned (.finite v) P.bits := by
  obtain ⟨hlow, hhigh⟩ := quantizeSigned_bounds v P.bits
  refine (quantizeSigned_grid ?_).trans (saturated_of_bounds hlow hhigh)
  rw [P.toFloat_store hbits hlow hhigh, div_mul_cancel₀ _ (by positivity)]

end IntegerPcm

/-- 32 bits give back whatever a float can hold of them -/
theorem pcm32Bit_kept {v : Single} (hlow : -1 ≤ v.value) (hhigh : v.value ≤ 1) {n : ℤ} (hv : v.value * 2 ^ 31 = n) :
    pcm32Bit.toFloat (pcm32Bit.store (quantizeSigned (.finite v) 32)) = v := by
  have hload : pcm32Bit.load (pcm32Bit.store (quantizeSigned (.finite v) 32)) = saturated 32 n := by
    obtain ⟨hqlow, hqhigh⟩ := quantizeSigned_bounds v 32
    rw [pcm32Bit.load_store _ hqlow hqhigh, quantizeSigned_grid hv]
    exact mul_one _
  refine Number.ext_value ?_
  rw [IntegerPcm.toFloat_value, hload]
  show _ / 2 ^ 31 = v.value
  rw [div_eq_iff (by norm_num), hv]
  have hnlow : -2 ^ 31 ≤ n := by
    have hcast : ((-2 ^ 31 : ℤ) : ℚ) ≤ n := by
      rw [← hv]
      push_cast
      linarith
    exact_mod_cast hcast
  have hnhigh : n ≤ 2 ^ 31 := by
    have hcast : (n : ℚ) ≤ ((2 ^ 31 : ℤ) : ℚ) := by
      rw [← hv]
      push_cast
      linarith
    exact_mod_cast hcast
  rcases hnhigh.lt_or_eq with hlt | rfl
  · obtain ⟨m, e, hm, he, hvalue⟩ := v.representable
    have hrep : single.Representable n := by
      refine ⟨m, e + 31, hm, he.trans (by omega), ?_⟩
      rw [← hv, hvalue, BinaryFormat.two_zpow_add, mul_assoc]
      norm_num
    rw [saturated_of_bounds hnlow hlt, single.rounded_of_representable _ hrep]
  · -- full scale is one step too high, but a float cannot tell
    decide +kernel

/-! ## Blocks -/

inductive PcmFormat where
  | pcm16Bit
  | pcm8_24Bit
  | pcm24BitPacked
  | pcm32Bit
  | pcmFloat
  deriving DecidableEq

namespace PcmFormat

/-- `audio_format_t` -/
def code : PcmFormat → UInt8
  | pcm16Bit => 1
  | pcm8_24Bit => 4
  | pcm24BitPacked => 6
  | pcm32Bit => 3
  | pcmFloat => 5

def ofCode? (format : UInt8) : Option PcmFormat :=
  [pcm16Bit, pcm8_24Bit, pcm24BitPacked, pcm32Bit, pcmFloat].find? fun f => f.code == format

theorem ofCode?_isSome (format : UInt8) : (ofCode? format).isSome = isSupportedPcmFormat format := by
  rw [Bool.eq_iff_iff, ofCode?, List.find?_isSome, isSupportedPcmFormat]
  simp only [List.mem_cons, List.not_mem_nil, code, beq_iff_eq, exists_eq_or_imp, Bool.or_eq_true, eq_comm (b := format)]
  grind

abbrev Sample : PcmFormat → Type
  | pcm16Bit => BitVec 16
  | pcm8_24Bit => BitVec 32
  | pcm24BitPacked => Packed24
  | pcm32Bit => BitVec 32
  | pcmFloat => FloatSample

/-- one turn of the loop in `ToFloat` -/
def toFloat : (f : PcmFormat) → f.Sample → Single
  | pcm16Bit, input => Driver.pcm16Bit.toFloat input
  | pcm8_24Bit, input => Driver.pcm8_24Bit.toFloat input
  | pcm24BitPacked, input => Driver.pcm24BitPacked.toFloat input
  | pcm32Bit, input => Driver.pcm32Bit.toFloat input
  | pcmFloat, input => sanitizeAndClamp input

/-- one turn of the loop in `FromFloat` -/
def fromFloat : (f : PcmFormat) → Bool → FloatSample → f.Sample → f.Sample
  | pcm16Bit, accumulate, source, output => Driver.pcm16Bit.fromFloat accumulate source output
  | pcm8_24Bit, accumulate, source, output => Driver.pcm8_24Bit.fromFloat accumulate source output
  | pcm24BitPacked, accumulate, source, output => Driver.pcm24BitPacked.fromFloat accumulate source output
  | pcm32Bit, accumulate, source, output => Driver.pcm32Bit.fromFloat accumulate source output
  | pcmFloat, accumulate, source, output =>
    let existing := if accumulate then sanitizeAndClamp output else zero
    .finite (sanitizeAndClamp (.finite (existing.add (sanitizeAndClamp source))))

end PcmFormat

def kChannelCount : ℕ := 2

/-- the greatest `size_t` -/
def sizeMax : ℕ := 2 ^ 64 - 1

def validFrameCount (frameCount : ℕ) : Bool := frameCount ≤ sizeMax / kChannelCount

/-- the first `n` samples of `output`, each from the one of `source` at its place -/
def overSamples {α β : Type} (turn : α → β → β) : ℕ → List α → List β → List β
  | n + 1, input :: source, old :: output => turn input old :: overSamples turn n source output
  | _, _, output => output

/-- `ToFloat`, where it does not return false -/
def toFloat (f : PcmFormat) (destination : List FloatSample) (source : List f.Sample) (frameCount : ℕ) :
    Option (List FloatSample) :=
  if validFrameCount frameCount then
    some (overSamples (fun input _ => .finite (f.toFloat input)) (frameCount * kChannelCount) source destination)
  else none

/-- `FromFloat`, where it does not return false -/
def fromFloat (f : PcmFormat) (destination : List f.Sample) (source : List FloatSample) (frameCount : ℕ)
    (accumulate : Bool) : Option (List f.Sample) :=
  if validFrameCount frameCount then
    some (overSamples (f.fromFloat accumulate) (frameCount * kChannelCount) source destination)
  else none

section Turns

variable {α β : Type} {turn : α → β → β}

theorem length_overSamples (n : ℕ) (source : List α) (output : List β) :
    (overSamples turn n source output).length = output.length := by
  induction n, source, output using overSamples.induct with
  | case1 n input source old output ih => rw [overSamples, List.length_cons, List.length_cons, ih]
  | case2 n source output h => rw [overSamples]; exact h

theorem getElem?_overSamples {n : ℕ} {source : List α} {output : List β} (hsource : n ≤ source.length)
    (houtput : n ≤ output.length) (i : ℕ) : (overSamples turn n source output)[i]? =
      if i < n then (source[i]?).bind fun input => (output[i]?).map (turn input) else output[i]? := by
  induction n generalizing source output i with
  | zero => simp [overSamples]
  | succ n ih =>
    obtain ⟨input, source, rfl⟩ := List.exists_cons_of_length_pos (by omega : 0 < source.length)
    obtain ⟨old, output, rfl⟩ := List.exists_cons_of_length_pos (by omega : 0 < output.length)
    rw [List.length_cons] at hsource houtput
    cases i with
    | zero => rfl
    | succ i =>
      have hnext := ih (by omega : n ≤ source.length) (by omega : n ≤ output.length) i
      rw [overSamples, List.getElem?_cons_succ, hnext, List.getElem?_cons_succ, List.getElem?_cons_succ]
      simp only [Nat.add_lt_add_iff_right]

end Turns

/-! ## There and back -/

section Through

variable {σ τ : Type} (P : IntegerPcm σ) (Q : IntegerPcm τ)

theorem through_integer (hbits : Q.bits ≤ 24) (h : P.depth ≤ Q.bits ∨ P.bits = Q.bits) (input : σ) (old : τ) (output : σ) :
    P.fromFloat false (.finite (Q.toFloat (Q.fromFloat false (.finite (P.toFloat input)) old))) output = P.settled input := by
  rw [Q.fromFloat_write, P.sanitize_toFloat, P.fromFloat_write, Q.sanitize_toFloat]
  rcases h with hdepth | hsame
  · have hsplit : Q.bits - 1 = (Q.bits - P.depth) + (P.depth - 1) := by
      have := P.bits_pos
      have := P.bits_le
      omega
    have hscale : (2 : ℤ) ^ (Q.bits - 1) = 2 ^ (Q.bits - P.depth) * 2 ^ (P.depth - 1) := by rw [hsplit, pow_add]
    have hgrid : (P.toFloat input).value * 2 ^ (Q.bits - 1) = (2 ^ (Q.bits - P.depth) * P.load input : ℤ) := by
      push_cast
      rw [← P.toFloat_shallow (hdepth.trans hbits), hsplit, pow_add]
      ring
    obtain ⟨hlow, hhigh⟩ := P.load_bounds input
    have hpos : (0 : ℤ) < 2 ^ (Q.bits - P.depth) := by positivity
    rw [Q.kept_grid hbits hgrid (by rw [hscale]; nlinarith) (by rw [hscale]; nlinarith)]
    rfl
  · have hkept := Q.quantizeSigned_kept hbits (P.toFloat input)
    rw [← hsame] at hkept
    rw [← hsame, hkept]
    rfl

theorem through_32 (input : σ) (old : BitVec 32) (output : σ) :
    P.fromFloat false (.finite (pcm32Bit.toFloat (pcm32Bit.fromFloat false (.finite (P.toFloat input)) old))) output =
      P.settled input := by
  obtain ⟨k, hk⟩ := P.toFloat_grid input
  obtain ⟨hlow, hhigh⟩ := P.toFloat_bounds input
  have hsplit : 31 = (P.depth - 1) + (32 - P.depth) := by
    have := P.bits_pos
    have := P.bits_le
    have := P.depth_le
    omega
  have hgrid : (P.toFloat input).value * 2 ^ 31 = (k * 2 ^ (32 - P.depth) : ℤ) := by
    push_cast
    rw [hsplit, pow_add, ← mul_assoc, hk]
  have hkept : pcm32Bit.toFloat (pcm32Bit.fromFloat false (.finite (P.toFloat input)) old) = P.toFloat input := by
    rw [pcm32Bit.fromFloat_write, P.sanitize_toFloat]
    exact pcm32Bit_kept hlow hhigh hgrid
  rw [hkept, P.fromFloat_toFloat]

end Through

namespace PcmFormat

/-- from coarse to fine -/
def rank : PcmFormat → ℕ
  | pcm16Bit => 0
  | pcm24BitPacked => 1
  | pcm8_24Bit => 1
  | pcm32Bit => 2
  | pcmFloat => 3

/-- what is left of a sample that is read and written again -/
def settled (f : PcmFormat) (sample : f.Sample) : f.Sample := f.fromFloat false (.finite (f.toFloat sample)) sample

theorem float_passed (v : Single) (old : FloatSample) (hlow : -1 ≤ v.value) (hhigh : v.value ≤ 1) :
    pcmFloat.fromFloat false (.finite v) old = .finite v := by
  have hzero : zero.add v = v := by
    unfold Number.add
    rw [show zero.value = 0 from rfl, zero_add]
    exact Number.round_of_value v
  have hkept : sanitizeAndClamp (.finite v) = v := sanitizeAndClamp_of_bounds hlow hhigh
  simp only [fromFloat, Bool.false_eq_true, if_false]
  rw [hkept, hzero, hkept]

theorem through_float {σ : Type} (P : IntegerPcm σ) (input : σ) (old : FloatSample) (output : σ) :
    P.fromFloat false (.finite (pcmFloat.toFloat (pcmFloat.fromFloat false (.finite (P.toFloat input)) old))) output =
      P.settled input := by
  obtain ⟨hlow, hhigh⟩ := P.toFloat_bounds input
  rw [float_passed _ old hlow hhigh]
  show P.fromFloat false (.finite (sanitizeAndClamp (.finite (P.toFloat input)))) output = _
  rw [P.sanitize_toFloat, P.fromFloat_toFloat]

theorem float_settled (sample old output : FloatSample) :
    pcmFloat.fromFloat false (.finite (pcmFloat.toFloat (pcmFloat.fromFloat false (.finite (pcmFloat.toFloat sample)) old)))
      output = pcmFloat.settled sample := by
  obtain ⟨hlow, hhigh⟩ := sanitizeAndClamp_bounds sample
  have hpassed : ∀ o, pcmFloat.fromFloat false (.finite (pcmFloat.toFloat sample)) o = .finite (sanitizeAndClamp sample) :=
    fun o => float_passed (sanitizeAndClamp sample) o hlow hhigh
  unfold settled
  rw [hpassed, hpassed]
  show pcmFloat.fromFloat false (.finite (sanitizeAndClamp (.finite (sanitizeAndClamp sample)))) output = _
  rw [sanitizeAndClamp_of_bounds hlow hhigh]
  exact float_passed _ output hlow hhigh

/-- **What a format holds survives every format that is as fine.** -/
theorem through {f g : PcmFormat} (h : f.rank ≤ g.rank) (input : f.Sample) (old : g.Sample) (output : f.Sample) :
    f.fromFloat false (.finite (g.toFloat (g.fromFloat false (.finite (f.toFloat input)) old))) output = f.settled input := by
  have hsettled : ∀ {σ : Type} (P : IntegerPcm σ) (s : σ), P.settled s = P.fromFloat false (.finite (P.toFloat s)) s :=
    fun P s => (P.fromFloat_toFloat s s).symm
  cases g with
  | pcm16Bit =>
    cases f <;> first | exact absurd h (by decide) | skip
    exact (through_integer _ Driver.pcm16Bit (by decide) (by decide) input old output).trans (hsettled _ _)
  | pcm8_24Bit =>
    cases f <;> first | exact absurd h (by decide) | skip
    all_goals exact (through_integer _ Driver.pcm8_24Bit (by decide) (by decide) input old output).trans (hsettled _ _)
  | pcm24BitPacked =>
    cases f <;> first | exact absurd h (by decide) | skip
    all_goals exact (through_integer _ Driver.pcm24BitPacked (by decide) (by decide) input old output).trans (hsettled _ _)
  | pcm32Bit =>
    cases f <;> first | exact absurd h (by decide) | skip
    all_goals exact (through_32 _ input old output).trans (hsettled _ _)
  | pcmFloat =>
    cases f with
    | pcmFloat => exact float_settled input old output
    | _ => exact (through_float _ input old output).trans (hsettled _ _)

theorem settled_settled (f : PcmFormat) (sample : f.Sample) : f.settled (f.settled sample) = f.settled sample :=
  through le_rfl sample sample (f.settled sample)

/-- 16 bits, and 24 bits packed, have all their bits in a float -/
theorem settled_exact {f : PcmFormat} (h : f = pcm16Bit ∨ f = pcm24BitPacked) (sample : f.Sample) :
    f.settled sample = sample := by
  rcases h with rfl | rfl
  · exact (Driver.pcm16Bit.fromFloat_toFloat sample sample).trans
      (Driver.pcm16Bit.settled_shallow (by decide) (by decide) sample)
  · exact (Driver.pcm24BitPacked.fromFloat_toFloat sample sample).trans
      (Driver.pcm24BitPacked.settled_shallow (by decide) (by decide) sample)

end PcmFormat

/-- **There and back.** A block that is converted to a format as fine as its own, and back, is the block, up to what its own
format does to it: nothing for 16 bits and for packed 24 bits, and for the others nothing more the second time. What lies
behind the block in the sink is left alone. -/
theorem converted_back {f g : PcmFormat} (h : f.rank ≤ g.rank) {frameCount : ℕ} (hframes : validFrameCount frameCount = true)
    {source sink : List f.Sample} {between : List g.Sample} {floats refloats : List FloatSample}
    (hsource : frameCount * kChannelCount ≤ source.length) (hsink : frameCount * kChannelCount ≤ sink.length)
    (hbetween : frameCount * kChannelCount ≤ between.length) (hfloats : frameCount * kChannelCount ≤ floats.length)
    (hrefloats : frameCount * kChannelCount ≤ refloats.length) :
    ∃ read written reread returned, toFloat f floats source frameCount = some read ∧
      fromFloat g between read frameCount false = some written ∧ toFloat g refloats written frameCount = some reread ∧
      fromFloat f sink reread frameCount false = some returned ∧
      returned = (source.take (frameCount * kChannelCount)).map f.settled ++ sink.drop (frameCount * kChannelCount) ∧
      (∀ sample, f.settled (f.settled sample) = f.settled sample) ∧
      (f = .pcm16Bit ∨ f = .pcm24BitPacked →
        returned = source.take (frameCount * kChannelCount) ++ sink.drop (frameCount * kChannelCount)) := by
  set n := frameCount * kChannelCount with hn
  obtain ⟨read, hread⟩ : ∃ read, read = overSamples (fun input _ => FloatSample.finite (f.toFloat input)) n source floats :=
    ⟨_, rfl⟩
  obtain ⟨written, hwritten⟩ : ∃ written, written = overSamples (g.fromFloat false) n read between := ⟨_, rfl⟩
  obtain ⟨reread, hreread⟩ :
      ∃ reread, reread = overSamples (fun input _ => FloatSample.finite (g.toFloat input)) n written refloats := ⟨_, rfl⟩
  obtain ⟨returned, hreturned⟩ : ∃ returned, returned = overSamples (f.fromFloat false) n reread sink := ⟨_, rfl⟩
  have hmain : returned = (source.take n).map f.settled ++ sink.drop n := by
    refine List.ext_getElem? fun i => ?_
    have hreadlen : n ≤ read.length := by rw [hread, length_overSamples]; exact hfloats
    have hwrittenlen : n ≤ written.length := by rw [hwritten, length_overSamples]; exact hbetween
    have hrereadlen : n ≤ reread.length := by rw [hreread, length_overSamples]; exact hrefloats
    rw [hreturned, getElem?_overSamples hrereadlen hsink]
    by_cases hi : i < n
    · rw [if_pos hi, hreread, getElem?_overSamples hwrittenlen hrefloats, if_pos hi, hwritten,
        getElem?_overSamples hreadlen hbetween, if_pos hi, hread, getElem?_overSamples hsource hfloats, if_pos hi,
        List.getElem?_append_left (by rw [List.length_map, List.length_take]; omega), List.getElem?_map,
        List.getElem?_take_of_lt hi, List.getElem?_eq_getElem (hi.trans_le hsource),
        List.getElem?_eq_getElem (hi.trans_le hsink), List.getElem?_eq_getElem (hi.trans_le hbetween),
        List.getElem?_eq_getElem (hi.trans_le hfloats), List.getElem?_eq_getElem (hi.trans_le hrefloats)]
      exact congrArg some (PcmFormat.through h _ _ _)
    · rw [if_neg hi, List.getElem?_append_right (by rw [List.length_map, List.length_take]; omega), List.getElem?_drop,
        List.length_map, List.length_take, Nat.min_eq_left hsource]
      congr 1
      omega
  refine ⟨read, written, reread, returned, ?_, ?_, ?_, ?_, hmain, f.settled_settled, fun hexact => ?_⟩
  · rw [toFloat, if_pos hframes, hread, hn]
  · rw [fromFloat, if_pos hframes, hwritten, hn]
  · rw [toFloat, if_pos hframes, hreread, hn]
  · rw [fromFloat, if_pos hframes, hreturned, hn]
  · have hid : f.settled = id := funext fun sample => PcmFormat.settled_exact hexact sample
    rw [hmain, hid, List.map_id]

/-- full scale both ways, through packed 24 bits -/
theorem converted_back_full_scale : ∃ read written reread returned,
    toFloat .pcm16Bit [.notFinite, .notFinite] [0x8000#16, 0x7FFF#16] 1 = some read ∧
    fromFloat .pcm24BitPacked [⟨0, 0, 0⟩, ⟨0, 0, 0⟩] read 1 false = some written ∧
    toFloat .pcm24BitPacked [.notFinite, .notFinite] written 1 = some reread ∧
    fromFloat .pcm16Bit [0#16, 0#16, 7#16] reread 1 false = some returned ∧ returned = [0x8000#16, 0x7FFF#16, 7#16] := by
  obtain ⟨read, written, reread, returned, hread, hwritten, hreread, hreturned, -, -, hexact⟩ :=
    @converted_back .pcm16Bit .pcm24BitPacked (by decide) 1 (by decide) [0x8000#16, 0x7FFF#16] [0#16, 0#16, 7#16]
      [⟨0, 0, 0⟩, ⟨0, 0, 0⟩] [.notFinite, .notFinite] [.notFinite, .notFinite] (by decide) (by decide) (by decide)
      (by decide) (by decide)
  exact ⟨read, written, reread, returned, hread, hwritten, hreread, hreturned, hexact (.inl rfl)⟩

/-! ## Levels -/

namespace IntegerPcm

variable {σ : Type} (P : IntegerPcm σ)

/-- the level a sample stands for, full scale being 1 -/
def level (sample : σ) : ℚ := P.load sample / 2 ^ (P.depth - 1)

theorem level_store {q : ℤ} (hlow : -2 ^ (P.bits - 1) ≤ q) (hhigh : q < 2 ^ (P.bits - 1)) :
    P.level (P.store q) = q / 2 ^ (P.bits - 1) := by
  have hsplit : P.depth - 1 = (P.depth - P.bits) + (P.bits - 1) := by
    have := P.bits_pos
    have := P.bits_le
    omega
  rw [level, P.load_store q hlow hhigh, hsplit, pow_add]
  push_cast
  rw [mul_comm (q : ℚ), mul_div_mul_left _ _ (by positivity)]

/-- the highest level -/
def top : ℚ := 1 - 1 / 2 ^ (P.bits - 1)

theorem saturated_level (n : ℤ) :
    (saturated P.bits n : ℚ) / 2 ^ (P.bits - 1) = max (-1) (min P.top (n / 2 ^ (P.bits - 1))) := by
  have hpos : (0 : ℚ) < 2 ^ (P.bits - 1) := by positivity
  unfold saturated top
  push_cast
  rw [← max_div_div_right hpos.le, ← min_div_div_right hpos.le, neg_div, sub_div, div_self hpos.ne']

/-- what is in the output already is added, and the sum is exact -/
theorem level_accumulate (hdepth : P.depth ≤ 24) (hbits : P.bits = P.depth) (input output : σ) :
    P.level (P.fromFloat true (.finite (P.toFloat input)) output) = max (-1) (min P.top (P.level output + P.level input)) := by
  obtain ⟨hilow, hihigh⟩ := P.load_bounds input
  obtain ⟨holow, hohigh⟩ := P.load_bounds output
  have hpos : (0 : ℚ) < 2 ^ (P.depth - 1) := by positivity
  have hpow : (2 : ℤ) ^ (P.depth - 1) ≤ 2 ^ 23 := pow_le_pow_right₀ (by norm_num) (by omega)
  have hlevel : ∀ s, (P.toFloat s).value = P.load s / 2 ^ (P.depth - 1) := by
    intro s
    rw [eq_div_iff hpos.ne', P.toFloat_shallow hdepth]
  have hsum : (P.toFloat input).value + (P.toFloat output).value = (P.load input + P.load output : ℤ) / 2 ^ (P.depth - 1) := by
    rw [hlevel, hlevel]
    push_cast
    ring
  have hrep : single.Representable ((P.toFloat input).value + (P.toFloat output).value) := by
    have hle := single.representable_of_le (m := P.load input + P.load output) (e := -((P.depth - 1 : ℕ) : ℤ))
      (abs_le.mpr ⟨by show -2 ^ 24 ≤ _; omega, by show _ ≤ (2 : ℤ) ^ 24; omega⟩) (by show (-149 : ℤ) ≤ _; omega)
    rwa [zpow_neg, zpow_natCast, ← div_eq_mul_inv, ← hsum] at hle
  have hvalue : ((P.toFloat input).add (P.toFloat output)).value * 2 ^ (P.bits - 1) = (P.load input + P.load output : ℤ) := by
    rw [Number.add, Number.round_value hrep, hsum, hbits, div_mul_cancel₀ _ hpos.ne']
  have hlevels : ((P.load input + P.load output : ℤ) : ℚ) / 2 ^ (P.bits - 1) = P.level output + P.level input := by
    unfold level
    rw [hbits]
    push_cast
    ring
  obtain ⟨hlow, hhigh⟩ := saturated_bounds P.bits (P.load input + P.load output)
  simp only [fromFloat, if_true]
  rw [P.sanitize_toFloat, quantizeSigned_grid hvalue, P.level_store hlow hhigh, saturated_level, hlevels]

/-- no level that can be written is nearer -/
theorem level_nearest (source : FloatSample) (output : σ) {k : ℤ} (hlow : -2 ^ (P.bits - 1) ≤ k) (hhigh : k < 2 ^ (P.bits - 1)) :
    |P.level (P.fromFloat false source output) - (sanitizeAndClamp source).value| ≤
      |(k : ℚ) / 2 ^ (P.bits - 1) - (sanitizeAndClamp source).value| := by
  set v := sanitizeAndClamp source with hv
  have hpos : (0 : ℚ) < 2 ^ (P.bits - 1) := by positivity
  obtain ⟨hqlow, hqhigh⟩ := quantizeSigned_bounds v P.bits
  have hscaled : ∀ n : ℤ, |(n : ℚ) / 2 ^ (P.bits - 1) - v.value| = |(n : ℚ) - v.value * 2 ^ (P.bits - 1)| / 2 ^ (P.bits - 1) := by
    intro n
    rw [← abs_of_pos hpos, ← abs_div, sub_div, abs_of_pos hpos, mul_div_cancel_right₀ _ hpos.ne']
  rw [P.fromFloat_write, ← hv, P.level_store hqlow hqhigh, hscaled, hscaled]
  refine div_le_div_of_nonneg_right ?_ hpos.le
  rw [quantizeSigned_finite]
  exact saturated_nearest _ hlow hhigh

/-- what is not finite adds nothing -/
theorem fromFloat_notFinite (output : σ) : P.fromFloat true .notFinite output = P.settled output := by
  have hzero : zero.add (P.toFloat output) = P.toFloat output := by
    unfold Number.add
    rw [show zero.value = 0 from rfl, zero_add]
    exact Number.round_of_value _
  show P.store (quantizeSigned (.finite (zero.add (P.toFloat output))) P.bits) = _
  rw [hzero]
  rfl

end IntegerPcm

namespace PcmFormat

/-- the level a sample stands for, full scale being 1 -/
def level : (f : PcmFormat) → f.Sample → ℚ
  | pcm16Bit, sample => Driver.pcm16Bit.level sample
  | pcm8_24Bit, sample => Driver.pcm8_24Bit.level sample
  | pcm24BitPacked, sample => Driver.pcm24BitPacked.level sample
  | pcm32Bit, sample => Driver.pcm32Bit.level sample
  | pcmFloat, sample => (sanitizeAndClamp sample).value

/-- the bits that are written of a sample, none of a float being lost -/
def bits? : PcmFormat → Option ℕ
  | pcm16Bit => some 16
  | pcm8_24Bit => some 24
  | pcm24BitPacked => some 24
  | pcm32Bit => some 32
  | pcmFloat => none

/-- the levels that can be written -/
def Writes (f : PcmFormat) (x : ℚ) : Prop :=
  ∀ bits ∈ f.bits?, ∃ k : ℤ, -2 ^ (bits - 1) ≤ k ∧ k < 2 ^ (bits - 1) ∧ x = k / 2 ^ (bits - 1)

theorem level_nearest (f : PcmFormat) (source : FloatSample) (output : f.Sample) {x : ℚ} (hx : f.Writes x) :
    |f.level (f.fromFloat false source output) - (sanitizeAndClamp source).value| ≤
      |x - (sanitizeAndClamp source).value| := by
  cases f with
  | pcmFloat =>
    obtain ⟨hlow, hhigh⟩ := sanitizeAndClamp_bounds source
    have hwritten : pcmFloat.fromFloat false source output = .finite (sanitizeAndClamp source) := by
      refine Eq.trans ?_ (float_passed (sanitizeAndClamp source) output hlow hhigh)
      simp only [fromFloat, sanitizeAndClamp_of_bounds hlow hhigh]
    have hlevel : pcmFloat.level (.finite (sanitizeAndClamp source)) = (sanitizeAndClamp source).value :=
      congrArg Number.value (sanitizeAndClamp_of_bounds hlow hhigh)
    rw [hwritten, hlevel, sub_self, abs_zero]
    exact abs_nonneg _
  | _ =>
    obtain ⟨k, hlow, hhigh, rfl⟩ := hx _ rfl
    exact IntegerPcm.level_nearest _ source output hlow hhigh

theorem fromFloat_notFinite (f : PcmFormat) (output : f.Sample) : f.fromFloat true .notFinite output = f.settled output := by
  cases f with
  | pcmFloat =>
    obtain ⟨hlow, hhigh⟩ := sanitizeAndClamp_bounds output
    have hzero : (sanitizeAndClamp output).add zero = sanitizeAndClamp output := by
      unfold Number.add
      rw [show zero.value = 0 from rfl, add_zero]
      exact Number.round_of_value _
    have hsettled : pcmFloat.settled output = .finite (sanitizeAndClamp output) := float_passed _ output hlow hhigh
    rw [hsettled]
    show FloatSample.finite (sanitizeAndClamp (.finite ((sanitizeAndClamp output).add zero))) = _
    rw [hzero, sanitizeAndClamp_of_bounds hlow hhigh]
  | _ => exact (IntegerPcm.fromFloat_notFinite _ output).trans (IntegerPcm.fromFloat_toFloat _ output output).symm

/-- the highest level that can be written -/
def top (f : PcmFormat) : ℚ :=
  match f.bits? with
  | some bits => 1 - 1 / 2 ^ (bits - 1)
  | none => 1

/-- two levels, one over the other -/
def added (f : PcmFormat) (below above : ℚ) : ℚ := max (-1) (min f.top (below + above))

theorem level_accumulate {f : PcmFormat} (h : f = pcm16Bit ∨ f = pcm24BitPacked) (input output : f.Sample) :
    f.level (f.fromFloat true (.finite (f.toFloat input)) output) = f.added (f.level output) (f.level input) := by
  rcases h with rfl | rfl
  · exact Driver.pcm16Bit.level_accumulate (by decide) rfl input output
  · exact Driver.pcm24BitPacked.level_accumulate (by decide) rfl input output

theorem top_le_one (f : PcmFormat) : f.top ≤ 1 := by
  cases hbits : f.bits? with
  | none =>
    rw [top, hbits]
  | some bits =>
    have hpos : (0 : ℚ) < 1 / 2 ^ (bits - 1) := by positivity
    rw [top, hbits]
    linarith

/-- while the levels stay below full scale, they add up -/
theorem foldl_added (f : PcmFormat) (levels : List ℚ) (x : ℚ) (h : |x| + (levels.map abs).sum ≤ f.top) :
    levels.foldl f.added x = x + levels.sum := by
  induction levels generalizing x with
  | nil => rw [List.foldl_nil, List.sum_nil, add_zero]
  | cons y levels ih =>
    rw [List.map_cons, List.sum_cons] at h
    have hrest : 0 ≤ (levels.map abs).sum := List.sum_nonneg fun a ha => by
      obtain ⟨b, -, rfl⟩ := List.mem_map.mp ha
      exact abs_nonneg b
    have habs := abs_add_le x y
    have htop := f.top_le_one
    obtain ⟨hlow, hhigh⟩ := abs_le.mp habs
    have hadded : f.added x y = x + y := by
      unfold added
      rw [min_eq_right (by linarith), max_eq_right (by linarith)]
    rw [List.foldl_cons, hadded, ih _ (by linarith), List.sum_cons, add_assoc]

/-- the level at a place of a block -/
def levelAt (f : PcmFormat) (block : List f.Sample) (i : ℕ) : ℚ := ((block[i]?).map f.level).getD 0

end PcmFormat

/-- blocks that are read one after the other, and accumulated -/
def mix (f : PcmFormat) (floats : List FloatSample) (frameCount : ℕ) (output : List f.Sample) (blocks : List (List f.Sample)) :
    Option (List f.Sample) :=
  blocks.foldlM (fun output block =>
    (toFloat f floats block frameCount).bind fun read => fromFloat f output read frameCount true) output

section Mix

variable {f : PcmFormat} {frameCount : ℕ} {floats : List FloatSample}

/-- one block -/
theorem mix_block (h : f = .pcm16Bit ∨ f = .pcm24BitPacked) (hframes : validFrameCount frameCount = true)
    (hfloats : frameCount * kChannelCount ≤ floats.length) {output block : List f.Sample}
    (houtput : frameCount * kChannelCount ≤ output.length) (hblock : frameCount * kChannelCount ≤ block.length) :
    ∃ mixed, ((toFloat f floats block frameCount).bind fun read => fromFloat f output read frameCount true) = some mixed ∧
      mixed.length = output.length ∧ (∀ i, frameCount * kChannelCount ≤ i → mixed[i]? = output[i]?) ∧
      ∀ i < frameCount * kChannelCount, f.levelAt mixed i = f.added (f.levelAt output i) (f.levelAt block i) := by
  set n := frameCount * kChannelCount with hn
  set read := overSamples (fun input _ => FloatSample.finite (f.toFloat input)) n block floats with hread
  have hreadlen : n ≤ read.length := by rw [hread, length_overSamples]; exact hfloats
  refine ⟨overSamples (f.fromFloat true) n read output, ?_, length_overSamples _ _ _, fun i hi => ?_, fun i hi => ?_⟩
  · rw [toFloat, if_pos hframes, Option.bind_some, fromFloat, if_pos hframes]
  · rw [getElem?_overSamples hreadlen houtput, if_neg (by omega)]
  · unfold PcmFormat.levelAt
    rw [getElem?_overSamples hreadlen houtput, if_pos hi, hread, getElem?_overSamples hblock hfloats, if_pos hi,
      List.getElem?_eq_getElem (hi.trans_le hblock), List.getElem?_eq_getElem (hi.trans_le hfloats),
      List.getElem?_eq_getElem (hi.trans_le houtput)]
    exact PcmFormat.level_accumulate h _ _

/-- **Mixing.** However many blocks of 16 bits, or of packed 24 bits, are accumulated into an output: each place holds the
saturated sum of the levels, taken in turn; where full scale is out of reach, it is their sum, so that their order is
nothing. What lies behind the blocks is left alone. -/
theorem mixed_levels (h : f = .pcm16Bit ∨ f = .pcm24BitPacked) (hframes : validFrameCount frameCount = true)
    (hfloats : frameCount * kChannelCount ≤ floats.length) {output : List f.Sample}
    (houtput : frameCount * kChannelCount ≤ output.length) {blocks : List (List f.Sample)}
    (hblocks : ∀ block ∈ blocks, frameCount * kChannelCount ≤ block.length) :
    ∃ mixed, mix f floats frameCount output blocks = some mixed ∧
      (∀ i, frameCount * kChannelCount ≤ i → mixed[i]? = output[i]?) ∧
      ∀ i < frameCount * kChannelCount,
        f.levelAt mixed i = (blocks.map (f.levelAt · i)).foldl f.added (f.levelAt output i) ∧
        (|f.levelAt output i| + ((blocks.map (f.levelAt · i)).map abs).sum ≤ f.top →
          f.levelAt mixed i = f.levelAt output i + (blocks.map (f.levelAt · i)).sum) := by
  have hrun : ∃ mixed, mix f floats frameCount output blocks = some mixed ∧
      (∀ i, frameCount * kChannelCount ≤ i → mixed[i]? = output[i]?) ∧
      ∀ i < frameCount * kChannelCount,
        f.levelAt mixed i = (blocks.map (f.levelAt · i)).foldl f.added (f.levelAt output i) := by
    induction blocks generalizing output with
    | nil => exact ⟨output, rfl, fun _ _ => rfl, fun _ _ => rfl⟩
    | cons block blocks ih =>
      obtain ⟨once, honce, hlen, hbehind, hlevels⟩ :=
        mix_block h hframes hfloats houtput (hblocks block List.mem_cons_self)
      obtain ⟨mixed, hmixed, hbehind', hlevels'⟩ :=
        ih (hlen ▸ houtput) fun b hb => hblocks b (List.mem_cons_of_mem block hb)
      refine ⟨mixed, ?_, fun i hi => (hbehind' i hi).trans (hbehind i hi), fun i hi => ?_⟩
      · unfold mix at hmixed ⊢
        rw [List.foldlM_cons, honce]
        exact hmixed
      · rw [hlevels' i hi, hlevels i hi, List.map_cons, List.foldl_cons]
  obtain ⟨mixed, hmixed, hbehind, hlevels⟩ := hrun
  refine ⟨mixed, hmixed, hbehind, fun i hi => ⟨hlevels i hi, fun hsum => ?_⟩⟩
  rw [hlevels i hi]
  exact f.foldl_added _ _ hsum

end Mix

/-- two blocks of 16 bits, one of them at full scale -/
theorem mixed_full_scale : ∃ mixed,
    mix .pcm16Bit [.notFinite, .notFinite] 1 [0x0001#16, 0x8000#16] [[0x7FFF#16, 0x0000#16], [0xFFFE#16, 0x0003#16]] =
      some mixed ∧ (.pcm16Bit : PcmFormat).levelAt mixed 0 = 32765 / 32768 := by
  obtain ⟨mixed, hmixed, -, hlevels⟩ := @mixed_levels .pcm16Bit 1 [.notFinite, .notFinite] (.inl rfl) (by decide) (by decide)
    [0x0001#16, 0x8000#16] (by decide) [[0x7FFF#16, 0x0000#16], [0xFFFE#16, 0x0003#16]] (by decide)
  exact ⟨mixed, hmixed, (hlevels 0 (by decide)).1.trans (by decide +kernel)⟩

/-- **Writing.** Whatever a block of floats holds, the samples written are the nearest ones to what is left of it between minus
one and one, an infinity or a NaN counting as nothing: as silence where the output is overwritten, and where the block is
accumulated as no change but that of a sample read and written again. -/
theorem written_nearest (f : PcmFormat) {frameCount : ℕ} (hframes : validFrameCount frameCount = true)
    {output : List f.Sample} {source : List FloatSample} (houtput : frameCount * kChannelCount ≤ output.length)
    (hsource : frameCount * kChannelCount ≤ source.length) :
    ∃ written accumulated, fromFloat f output source frameCount false = some written ∧
      fromFloat f output source frameCount true = some accumulated ∧
      (∀ i, frameCount * kChannelCount ≤ i → written[i]? = output[i]? ∧ accumulated[i]? = output[i]?) ∧
      ∀ i < frameCount * kChannelCount, ∀ sample ∈ source[i]?,
        (∃ s ∈ written[i]?, ∀ x, f.Writes x →
          |f.level s - (sanitizeAndClamp sample).value| ≤ |x - (sanitizeAndClamp sample).value|) ∧
        (sample = .notFinite → f.levelAt written i = 0 ∧ accumulated[i]? = (output[i]?).map f.settled) := by
  set n := frameCount * kChannelCount with hn
  refine ⟨overSamples (f.fromFloat false) n source output, overSamples (f.fromFloat true) n source output, ?_, ?_,
    fun i hi => ?_, fun i hi sample hsample => ?_⟩
  · rw [fromFloat, if_pos hframes]
  · rw [fromFloat, if_pos hframes]
  · have hbehind : ∀ accumulate, (overSamples (f.fromFloat accumulate) n source output)[i]? = output[i]? :=
      fun accumulate => (getElem?_overSamples hsource houtput i).trans (if_neg (by omega))
    exact ⟨hbehind false, hbehind true⟩
  · obtain ⟨old, hold⟩ : ∃ old, output[i]? = some old := ⟨_, List.getElem?_eq_getElem (hi.trans_le houtput)⟩
    have hturn : ∀ accumulate, (overSamples (f.fromFloat accumulate) n source output)[i]? =
        some (f.fromFloat accumulate sample old) := by
      intro accumulate
      rw [getElem?_overSamples hsource houtput, if_pos hi, Option.mem_def.mp hsample, hold]
      rfl
    refine ⟨⟨_, hturn false, fun x hx => f.level_nearest sample old hx⟩, fun hnot => ?_⟩
    subst hnot
    have hsilent : f.Writes 0 := fun bits _ => ⟨0, neg_nonpos.mpr (by positivity), by positivity, by simp⟩
    have hnearest := f.level_nearest .notFinite old hsilent
    have hzero : (sanitizeAndClamp .notFinite).value = 0 := rfl
    rw [hzero, sub_zero, sub_zero, abs_zero] at hnearest
    refine ⟨?_, ?_⟩
    · rw [PcmFormat.levelAt, hturn]
      exact abs_nonpos_iff.mp hnearest
    · rw [hturn, hold, f.fromFloat_notFinite]
      rfl

/-- a NaN beside a quarter, into 16 bits -/
theorem written_nearest_quarter : ∃ written accumulated,
    fromFloat .pcm16Bit [0x1234#16, 0#16] [.notFinite, .finite ⟨1 / 4, 1, -2, by decide, by decide, by norm_num⟩] 1 false =
      some written ∧
    fromFloat .pcm16Bit [0x1234#16, 0#16] [.notFinite, .finite ⟨1 / 4, 1, -2, by decide, by decide, by norm_num⟩] 1 true =
      some accumulated ∧
    (.pcm16Bit : PcmFormat).levelAt written 0 = 0 ∧ accumulated[0]? = some 0x1234#16 := by
  obtain ⟨written, accumulated, hwritten, haccumulated, -, hplaces⟩ :=
    @written_nearest .pcm16Bit 1 (by decide) [0x1234#16, 0#16]
      [.notFinite, .finite ⟨1 / 4, 1, -2, by decide, by decide, by norm_num⟩] (by decide) (by decide)
  obtain ⟨hsilent, hleft⟩ := (hplaces 0 (by decide) .notFinite rfl).2 rfl
  exact ⟨written, accumulated, hwritten, haccumulated, hsilent,
    hleft.trans (congrArg some (PcmFormat.settled_exact (.inl rfl) _))⟩

end ViperFx.Driver
