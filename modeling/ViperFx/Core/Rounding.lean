/-
Binary floating point, as the rationals its numbers stand for.

A format has `prec` significant bits over a least exponent; the greatest exponent is not modelled, so nothing here overflows.
An operation is the exact one, rounded (`rounded`). What to do with an integer part is a `Rounding`: to the nearest, odd, and
monotone; ties to even and ties away from zero are two of them.

Results:
  · rounded_of_representable : what the format has is not rounded
  · rounded_representable    : what is rounded, the format has
  · rounded_mono             : rounding keeps the order
-/
import Mathlib.Data.Int.Log
import Mathlib.Data.Rat.Floor
import Mathlib.Tactic

namespace ViperFx.Core

/-! ## Integers -/

/-- a way to take the nearest integer -/
structure Rounding where
  toInt : ℚ → ℤ
  near : ∀ q, |(toInt q : ℚ) - q| ≤ 1 / 2
  mono : ∀ a b, a ≤ b → toInt a ≤ toInt b
  odd : ∀ q, toInt (-q) = -toInt q

namespace Rounding

variable (r : Rounding)

@[simp] theorem toInt_intCast (n : ℤ) : r.toInt n = n := by
  have hnear := abs_le.mp (r.near n)
  have hlow : ((n - 1 : ℤ) : ℚ) < r.toInt n := by push_cast; linarith
  have hhigh : (r.toInt n : ℚ) < ((n + 1 : ℤ) : ℚ) := by push_cast; linarith
  have hlow' := Int.cast_lt.mp hlow
  have hhigh' := Int.cast_lt.mp hhigh
  omega

@[simp] theorem toInt_zero : r.toInt 0 = 0 := by simpa using r.toInt_intCast 0

theorem le_toInt {n : ℤ} {q : ℚ} (h : (n : ℚ) ≤ q) : n ≤ r.toInt q := by
  have hmono := r.mono _ _ h
  rwa [toInt_intCast] at hmono

theorem toInt_le {n : ℤ} {q : ℚ} (h : q ≤ n) : r.toInt q ≤ n := by
  have hmono := r.mono _ _ h
  rwa [toInt_intCast] at hmono

theorem abs_toInt_le {n : ℤ} {q : ℚ} (h : |q| ≤ n) : |r.toInt q| ≤ n := by
  obtain ⟨hlow, hhigh⟩ := abs_le.mp h
  exact abs_le.mpr ⟨r.le_toInt (by push_cast; exact hlow), r.toInt_le hhigh⟩

/-- no integer is nearer -/
theorem nearest (q : ℚ) (n : ℤ) : |(r.toInt q : ℚ) - q| ≤ |(n : ℚ) - q| := by
  by_cases h : n = r.toInt q
  · rw [h]
  · have hone : (1 : ℚ) ≤ |(n : ℚ) - r.toInt q| := by
      have hint : (1 : ℤ) ≤ |n - r.toInt q| := Int.one_le_abs (sub_ne_zero.mpr h)
      exact_mod_cast hint
    have htriangle : |(n : ℚ) - r.toInt q| ≤ |(n : ℚ) - q| + |(r.toInt q : ℚ) - q| := by
      rw [abs_sub_comm (r.toInt q : ℚ) q]
      exact abs_sub_le _ _ _
    have hnear := r.near q
    linarith

end Rounding

theorem floor_bounds (q : ℚ) : (⌊q⌋ : ℚ) ≤ q ∧ q < ⌊q⌋ + 1 := ⟨Int.floor_le q, Int.lt_floor_add_one q⟩

/-- the nearest integer, a tie to the even one -/
def roundEven (q : ℚ) : ℤ :=
  if q - ⌊q⌋ < 1 / 2 then ⌊q⌋
  else if 1 / 2 < q - ⌊q⌋ then ⌊q⌋ + 1
  else if ⌊q⌋ % 2 = 0 then ⌊q⌋ else ⌊q⌋ + 1

/-- the nearest integer, a tie away from zero -/
def roundAway (q : ℚ) : ℤ := if 0 ≤ q then ⌊q + 1 / 2⌋ else ⌈q - 1 / 2⌉

/-- what `roundEven` is after -/
def NearestEven (q : ℚ) (n : ℤ) : Prop := |(n : ℚ) - q| < 1 / 2 ∨ |(n : ℚ) - q| = 1 / 2 ∧ n % 2 = 0

theorem NearestEven.unique {q : ℚ} {m n : ℤ} (hm : NearestEven q m) (hn : NearestEven q n) : m = n := by
  have htriangle : |(m : ℚ) - n| ≤ |(m : ℚ) - q| + |(n : ℚ) - q| := by
    rw [abs_sub_comm (n : ℚ) q]
    exact abs_sub_le _ _ _
  have hint : |(m : ℚ) - n| = (|m - n| : ℤ) := by push_cast; rfl
  rcases hm with hm | ⟨hm, hmeven⟩
  · have hclose : ((|m - n| : ℤ) : ℚ) < 1 := by rcases hn with hn | ⟨hn, -⟩ <;> linarith
    have hzero : |m - n| < 1 := by exact_mod_cast hclose
    have := Int.abs_lt_one_iff.mp hzero
    omega
  · rcases hn with hn | ⟨hn, hneven⟩
    · have hclose : ((|m - n| : ℤ) : ℚ) < 1 := by linarith
      have hzero : |m - n| < 1 := by exact_mod_cast hclose
      have := Int.abs_lt_one_iff.mp hzero
      omega
    · have hclose : ((|m - n| : ℤ) : ℚ) ≤ 1 := by linarith
      have hone : |m - n| ≤ 1 := by exact_mod_cast hclose
      have := abs_le.mp hone
      omega

theorem roundEven_nearest (q : ℚ) : NearestEven q (roundEven q) := by
  obtain ⟨hlow, hhigh⟩ := floor_bounds q
  unfold roundEven NearestEven
  split_ifs with hbelow habove heven
  · left
    rw [abs_sub_comm, abs_of_nonneg (by linarith)]
    exact hbelow
  · left
    push_cast
    rw [abs_of_nonneg (by linarith)]
    linarith
  · right
    rw [abs_sub_comm, abs_of_nonneg (by linarith)]
    exact ⟨by linarith, heven⟩
  · right
    push_cast
    rw [abs_of_nonneg (by linarith)]
    exact ⟨by linarith, by omega⟩

theorem NearestEven.neg {q : ℚ} {n : ℤ} (h : NearestEven q n) : NearestEven (-q) (-n) := by
  have hdist : |((-n : ℤ) : ℚ) - -q| = |(n : ℚ) - q| := by
    rw [← abs_neg]
    push_cast
    ring_nf
  unfold NearestEven
  rw [hdist]
  rcases h with h | ⟨h, heven⟩
  · exact .inl h
  · exact .inr ⟨h, by omega⟩

theorem NearestEven.le {a b : ℚ} {m n : ℤ} (hm : NearestEven a m) (hn : NearestEven b n) (h : a ≤ b) : m ≤ n := by
  by_contra hlt
  have hgap : (n : ℚ) + 1 ≤ m := by
    have hint : n + 1 ≤ m := by omega
    exact_mod_cast hint
  have hlow : -(1 / 2) ≤ (n : ℚ) - b := by rcases hn with hn | ⟨hn, -⟩ <;> linarith [neg_abs_le ((n : ℚ) - b)]
  have hhigh : (m : ℚ) - a ≤ 1 / 2 := by rcases hm with hm | ⟨hm, -⟩ <;> linarith [le_abs_self ((m : ℚ) - a)]
  -- both are half a unit off, so `a` and `b` are one tie
  have heq : a = b := by linarith
  subst heq
  exact hlt (hm.unique hn).le

/-- to the nearest, ties to even -/
def toNearestEven : Rounding where
  toInt := roundEven
  near q := by rcases roundEven_nearest q with h | ⟨h, -⟩ <;> exact h.le
  mono a b h := (roundEven_nearest a).le (roundEven_nearest b) h
  odd q := (roundEven_nearest (-q)).unique (roundEven_nearest q).neg

theorem roundAway_neg (q : ℚ) : roundAway (-q) = -roundAway q := by
  unfold roundAway
  rcases lt_trichotomy q 0 with h | h | h
  · rw [if_pos (by linarith), if_neg (by linarith), ← Int.floor_neg]
    ring_nf
  · subst h
    norm_num
  · rw [if_neg (by linarith), if_pos h.le, ← Int.ceil_neg]
    ring_nf

theorem roundAway_near (q : ℚ) : |(roundAway q : ℚ) - q| ≤ 1 / 2 := by
  unfold roundAway
  split_ifs
  · have hfloor := floor_bounds (q + 1 / 2)
    exact abs_le.mpr ⟨by linarith, by linarith⟩
  · have hlow := Int.le_ceil (q - 1 / 2)
    have hhigh := Int.ceil_lt_add_one (q - 1 / 2)
    exact abs_le.mpr ⟨by linarith, by linarith⟩

theorem roundAway_mono {a b : ℚ} (h : a ≤ b) : roundAway a ≤ roundAway b := by
  unfold roundAway
  split_ifs with ha hb hb
  · exact Int.floor_le_floor (by linarith)
  · exact absurd (ha.trans h) hb
  · have hnonpos : ⌈a - 1 / 2⌉ ≤ 0 := Int.ceil_le.mpr (by push_cast; linarith)
    have hnonneg : 0 ≤ ⌊b + 1 / 2⌋ := Int.floor_nonneg.mpr (by linarith)
    exact hnonpos.trans hnonneg
  · exact Int.ceil_le_ceil (by linarith)

/-- to the nearest, ties away from zero -/
def toNearestAway : Rounding where
  toInt := roundAway
  near := roundAway_near
  mono _ _ := roundAway_mono
  odd := roundAway_neg

/-! ## Formats -/

structure BinaryFormat where
  /-- significant bits, the leading one among them -/
  prec : ℕ
  /-- the exponent of the least positive number -/
  emin : ℤ
  prec_pos : 0 < prec

namespace BinaryFormat

variable (F : BinaryFormat) (r : Rounding)

/-- the numbers of the format -/
def Representable (q : ℚ) : Prop := ∃ m e : ℤ, |m| < 2 ^ F.prec ∧ F.emin ≤ e ∧ q = m * 2 ^ e

/-- the exponent of the last bit that the format keeps of `q` -/
def quantum (q : ℚ) : ℤ := max (Int.log 2 |q| + 1 - F.prec) F.emin

def rounded (q : ℚ) : ℚ := r.toInt (q / 2 ^ F.quantum q) * 2 ^ F.quantum q

theorem two_zpow_pos (e : ℤ) : (0 : ℚ) < 2 ^ e := zpow_pos (by norm_num) e

theorem two_zpow_le {d e : ℤ} (h : d ≤ e) : (2 : ℚ) ^ d ≤ 2 ^ e := zpow_le_zpow_right₀ (by norm_num) h

theorem two_zpow_add (d e : ℤ) : (2 : ℚ) ^ (d + e) = 2 ^ d * 2 ^ e := zpow_add₀ (by norm_num) d e

theorem emin_le_quantum (q : ℚ) : F.emin ≤ F.quantum q := le_max_right _ _

@[simp] theorem quantum_neg (q : ℚ) : F.quantum (-q) = F.quantum q := by
  unfold quantum
  rw [abs_neg]

@[simp] theorem rounded_zero : F.rounded r 0 = 0 := by
  unfold rounded
  rw [zero_div, Rounding.toInt_zero, Int.cast_zero, zero_mul]

theorem rounded_neg (q : ℚ) : F.rounded r (-q) = -F.rounded r q := by
  unfold rounded
  rw [quantum_neg, neg_div, r.odd]
  push_cast
  ring

/-- what is left of `q` before the rounding has no more than `prec` bits -/
theorem abs_div_quantum (q : ℚ) : |q / 2 ^ F.quantum q| ≤ ((2 ^ F.prec : ℤ) : ℚ) := by
  have hpos := two_zpow_pos (F.quantum q)
  rw [abs_div, abs_of_pos hpos, div_le_iff₀ hpos]
  have hlog : |q| < 2 ^ (Int.log 2 |q| + 1) := Int.lt_zpow_succ_log_self (by norm_num) _
  have hle : Int.log 2 |q| + 1 ≤ F.prec + F.quantum q := by
    have := le_max_left (Int.log 2 |q| + 1 - F.prec) F.emin
    unfold quantum
    omega
  calc |q| ≤ 2 ^ (Int.log 2 |q| + 1) := hlog.le
    _ ≤ 2 ^ ((F.prec : ℤ) + F.quantum q) := two_zpow_le hle
    _ = ((2 ^ F.prec : ℤ) : ℚ) * 2 ^ F.quantum q := by
      rw [two_zpow_add, zpow_natCast]
      push_cast
      rfl

theorem rounded_abs_le (q : ℚ) : |r.toInt (q / 2 ^ F.quantum q)| ≤ 2 ^ F.prec :=
  r.abs_toInt_le (F.abs_div_quantum q)

/-- **What is rounded, the format has.** -/
theorem rounded_representable (q : ℚ) : F.Representable (F.rounded r q) := by
  set m := r.toInt (q / 2 ^ F.quantum q) with hm
  rcases (F.rounded_abs_le r q).lt_or_eq with h | h
  · exact ⟨m, F.quantum q, h, F.emin_le_quantum q, rfl⟩
  · -- the carry out of the last binade: one bit, one place higher
    obtain ⟨p, hp⟩ : ∃ p, F.prec = p + 1 := ⟨F.prec - 1, by have := F.prec_pos; omega⟩
    have hcarry : |m / 2| < 2 ^ F.prec ∧ m = m / 2 * 2 := by
      rw [hp, pow_succ] at h ⊢
      have hpow : (0 : ℤ) < 2 ^ p := by positivity
      rcases abs_eq (by positivity) |>.mp h with h' | h'
      · rw [← hm] at h'
        rw [h', Int.mul_ediv_cancel _ (by norm_num), abs_of_pos hpow]
        exact ⟨by linarith, rfl⟩
      · rw [← hm] at h'
        rw [h', ← neg_mul, Int.mul_ediv_cancel _ (by norm_num), abs_neg, abs_of_pos hpow]
        exact ⟨by linarith, rfl⟩
    refine ⟨m / 2, F.quantum q + 1, hcarry.1, (F.emin_le_quantum q).trans (by omega), ?_⟩
    have hcast : (m : ℚ) = (m / 2 : ℤ) * 2 := by exact_mod_cast hcarry.2
    show (m : ℚ) * 2 ^ F.quantum q = _
    rw [hcast, two_zpow_add]
    ring

/-- a number whose bits all stay is not rounded -/
theorem rounded_of_quantum_le {k d : ℤ} (h : F.quantum (k * 2 ^ d) ≤ d) : F.rounded r (k * 2 ^ d) = k * 2 ^ d := by
  set q := (k : ℚ) * 2 ^ d with hq
  have hint : q / 2 ^ F.quantum q = ((k * 2 ^ (d - F.quantum q).toNat : ℤ) : ℚ) := by
    have hpos := two_zpow_pos (F.quantum q)
    have hexp : ((d - F.quantum q).toNat : ℤ) + F.quantum q = d := by omega
    rw [div_eq_iff hpos.ne']
    push_cast
    rw [mul_assoc, ← zpow_natCast, ← two_zpow_add, hexp, hq]
  unfold rounded
  rw [hint, Rounding.toInt_intCast, ← hint, div_mul_cancel₀ _ (two_zpow_pos _).ne']

/-- **What the format has is not rounded.** -/
theorem rounded_of_representable {q : ℚ} (h : F.Representable q) : F.rounded r q = q := by
  obtain ⟨m, e, hm, he, rfl⟩ := h
  by_cases hzero : m = 0
  · rw [hzero, Int.cast_zero, zero_mul, rounded_zero]
  refine F.rounded_of_quantum_le r (max_le ?_ he)
  have habs : |(m : ℚ) * 2 ^ e| = |(m : ℚ)| * 2 ^ e := by rw [abs_mul, abs_of_pos (two_zpow_pos e)]
  have hpos : 0 < |(m : ℚ) * 2 ^ e| := by
    rw [habs]
    exact mul_pos (abs_pos.mpr (by exact_mod_cast hzero)) (two_zpow_pos e)
  have hlt : |(m : ℚ) * 2 ^ e| < 2 ^ ((F.prec : ℤ) + e) := by
    rw [habs, two_zpow_add, zpow_natCast]
    refine mul_lt_mul_of_pos_right ?_ (two_zpow_pos e)
    exact_mod_cast hm
  have hlog : Int.log 2 |(m : ℚ) * 2 ^ e| < F.prec + e :=
    (Int.lt_zpow_iff_log_lt (by norm_num) hpos).mp (by exact_mod_cast hlt)
  omega

/-- rounding sets no bit below those that are set -/
theorem rounded_multiple (k d : ℤ) : ∃ k' : ℤ, F.rounded r (k * 2 ^ d) = k' * 2 ^ d := by
  rcases le_total (F.quantum (k * 2 ^ d)) d with h | h
  · exact ⟨k, F.rounded_of_quantum_le r h⟩
  · set q := (k : ℚ) * 2 ^ d with hq
    have hexp : F.quantum q = ((F.quantum q - d).toNat : ℤ) + d := by omega
    refine ⟨r.toInt (q / 2 ^ F.quantum q) * 2 ^ (F.quantum q - d).toNat, ?_⟩
    push_cast
    rw [mul_assoc, ← zpow_natCast, ← two_zpow_add, ← hexp]
    rfl

theorem rounded_nonneg {q : ℚ} (h : 0 ≤ q) : 0 ≤ F.rounded r q := by
  have hdiv : ((0 : ℤ) : ℚ) ≤ q / 2 ^ F.quantum q := by
    rw [Int.cast_zero]
    exact div_nonneg h (two_zpow_pos _).le
  have hint : (0 : ℚ) ≤ r.toInt (q / 2 ^ F.quantum q) := by exact_mod_cast r.le_toInt hdiv
  exact mul_nonneg hint (two_zpow_pos _).le

theorem quantum_mono {a b : ℚ} (ha : 0 < a) (h : a ≤ b) : F.quantum a ≤ F.quantum b := by
  have hlog : Int.log 2 a ≤ Int.log 2 b := Int.log_mono_right ha h
  unfold quantum
  rw [abs_of_pos ha, abs_of_pos (ha.trans_le h)]
  exact max_le_max (by omega) le_rfl

theorem rounded_mono_pos {a b : ℚ} (ha : 0 < a) (h : a ≤ b) : F.rounded r a ≤ F.rounded r b := by
  have hb := ha.trans_le h
  rcases (F.quantum_mono ha h).eq_or_lt with hsame | hlt
  · have hmono := r.mono _ _ (div_le_div_of_nonneg_right h (two_zpow_pos (F.quantum a)).le)
    unfold rounded
    rw [← hsame]
    exact mul_le_mul_of_nonneg_right (by exact_mod_cast hmono) (two_zpow_pos _).le
  · -- a power of two lies between them, and no rounding crosses it
    obtain ⟨p, hp⟩ : ∃ p, F.prec = p + 1 := ⟨F.prec - 1, by have := F.prec_pos; omega⟩
    have hquantum : F.quantum b = Int.log 2 b - p := by
      have hemin := F.emin_le_quantum a
      have hmax : F.quantum b = max (Int.log 2 b + 1 - F.prec) F.emin := by
        unfold quantum
        rw [abs_of_pos hb]
      rcases max_choice (Int.log 2 b + 1 - F.prec) F.emin with hc | hc
      · rw [hmax, hc, hp]
        push_cast
        ring
      · omega
    have hupper : F.rounded r a ≤ 2 ^ ((p : ℤ) + F.quantum b) := by
      have hint : (r.toInt (a / 2 ^ F.quantum a) : ℚ) ≤ 2 ^ F.prec := by
        exact_mod_cast (le_abs_self _).trans (F.rounded_abs_le r a)
      calc F.rounded r a ≤ 2 ^ F.prec * 2 ^ F.quantum a := mul_le_mul_of_nonneg_right hint (two_zpow_pos _).le
        _ = 2 ^ ((F.prec : ℤ) + F.quantum a) := by rw [two_zpow_add, zpow_natCast]
        _ ≤ 2 ^ ((p : ℤ) + F.quantum b) := two_zpow_le (by omega)
    have hlower : (2 : ℚ) ^ ((p : ℤ) + F.quantum b) ≤ F.rounded r b := by
      have hdiv : ((2 ^ p : ℤ) : ℚ) ≤ b / 2 ^ F.quantum b := by
        rw [le_div_iff₀ (two_zpow_pos _)]
        calc ((2 ^ p : ℤ) : ℚ) * 2 ^ F.quantum b = 2 ^ ((p : ℤ) + F.quantum b) := by
              rw [two_zpow_add, zpow_natCast]
              push_cast
              rfl
          _ = 2 ^ Int.log 2 b := by
              rw [hquantum]
              congr 1
              ring
          _ ≤ b := by exact_mod_cast Int.zpow_log_le_self (by norm_num) hb
      have hint : ((2 ^ p : ℤ) : ℚ) ≤ r.toInt (b / 2 ^ F.quantum b) := by exact_mod_cast r.le_toInt hdiv
      calc (2 : ℚ) ^ ((p : ℤ) + F.quantum b) = ((2 ^ p : ℤ) : ℚ) * 2 ^ F.quantum b := by
            rw [two_zpow_add, zpow_natCast]
            push_cast
            rfl
        _ ≤ F.rounded r b := mul_le_mul_of_nonneg_right hint (two_zpow_pos _).le
    exact hupper.trans hlower

/-- **Rounding keeps the order.** -/
theorem rounded_mono {a b : ℚ} (h : a ≤ b) : F.rounded r a ≤ F.rounded r b := by
  have hpos : ∀ {a b : ℚ}, 0 ≤ a → a ≤ b → F.rounded r a ≤ F.rounded r b := by
    intro a b ha hab
    rcases ha.eq_or_lt with rfl | ha
    · rw [rounded_zero]
      exact F.rounded_nonneg r hab
    · exact F.rounded_mono_pos r ha hab
  rcases le_total 0 a with ha | ha
  · exact hpos ha h
  · rcases le_total 0 b with hb | hb
    · have hneg := F.rounded_nonneg r (neg_nonneg.mpr ha)
      rw [rounded_neg] at hneg
      linarith [F.rounded_nonneg r hb]
    · have hneg := hpos (neg_nonneg.mpr hb) (neg_le_neg h)
      rw [rounded_neg, rounded_neg] at hneg
      linarith

/-- rounding to a number of the format does not pass it by -/
theorem rounded_le {a b : ℚ} (hb : F.Representable b) (h : a ≤ b) : F.rounded r a ≤ b := by
  have hmono := F.rounded_mono r h
  rwa [F.rounded_of_representable r hb] at hmono

theorem le_rounded {a b : ℚ} (ha : F.Representable a) (h : a ≤ b) : a ≤ F.rounded r b := by
  have hmono := F.rounded_mono r h
  rwa [F.rounded_of_representable r ha] at hmono

theorem Representable.neg {F : BinaryFormat} {q : ℚ} (h : F.Representable q) : F.Representable (-q) := by
  obtain ⟨m, e, hm, he, rfl⟩ := h
  exact ⟨-m, e, by rwa [abs_neg], he, by push_cast; ring⟩

/-- the bits below the least one that is set need not be kept -/
theorem Representable.exponent {F : BinaryFormat} {k d : ℤ} (h : F.Representable (k * 2 ^ d)) :
    ∃ m e : ℤ, |m| < 2 ^ F.prec ∧ d ≤ e ∧ (k : ℚ) * 2 ^ d = m * 2 ^ e := by
  obtain ⟨m, e, hm, -, hq⟩ := h
  rcases le_total d e with hle | hle
  · exact ⟨m, e, hm, hle, hq⟩
  · have hexp : e + (d - e).toNat = d := by omega
    have hmk : m = k * 2 ^ (d - e).toNat := by
      have hcast : (m : ℚ) * 2 ^ e = (k * 2 ^ (d - e).toNat : ℤ) * 2 ^ e := by
        rw [← hq]
        push_cast
        rw [mul_assoc, ← zpow_natCast, ← two_zpow_add, add_comm, hexp]
      exact_mod_cast mul_right_cancel₀ (two_zpow_pos e).ne' hcast
    refine ⟨k, d, ?_, le_rfl, rfl⟩
    have hone : (1 : ℤ) ≤ 2 ^ (d - e).toNat := one_le_pow₀ (by norm_num)
    calc |k| ≤ |k| * 2 ^ (d - e).toNat := le_mul_of_one_le_right (abs_nonneg k) hone
      _ = |m| := by rw [hmk, abs_mul, abs_of_pos (by positivity : (0 : ℤ) < 2 ^ (d - e).toNat)]
      _ < 2 ^ F.prec := hm

/-- scaling by a power of two is exact, as long as no bit leaves the format below -/
theorem Representable.scale {F : BinaryFormat} {k d s : ℤ} (h : F.Representable (k * 2 ^ d)) (hs : F.emin ≤ d + s) :
    F.Representable (k * 2 ^ d * 2 ^ s) := by
  obtain ⟨m, e, hm, hle, hq⟩ := h.exponent
  exact ⟨m, e + s, hm, by omega, by rw [hq, two_zpow_add, mul_assoc]⟩

/-- an integer of at most `prec` bits times a power of two is a number of the format -/
theorem representable_of_le {m e : ℤ} (hm : |m| ≤ 2 ^ F.prec) (he : F.emin ≤ e) : F.Representable (m * 2 ^ e) := by
  rcases hm.lt_or_eq with h | h
  · exact ⟨m, e, h, he, rfl⟩
  · have hone : (1 : ℤ) < 2 ^ F.prec := one_lt_pow₀ (by norm_num) F.prec_pos.ne'
    have hpow : F.Representable (2 ^ F.prec * 2 ^ e) := by
      refine ⟨1, F.prec + e, by simpa using hone, by have := F.prec_pos; omega, ?_⟩
      rw [two_zpow_add, zpow_natCast]
      push_cast
      ring
    rcases abs_eq (by positivity) |>.mp h with h' | h'
    · rw [h']
      exact_mod_cast hpow
    · rw [h']
      push_cast
      rw [neg_mul]
      exact hpow.neg

end BinaryFormat

/-! ## Numbers -/

/-- a number of a format -/
structure Number (F : BinaryFormat) where
  value : ℚ
  representable : F.Representable value

namespace Number

variable {F : BinaryFormat}

theorem ext_value {a b : Number F} (h : a.value = b.value) : a = b := by
  cases a
  cases b
  cases h
  rfl

/-- the number an exact result is rounded to -/
def round (F : BinaryFormat) (q : ℚ) : Number F := ⟨F.rounded toNearestEven q, F.rounded_representable toNearestEven q⟩

def ofInt (F : BinaryFormat) (n : ℤ) : Number F := round F n

def add (a b : Number F) : Number F := round F (a.value + b.value)

def mul (a b : Number F) : Number F := round F (a.value * b.value)

def div (a b : Number F) : Number F := round F (a.value / b.value)

theorem round_value {q : ℚ} (h : F.Representable q) : (round F q).value = q := F.rounded_of_representable _ h

@[simp] theorem round_of_value (a : Number F) : round F a.value = a := ext_value (round_value a.representable)

end Number

end ViperFx.Core
