/-
Cyclic redundancy checks with a reflected register.

A register of `w` bits is shifted down by one place, and the polynomial is added when a one falls out (`step`). A message is fed
bit by bit (`feedBits`). The step is linear, and it is injective when the polynomial has its highest bit, so that what a short
burst leaves in the register does not get lost.

Results:
  · feedBits_xor   : feeding is linear
  · feedBits_eq    : up to `w` bits that are fed one by one, or added to the register at once
  · feedBits_burst : a burst of at most `w` bits leaves something in an empty register
-/
import Mathlib.Tactic

namespace ViperFx.Core.Crc

variable {w : ℕ} {poly : BitVec w}

/-- one bit of the polynomial division -/
def step (poly x : BitVec w) : BitVec w := (x >>> 1) ^^^ (if x.getLsbD 0 then poly else 0#w)

/-- a message bit by bit, the first one at the lowest place of the register -/
def feedBits (poly : BitVec w) (x : BitVec w) (bits : List Bool) : BitVec w :=
  bits.foldl (fun x bit => step poly (x ^^^ BitVec.setWidth w (BitVec.ofBool bit))) x

/-- bits as a word, the first one at the lowest place -/
def word (w : ℕ) : List Bool → BitVec w
  | [] => 0#w
  | bit :: bits => (word w bits <<< 1) ^^^ BitVec.setWidth w (BitVec.ofBool bit)

theorem step_zero : step poly 0#w = 0#w := by
  simp [step]

theorem xor_xor_cancel (x y p : BitVec w) : x ^^^ p ^^^ (y ^^^ p) = x ^^^ y := by
  ext i hi
  simp only [BitVec.getElem_xor]
  cases x[i] <;> cases y[i] <;> cases p[i] <;> rfl

/-- the step is linear -/
theorem step_xor (x y : BitVec w) : step poly (x ^^^ y) = step poly x ^^^ step poly y := by
  unfold step
  rw [BitVec.ushiftRight_xor_distrib, BitVec.getLsbD_xor]
  cases x.getLsbD 0 with
  | false =>
    cases y.getLsbD 0 with
    | false => simp
    | true =>
      simp only [Bool.false_xor, if_true, Bool.false_eq_true, if_false, BitVec.xor_zero]
      exact BitVec.xor_assoc _ _ _
  | true =>
    cases y.getLsbD 0 with
    | false =>
      simp only [Bool.xor_false, if_true, Bool.false_eq_true, if_false, BitVec.xor_zero]
      rw [BitVec.xor_assoc, BitVec.xor_assoc, BitVec.xor_comm _ poly]
    | true =>
      simp only [Bool.xor_self, if_true, Bool.false_eq_true, if_false, BitVec.xor_zero]
      exact (xor_xor_cancel _ _ _).symm

/-- what falls out is the highest bit after the step -/
theorem msb_step (hpoly : poly.msb = true) (x : BitVec w) : (step poly x).msb = x.getLsbD 0 := by
  have hshift : (x >>> 1).msb = false := by simp [BitVec.msb_ushiftRight]
  unfold step
  rw [BitVec.msb_xor, hshift, Bool.false_xor]
  cases x.getLsbD 0 with
  | false => simp
  | true => exact hpoly

theorem step_injective (hpoly : poly.msb = true) : Function.Injective (step poly) := by
  intro x y h
  have hlow : x.getLsbD 0 = y.getLsbD 0 := by rw [← msb_step hpoly x, ← msb_step hpoly y, h]
  have hshift : x >>> 1 = y >>> 1 := by
    unfold step at h
    rw [hlow] at h
    exact (BitVec.xor_left_inj _).mp h
  apply BitVec.eq_of_getLsbD_eq
  intro i hi
  cases i with
  | zero => exact hlow
  | succ i =>
    have hbit := congrArg (fun z => BitVec.getLsbD z i) hshift
    simpa [BitVec.getLsbD_ushiftRight, Nat.add_comm] using hbit

/-- a word that has been shifted up is shifted down again -/
theorem step_shiftLeft {x : BitVec w} (hx : x.msb = false) : step poly (x <<< 1) = x := by
  unfold step
  have hlow : (x <<< 1).getLsbD 0 = false := by simp
  rw [hlow, if_neg Bool.false_ne_true, BitVec.xor_zero]
  apply BitVec.eq_of_getLsbD_eq
  intro i hi
  rw [BitVec.getLsbD_ushiftRight, BitVec.getLsbD_shiftLeft]
  by_cases hin : 1 + i < w
  · simp [hin]
  · have hlast : i = w - 1 := by omega
    rw [BitVec.msb_eq_getLsbD_last] at hx
    simp [hlast, hx]

theorem iterate_step_ne_zero (hpoly : poly.msb = true) (n : ℕ) {x : BitVec w} (hx : x ≠ 0#w) : (step poly)^[n] x ≠ 0#w := by
  intro h
  have hzero : (step poly)^[n] 0#w = 0#w := Function.iterate_fixed step_zero n
  exact hx ((step_injective hpoly).iterate n (h.trans hzero.symm))

/-! ## Feeding -/

/-- a word of fewer bits than the register leaves its highest place free -/
theorem word_getLsbD (bits : List Bool) (i : ℕ) : (word w bits).getLsbD i = (decide (i < w) && bits[i]?.getD false) := by
  induction bits generalizing i with
  | nil => simp [word]
  | cons bit bits ih =>
    rw [word, BitVec.getLsbD_xor, BitVec.getLsbD_shiftLeft, ih]
    cases i with
    | zero => 
      cases bit <;> simp [BitVec.getLsbD_setWidth]
    | succ i =>
      by_cases hi : i + 1 < w
      · have hbefore : i < w := by omega
        simp [hi, hbefore]
      · simp [hi]

theorem word_msb {bits : List Bool} (h : bits.length < w) : (word w bits).msb = false := by
  rw [BitVec.msb_eq_getLsbD_last, word_getLsbD, List.getElem?_eq_none (by omega)]
  simp

/-- **Up to `w` bits can be added to the register at once**, instead of being fed one by one. -/
theorem feedBits_eq (x : BitVec w) {bits : List Bool} (h : bits.length ≤ w) :
    feedBits poly x bits = (step poly)^[bits.length] (x ^^^ word w bits) := by
  induction bits generalizing x with
  | nil => simp [feedBits, word]
  | cons bit bits ih =>
    have hmsb : (word w bits).msb = false := word_msb (by simpa using h)
    have hfirst : step poly (x ^^^ word w (bit :: bits)) =
        step poly (x ^^^ BitVec.setWidth w (BitVec.ofBool bit)) ^^^ word w bits := by
      rw [word, BitVec.xor_comm (word w bits <<< 1), ← BitVec.xor_assoc, step_xor, step_shiftLeft hmsb]
    rw [List.length_cons, Function.iterate_succ_apply, hfirst, ← ih _ (Nat.le_of_succ_le h)]
    rfl

theorem feedBits_append (x : BitVec w) (bits later : List Bool) :
    feedBits poly x (bits ++ later) = feedBits poly (feedBits poly x bits) later := List.foldl_append

/-- feeding is linear -/
theorem feedBits_xor (x y : BitVec w) {xs ys : List Bool} (h : xs.length = ys.length) :
    feedBits poly (x ^^^ y) (List.zipWith Bool.xor xs ys) = feedBits poly x xs ^^^ feedBits poly y ys := by
  induction xs generalizing x y ys with
  | nil =>
    obtain rfl := List.length_eq_zero_iff.mp h.symm
    rfl
  | cons a xs ih =>
    cases ys with
    | nil => exact nomatch h
    | cons b ys =>
      have hfirst : step poly (x ^^^ y ^^^ BitVec.setWidth w (BitVec.ofBool (Bool.xor a b))) =
          step poly (x ^^^ BitVec.setWidth w (BitVec.ofBool a)) ^^^ step poly (y ^^^ BitVec.setWidth w (BitVec.ofBool b)) := by
        have hbits : BitVec.ofBool (Bool.xor a b) = BitVec.ofBool a ^^^ BitVec.ofBool b := by
          cases a <;> cases b <;> rfl
        rw [← step_xor, hbits, BitVec.setWidth_xor]
        congr 1
        ac_rfl
      rw [List.zipWith_cons_cons, feedBits, List.foldl_cons, hfirst]
      exact ih _ _ (Nat.succ_inj.mp h)

/-- zeros only shift the register -/
theorem feedBits_zeros (x : BitVec w) {bits : List Bool} (h : ∀ bit ∈ bits, bit = false) :
    feedBits poly x bits = (step poly)^[bits.length] x := by
  induction bits generalizing x with
  | nil => rfl
  | cons bit bits ih =>
    obtain rfl := h bit List.mem_cons_self
    have hrest := ih (step poly (x ^^^ BitVec.setWidth w (BitVec.ofBool false))) fun b hb => h b (List.mem_cons_of_mem _ hb)
    have hnone : BitVec.setWidth w (BitVec.ofBool false) = 0#w := by simp
    rw [hnone, BitVec.xor_zero] at hrest
    rw [List.length_cons, Function.iterate_succ_apply, ← hrest, feedBits, List.foldl_cons, hnone, BitVec.xor_zero]
    rfl

/-- **A short burst leaves something in an empty register**, whatever zeros there are before and behind it. -/
theorem feedBits_burst (hpoly : poly.msb = true) {bits : List Bool} {start : ℕ} (hsome : true ∈ bits)
    (hburst : ∀ i, bits[i]? = some true → start ≤ i ∧ i < start + w) : feedBits poly 0#w bits ≠ 0#w := by
  -- the bits before the burst, the burst, and those behind it
  have hbefore : ∀ bit ∈ bits.take start, bit = false := by
    intro bit hbit
    by_contra hset
    obtain ⟨i, hi⟩ := List.mem_iff_getElem?.mp hbit
    rw [Bool.not_eq_false] at hset
    rw [hset, List.getElem?_take, ite_eq_iff] at hi
    obtain ⟨hlt, hbit⟩ | ⟨-, hnone⟩ := hi
    · have hin := (hburst i hbit).1
      omega
    · exact nomatch hnone
  have hbehind : ∀ bit ∈ bits.drop (start + w), bit = false := by
    intro bit hbit
    by_contra hset
    obtain ⟨i, hi⟩ := List.mem_iff_getElem?.mp hbit
    rw [Bool.not_eq_false] at hset
    rw [hset, List.getElem?_drop] at hi
    have hin := (hburst _ hi).2
    omega
  have hsplit : bits = bits.take start ++ ((bits.drop start).take w ++ bits.drop (start + w)) := by
    rw [← List.drop_drop, List.take_append_drop, List.take_append_drop]
  have hword : word w ((bits.drop start).take w) ≠ 0#w := by
    intro hzero
    obtain ⟨i, hi⟩ := List.mem_iff_getElem?.mp hsome
    obtain ⟨hlow, hhigh⟩ := hburst i hi
    have hbit := congrArg (fun x => BitVec.getLsbD x (i - start)) hzero
    rw [word_getLsbD, List.getElem?_take_of_lt (by omega), List.getElem?_drop, Nat.add_sub_cancel' hlow, hi] at hbit
    simp at hbit
    omega
  have hzeros : (step poly)^[(bits.take start).length] 0#w = 0#w := Function.iterate_fixed step_zero _
  have hlength : ((bits.drop start).take w).length ≤ w := List.length_take_le _ _
  rw [hsplit, feedBits_append, feedBits_append, feedBits_zeros _ hbefore, hzeros, feedBits_eq _ hlength, BitVec.zero_xor,
    feedBits_zeros _ hbehind]
  exact iterate_step_ne_zero hpoly _ (iterate_step_ne_zero hpoly _ hword)

end ViperFx.Core.Crc
