/-
Exact transforms of a fixed length, and block convolution through them.

A transform has a forward and a backward direction, both linear; the backward one undoes the forward one up to the factor `n`,
and the product of two spectra is, up to a scaling, the spectrum of the circular convolution. Nothing else is assumed about the
spectra, so results about code that uses a transform do not depend on how it orders them.

Results:
  · Transform.accumulated : what comes back from a sum of products of spectra
  · circular_tail         : the second half of a circular convolution of length 2P is a linear one, when the kernel has at most
                            P entries
  · discreteFourier       : the discrete Fourier transform is such a transform
  · orderedFourier        : so is, without the products, the ordered transform of a real signal
-/
import Mathlib

namespace ViperFx.Core

open Finset

/-- circular convolution of length `n` -/
def circular {K : Type} [Field K] {n : ℕ} (a b : Fin n → K) (i : Fin n) : K :=
  ∑ u : Fin n, a ⟨(i + (n - u)) % n, Nat.mod_lt _ i.pos⟩ * b u

/-- an exact transform of length `n` with spectra in `S` -/
structure ExactTransform (K : Type) [Field K] (n : ℕ) (S : Type) [AddCommGroup S] [Module K S] where
  forward : (Fin n → K) →ₗ[K] S
  backward : S →ₗ[K] Fin n → K
  backward_forward : ∀ x, backward (forward x) = (n : K) • x

/-- an exact transform that turns circular convolutions into products -/
structure Transform (K : Type) [Field K] (n : ℕ) (S : Type) [AddCommGroup S] [Module K S] extends ExactTransform K n S where
  /-- the product of two spectra, scaled, on top of an accumulator -/
  accumulate (a b accumulator : S) (scaling : K) : S
  accumulate_forward : ∀ a b accumulator scaling,
    accumulate (forward a) (forward b) accumulator scaling = accumulator + scaling • forward (circular a b)

section Transform

variable {K : Type} [Field K] {n : ℕ} {S : Type} [AddCommGroup S] [Module K S] (t : Transform K n S)

/-- what comes back from a sum of products of spectra: the sum of the circular convolutions, scaled by `n` -/
theorem Transform.accumulated {ι : Type} (items : List ι) (a b : ι → Fin n → K) (scaling : K) :
    t.backward (items.foldl (fun sum i => t.accumulate (t.forward (a i)) (t.forward (b i)) sum scaling) 0) =
      fun j => scaling * n * (items.map fun i => circular (a i) (b i) j).sum := by
  have hfold : ∀ (items : List ι) (start : S),
      items.foldl (fun sum i => t.accumulate (t.forward (a i)) (t.forward (b i)) sum scaling) start =
        start + scaling • t.forward ((items.map fun i => circular (a i) (b i)).sum) := by
    intro items
    induction items with
    | nil => simp
    | cons i items ih =>
      intro start
      rw [List.foldl_cons, ih, t.accumulate_forward, List.map_cons, List.sum_cons, map_add, smul_add, add_assoc]
  have hsum : ∀ j, (items.map fun i => circular (a i) (b i)).sum j = (items.map fun i => circular (a i) (b i) j).sum := by
    intro j
    induction items with
    | nil => rfl
    | cons i items ih => simp only [List.map_cons, List.sum_cons, Pi.add_apply, ih]
  rw [hfold, zero_add, map_smul, t.backward_forward]
  funext j
  rw [Pi.smul_apply, Pi.smul_apply, hsum, smul_eq_mul, smul_eq_mul, mul_assoc]

end Transform

theorem second_half {P i : ℕ} (hi : i < P) : P + i < 2 * P := by omega

/-- **Overlap and save.** In the second half the circular convolution does not wrap. -/
theorem circular_tail {K : Type} [Field K] {P : ℕ} (w h : ℕ → K) (hzero : ∀ u, P ≤ u → h u = 0) (i : ℕ) (hi : i < P) :
    circular (fun j : Fin (2 * P) => w j) (fun j => h j) ⟨P + i, second_half hi⟩ = ∑ u ∈ range P, w (P + i - u) * h u := by
  have hsum : circular (fun j : Fin (2 * P) => w j) (fun j => h j) ⟨P + i, second_half hi⟩ =
      ∑ u ∈ range (2 * P), w ((P + i + (2 * P - u)) % (2 * P)) * h u :=
    Fin.sum_univ_eq_sum_range (fun u => w ((P + i + (2 * P - u)) % (2 * P)) * h u) (2 * P)
  have hsplit : range P ⊆ range (2 * P) := range_subset_range.mpr (by omega)
  rw [hsum, ← sum_subset hsplit]
  · refine sum_congr rfl fun u hu => ?_
    have hu := mem_range.mp hu
    have hwrap : P + i + (2 * P - u) = P + i - u + 2 * P := by omega
    rw [hwrap, Nat.add_mod_right, Nat.mod_eq_of_lt (by omega)]
  · intro u _ hout
    rw [hzero u (by simpa using hout), mul_zero]

/-! ## The discrete Fourier transform -/

section Discrete

variable {n : ℕ} [NeZero n]

/-- a real signal as a complex one on the integers modulo `n` -/
noncomputable def onCircle (x : Fin n → ℝ) (z : ZMod n) : ℂ := (x ((ZMod.finEquiv n).symm z) : ℂ)

theorem onCircle_circular (a b : Fin n → ℝ) (z : ZMod n) :
    onCircle (circular a b) z = ∑ u : ZMod n, onCircle a (z - u) * onCircle b u := by
  have hplace : ∀ u : Fin n, (⟨((ZMod.finEquiv n).symm z + (n - u : ℕ)) % n, Nat.mod_lt _ (NeZero.pos n)⟩ : Fin n) =
      (ZMod.finEquiv n).symm (z - ZMod.finEquiv n u) := by
    intro u
    rw [map_sub, RingEquiv.symm_apply_apply, Fin.sub_def]
    exact Fin.ext (by simp [add_comm])
  unfold onCircle circular
  push_cast
  rw [← Equiv.sum_comp (ZMod.finEquiv n).toEquiv]
  refine sum_congr rfl fun u _ => ?_
  rw [hplace u]
  simp

theorem dft_circular (a b : Fin n → ℝ) :
    ZMod.dft (onCircle (circular a b)) = ZMod.dft (onCircle a) * ZMod.dft (onCircle b) := by
  funext k
  have hsplit : ∀ i u : ZMod n, (ZMod.stdAddChar (-((i + u) * k)) : ℂ) =
      ZMod.stdAddChar (-(i * k)) * ZMod.stdAddChar (-(u * k)) := by
    intro i u
    rw [← AddChar.map_add_eq_mul]
    congr 1
    ring
  have hshift : ∀ u : ZMod n, ∑ z : ZMod n, ZMod.stdAddChar (-(z * k)) * (onCircle a (z - u) * onCircle b u) =
      ∑ i : ZMod n, ZMod.stdAddChar (-((i + u) * k)) * (onCircle a i * onCircle b u) := by
    intro u
    rw [← Equiv.sum_comp (Equiv.addRight u)]
    simp
  calc ZMod.dft (onCircle (circular a b)) k
      = ∑ z : ZMod n, ∑ u : ZMod n, ZMod.stdAddChar (-(z * k)) * (onCircle a (z - u) * onCircle b u) := by
        rw [ZMod.dft_apply]
        simp only [onCircle_circular, smul_eq_mul, mul_sum]
    _ = ∑ u : ZMod n, ∑ i : ZMod n, ZMod.stdAddChar (-((i + u) * k)) * (onCircle a i * onCircle b u) := by
        rw [sum_comm]
        exact sum_congr rfl fun u _ => hshift u
    _ = ∑ u : ZMod n, ∑ i : ZMod n,
          (ZMod.stdAddChar (-(i * k)) * onCircle a i) * (ZMod.stdAddChar (-(u * k)) * onCircle b u) := by
        refine sum_congr rfl fun u _ => sum_congr rfl fun i _ => ?_
        rw [hsplit]
        ring
    _ = (ZMod.dft (onCircle a) * ZMod.dft (onCircle b)) k := by
        rw [Pi.mul_apply, ZMod.dft_apply, ZMod.dft_apply, sum_mul_sum, sum_comm]
        rfl

/-- **The discrete Fourier transform.** Its backward direction is not scaled, so it undoes the forward one up to `n`. -/
noncomputable def discreteFourier (n : ℕ) [NeZero n] : Transform ℝ n (ZMod n → ℂ) where
  forward :=
    { toFun := fun x => ZMod.dft (onCircle x)
      map_add' := fun x y => by
        rw [← map_add]
        congr 1
        funext z
        simp [onCircle]
      map_smul' := fun c x => by
        have hscale : onCircle (c • x) = (c : ℂ) • onCircle x := by
          funext z
          simp [onCircle]
        rw [hscale, map_smul]
        rfl }
  backward :=
    { toFun := fun X i => n * (ZMod.dft.symm X (ZMod.finEquiv n i)).re
      map_add' := fun X Y => by
        funext i
        simp [mul_add]
      map_smul' := fun c X => by
        funext i
        have hscale : c • X = (c : ℂ) • X := rfl
        rw [hscale, map_smul]
        simp
        ring }
  accumulate := fun a b accumulator scaling => accumulator + (scaling : ℂ) • (a * b)
  backward_forward := fun x => by
    funext i
    simp [onCircle]
  accumulate_forward := fun a b accumulator scaling => by
    have hproduct := dft_circular a b
    simp only [LinearMap.coe_mk, AddHom.coe_mk]
    rw [hproduct]
    rfl

end Discrete

/-! ## The ordered spectrum of a real signal -/

section Ordered

variable {h : ℕ}

/-- the real bins at both ends first, then real and imaginary parts in turn -/
def pack (X : ZMod (2 * h) → ℂ) (i : Fin (2 * h)) : ℝ :=
  if (i : ℕ) = 0 then (X 0).re
  else if (i : ℕ) = 1 then (X h).re
  else if (i : ℕ) % 2 = 0 then (X (i / 2 : ℕ)).re
  else (X (i / 2 : ℕ)).im

theorem pack_add (X Y : ZMod (2 * h) → ℂ) : pack (X + Y) = pack X + pack Y := by
  funext i
  simp only [pack, Pi.add_apply]
  split_ifs <;> simp

theorem pack_smul (c : ℝ) (X : ZMod (2 * h) → ℂ) : pack (c • X) = c • pack X := by
  funext i
  simp only [pack, Pi.smul_apply]
  split_ifs <;> simp

variable [NeZero h]

instance neZero_two_mul : NeZero (2 * h) := ⟨mul_ne_zero two_ne_zero (NeZero.ne h)⟩

/-- the spectrum of a real signal is its own conjugate, turned round -/
theorem conj_dft (x : Fin (2 * h) → ℝ) (k : ZMod (2 * h)) :
    ZMod.dft (onCircle x) (-k) = (starRingEnd ℂ) (ZMod.dft (onCircle x) k) := by
  rw [ZMod.dft_apply, ZMod.dft_apply, map_sum]
  refine sum_congr rfl fun j _ => ?_
  have hreal : (starRingEnd ℂ) (onCircle x j) = onCircle x j := Complex.conj_ofReal _
  rw [smul_eq_mul, smul_eq_mul, map_mul, hreal, ← AddChar.map_neg_eq_conj]
  congr 2
  ring

theorem pack_pair (X : ZMod (2 * h) → ℂ) {m : ℕ} (hpos : 0 < m) (hm : m < h) :
    pack X (Fin.ofNat (2 * h) (2 * m)) = (X m).re ∧ pack X (Fin.ofNat (2 * h) (2 * m + 1)) = (X m).im := by
  have heven : ((Fin.ofNat (2 * h) (2 * m) : Fin (2 * h)) : ℕ) = 2 * m := Nat.mod_eq_of_lt (by omega)
  have hodd : ((Fin.ofNat (2 * h) (2 * m + 1) : Fin (2 * h)) : ℕ) = 2 * m + 1 := Nat.mod_eq_of_lt (by omega)
  have hhalf : 2 * m / 2 = m := by omega
  have hhalf' : (2 * m + 1) / 2 = m := by omega
  unfold pack
  rw [heven, hodd]
  constructor
  · rw [if_neg (by omega), if_neg (by omega), if_pos (by omega), hhalf]
  · rw [if_neg (by omega), if_neg (by omega), if_neg (by omega), hhalf']

/-- the spectrum again, its second half from the first -/
def unpack (o : Fin (2 * h) → ℝ) (k : ZMod (2 * h)) : ℂ :=
  if k.val = 0 then ⟨o (Fin.ofNat (2 * h) 0), 0⟩
  else if k.val = h then ⟨o (Fin.ofNat (2 * h) 1), 0⟩
  else if k.val < h then ⟨o (Fin.ofNat (2 * h) (2 * k.val)), o (Fin.ofNat (2 * h) (2 * k.val + 1))⟩
  else ⟨o (Fin.ofNat (2 * h) (2 * (2 * h - k.val))), -o (Fin.ofNat (2 * h) (2 * (2 * h - k.val) + 1))⟩

theorem unpack_pack {X : ZMod (2 * h) → ℂ} (hconj : ∀ k, X (-k) = (starRingEnd ℂ) (X k)) : unpack (pack X) = X := by
  have hpos := NeZero.pos h
  have hreal : ∀ k, -k = k → (X k).im = 0 := by
    intro k hk
    have him := congrArg Complex.im (hconj k)
    rw [hk, Complex.conj_im] at him
    linarith
  funext k
  have hlt := ZMod.val_lt k
  have hcast : ((k.val : ℕ) : ZMod (2 * h)) = k := ZMod.natCast_zmod_val k
  unfold unpack
  split_ifs with hzero hmiddle hfirst
  · have hk : k = 0 := (ZMod.val_eq_zero k).mp hzero
    subst hk
    have hfirst : ((Fin.ofNat (2 * h) 0 : Fin (2 * h)) : ℕ) = 0 := Nat.zero_mod _
    refine Complex.ext ?_ (hreal 0 neg_zero).symm
    unfold pack
    rw [if_pos hfirst]
  · have hk : k = (h : ZMod (2 * h)) := by rw [← hcast, hmiddle]
    have hself : -k = k := by
      have hround : k + k = 0 := by
        rw [hk, ← two_mul]
        exact_mod_cast ZMod.natCast_self (2 * h)
      exact neg_eq_of_add_eq_zero_left hround
    refine Complex.ext ?_ (hreal k hself).symm
    have hone : ((Fin.ofNat (2 * h) 1 : Fin (2 * h)) : ℕ) = 1 := Nat.mod_eq_of_lt (by omega)
    unfold pack
    rw [hone, if_neg one_ne_zero, if_pos rfl, ← hk]
  · obtain ⟨hre, him⟩ := pack_pair X (m := k.val) (by omega) hfirst
    rw [hre, him, hcast]
  · obtain ⟨hre, him⟩ := pack_pair X (m := 2 * h - k.val) (by omega) (by omega)
    have hne : k ≠ 0 := fun hk => hzero ((ZMod.val_eq_zero k).mpr hk)
    have hback : ((2 * h - k.val : ℕ) : ZMod (2 * h)) = -k := by
      have hval : (-k).val = 2 * h - k.val := by rw [ZMod.neg_val, if_neg hne]
      rw [← hval, ZMod.natCast_zmod_val]
    rw [hre, him, hback, hconj]
    exact Complex.ext (Complex.conj_re _) (by simp)

theorem unpack_add (o o' : Fin (2 * h) → ℝ) : unpack (o + o') = unpack o + unpack o' := by
  funext k
  simp only [unpack, Pi.add_apply]
  split_ifs <;> refine Complex.ext ?_ ?_ <;> simp [add_comm]

theorem unpack_smul (c : ℝ) (o : Fin (2 * h) → ℝ) : unpack (c • o) = c • unpack o := by
  funext k
  simp only [unpack, Pi.smul_apply]
  split_ifs <;> refine Complex.ext ?_ ?_ <;> simp

/-- **The discrete Fourier transform of a real signal, ordered.** -/
noncomputable def orderedFourier (h : ℕ) [NeZero h] : ExactTransform ℝ (2 * h) (Fin (2 * h) → ℝ) where
  forward :=
    { toFun := fun x => pack ((discreteFourier (2 * h)).forward x)
      map_add' := fun x y => by rw [map_add, pack_add]
      map_smul' := fun c x => by rw [map_smul, pack_smul]; rfl }
  backward :=
    { toFun := fun o => (discreteFourier (2 * h)).backward (unpack o)
      map_add' := fun o o' => by rw [unpack_add, map_add]
      map_smul' := fun c o => by rw [unpack_smul, map_smul]; rfl }
  backward_forward := fun x => by
    have hspectrum : unpack (pack ((discreteFourier (2 * h)).forward x)) = (discreteFourier (2 * h)).forward x :=
      unpack_pack (conj_dft x)
    simp only [LinearMap.coe_mk, AddHom.coe_mk]
    rw [hspectrum]
    exact (discreteFourier (2 * h)).backward_forward x

end Ordered

end ViperFx.Core
