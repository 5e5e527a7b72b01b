/-
Loops that fill an array, and sums over nested loops.

An array is a function from places to values, and a loop that writes one place a turn is a fold of updates (`fill`). What stands
at a place after the loop is what the turn that writes there has written (`fill_at`), provided no other turn writes something
else to the same place; a flat array that is addressed by rows keeps its rows apart (`row_inj`, `writeRow_other`). What a loop does with
the number of its turns is proved by what every turn takes on to the next (`foldl_range_rule`).
-/
import Mathlib.Tactic

namespace ViperFx.Core

open Finset

section Fill

variable {ι κ α : Type} [DecidableEq κ]

/-- write `val k` at `slot k`, for every key in order -/
def fill (array : κ → α) (slot : ι → κ) (val : ι → α) (keys : List ι) : κ → α :=
  keys.foldl (fun array k => Function.update array (slot k) (val k)) array

variable {slot : ι → κ} {val : ι → α}

theorem fill_other {j : κ} {keys : List ι} (array : κ → α) (h : ∀ k ∈ keys, slot k ≠ j) :
    fill array slot val keys j = array j := by
  induction keys generalizing array with
  | nil => rfl
  | cons k keys ih =>
    have hrest : fill (Function.update array (slot k) (val k)) slot val keys j = Function.update array (slot k) (val k) j :=
      ih _ fun k' hk' => h k' (List.mem_cons_of_mem _ hk')
    refine hrest.trans (Function.update_of_ne ?_ _ _)
    exact (h k List.mem_cons_self).symm

theorem fill_at {k : ι} {keys : List ι} (array : κ → α) (hk : k ∈ keys)
    (hsame : ∀ k' ∈ keys, slot k' = slot k → val k' = val k) : fill array slot val keys (slot k) = val k := by
  induction keys generalizing array k with
  | nil => cases hk
  | cons first keys ih =>
    by_cases hlater : ∃ l ∈ keys, slot l = slot k
    · obtain ⟨l, hl, hslot⟩ := hlater
      have hval : val l = val k := hsame l (List.mem_cons_of_mem _ hl) hslot
      have hrest := ih (Function.update array (slot first) (val first)) hl fun m hm hm' =>
        (hsame m (List.mem_cons_of_mem _ hm) (hm'.trans hslot)).trans hval.symm
      rw [hslot, hval] at hrest
      exact hrest
    · have hhere : k = first := by
        rcases List.mem_cons.mp hk with heq | hmem
        · exact heq
        · exact absurd ⟨k, hmem, rfl⟩ hlater
      subst hhere
      have hrest : fill (Function.update array (slot k) (val k)) slot val keys (slot k) =
          Function.update array (slot k) (val k) (slot k) :=
        fill_other _ fun l hl heq => hlater ⟨l, hl, heq⟩
      exact hrest.trans (Function.update_self _ _ _)

end Fill

/-- in an array of rows of `width` places, row and place are read off the address -/
theorem row_inj {width a b i j : ℕ} (hi : i < width) (hj : j < width) (h : a * width + i = b * width + j) :
    a = b ∧ i = j := by
  have hdiv : ∀ c k, k < width → (c * width + k) / width = c := by
    intro c k hk
    rw [mul_comm, Nat.mul_add_div (by omega), Nat.div_eq_of_lt hk, add_zero]
  have hrow : a = b := by
    calc a = (a * width + i) / width := (hdiv a i hi).symm
      _ = (b * width + j) / width := by rw [h]
      _ = b := hdiv b j hj
  subst hrow
  exact ⟨rfl, by omega⟩

/-! ## Rows -/

section Rows

variable {α : Type}

/-- copy `n` values to the places from `offset` on -/
def writeRow (array : ℕ → α) (offset n : ℕ) (source : ℕ → α) : ℕ → α :=
  fun j => if offset ≤ j ∧ j < offset + n then source (j - offset) else array j

variable {width a b i : ℕ}

theorem writeRow_at (array : ℕ → α) (source : ℕ → α) (hi : i < width) :
    writeRow array (a * width) width source (a * width + i) = source i := by
  unfold writeRow
  rw [if_pos ⟨Nat.le_add_right _ _, Nat.add_lt_add_left hi _⟩, Nat.add_sub_cancel_left]

theorem writeRow_other (array : ℕ → α) (source : ℕ → α) (hne : b ≠ a) (hi : i < width) :
    writeRow array (a * width) width source (b * width + i) = array (b * width + i) := by
  unfold writeRow
  refine if_neg fun hinside => hne ?_
  have hplace : b * width + i = a * width + (b * width + i - a * width) := by omega
  exact (row_inj hi (by omega) hplace).1

end Rows

/-! ## Sums over nested loops -/

theorem foldl_product {ι κ β : Type} (xs : List ι) (ys : List κ) (f : β → ι × κ → β) (start : β) :
    (xs ×ˢ ys).foldl f start = xs.foldl (fun acc x => ys.foldl (fun acc y => f acc (x, y)) acc) start := by
  induction xs generalizing start with
  | nil => rfl
  | cons x xs ih => rw [List.product_cons, List.foldl_append, ih, List.foldl_map, List.foldl_cons]

section Sums

variable {M : Type} [AddCommMonoid M]

theorem sum_map_range (n : ℕ) (f : ℕ → M) : ((List.range n).map f).sum = ∑ i ∈ range n, f i := by
  induction n with
  | zero => rfl
  | succ n ih => rw [List.range_succ, List.map_append, List.sum_append, ih, sum_range_succ]; simp

theorem sum_map_product {ι κ : Type} (xs : List ι) (ys : List κ) (f : ι × κ → M) :
    ((xs ×ˢ ys).map f).sum = (xs.map fun x => (ys.map fun y => f (x, y)).sum).sum := by
  induction xs with
  | nil => rfl
  | cons x xs ih => rw [List.product_cons, List.map_append, List.sum_append, ih, List.map_map]; rfl

/-- a sum in blocks of `width` -/
theorem sum_blocks (count width : ℕ) (f : ℕ → M) :
    ∑ s ∈ range count, ∑ u ∈ range width, f (s * width + u) = ∑ t ∈ range (count * width), f t := by
  induction count with
  | zero => simp
  | succ count ih => rw [sum_range_succ, ih, Nat.succ_mul, sum_range_add]

end Sums

/-! ## Loops that count -/

/-- **The rule of a counting loop.** What every turn takes on to the next holds at the end. -/
theorem foldl_range_rule {σ : Type} {turn : σ → ℕ → σ} (P : ℕ → σ → Prop) {n : ℕ} {s : σ} (hstart : P 0 s)
    (hturn : ∀ k < n, ∀ s, P k s → P (k + 1) (turn s k)) : P n ((List.range n).foldl turn s) := by
  induction n with
  | zero => exact hstart
  | succ n ih =>
    rw [List.range_succ, List.foldl_append, List.foldl_cons, List.foldl_nil]
    apply hturn n n.lt_succ_self
    apply ih
    intro k hk
    exact hturn k (hk.trans n.lt_succ_self)

end ViperFx.Core
