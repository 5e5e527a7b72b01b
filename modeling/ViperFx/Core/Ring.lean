/-
Queues in a ring of slots.

A ring is a function from slots to values with a capacity. `Holds slots capacity start queue` says that the slots from `start` on,
around the end of the ring, are the queue. Values are written one place after the other (`writeAround`), or with one copy up to the
end of the ring and one from its beginning, which is the same (`copyTwice_eq`).

Results:
  · Holds.writeAround : what is written behind the queue joins it
  · Holds.drop        : the front of the queue leaves it
  · Holds.readTwice   : the front of the queue, read with two copies
-/
import Mathlib.Tactic

namespace ViperFx.Core.Ring

variable {α : Type} {slots : ℕ → α} {capacity start place : ℕ} {queue xs ys : List α}

/-- the slots from `start` on are the queue -/
structure Holds (slots : ℕ → α) (capacity start : ℕ) (queue : List α) : Prop where
  fits : queue.length ≤ capacity
  at_slot : ∀ k < queue.length, queue[k]? = some (slots ((start + k) % capacity))

theorem holds_nil (slots : ℕ → α) (capacity start : ℕ) : Holds slots capacity start [] := ⟨Nat.zero_le _, nofun⟩

/-! ## Writing -/

/-- write one value after the other, from a place on -/
def writeAround (slots : ℕ → α) (capacity place : ℕ) : List α → ℕ → α
  | [] => slots
  | x :: xs => writeAround (Function.update slots (place % capacity) x) capacity (place + 1) xs

theorem writeAround_append (slots : ℕ → α) (place : ℕ) :
    writeAround slots capacity place (xs ++ ys) =
      writeAround (writeAround slots capacity place xs) capacity (place + xs.length) ys := by
  induction xs generalizing slots place with
  | nil => rfl
  | cons x xs ih =>
    have hrest := ih (Function.update slots (place % capacity) x) (place + 1)
    rw [List.cons_append, writeAround, hrest, writeAround, List.length_cons, Nat.add_right_comm, Nat.add_assoc]

/-- only the place in the ring matters -/
theorem writeAround_congr (slots : ℕ → α) {place' : ℕ} (h : place % capacity = place' % capacity) :
    writeAround slots capacity place xs = writeAround slots capacity place' xs := by
  induction xs generalizing slots place place' with
  | nil => rfl
  | cons x xs ih =>
    rw [writeAround, writeAround, h]
    exact ih _ (Nat.ModEq.add_right 1 h)

/-- two places of a ring that are less than its capacity apart -/
theorem slot_ne {a b : ℕ} (hlt : a < b) (hnear : b < a + capacity) : a % capacity ≠ b % capacity := by
  intro heq
  have hdvd : capacity ∣ b - a := (Nat.modEq_iff_dvd' hlt.le).mp heq
  have hle := Nat.le_of_dvd (by omega) hdvd
  omega

theorem Holds.write (h : Holds slots capacity start queue) (hroom : queue.length < capacity) (x : α) :
    Holds (Function.update slots ((start + queue.length) % capacity) x) capacity start (queue ++ [x]) := by
  refine ⟨by simpa using hroom, ?_⟩
  intro k hk
  rw [List.length_append, List.length_singleton, Nat.lt_succ_iff_lt_or_eq] at hk
  rcases hk with hbefore | rfl
  · have hne : (start + k) % capacity ≠ (start + queue.length) % capacity := slot_ne (by omega) (by omega)
    rw [List.getElem?_append_left hbefore, Function.update_of_ne hne]
    exact h.at_slot k hbefore
  · rw [List.getElem?_concat_length, Function.update_self]

/-- what is written behind the queue joins it -/
theorem Holds.writeAround (h : Holds slots capacity start queue) (hroom : queue.length + xs.length ≤ capacity) :
    Holds (writeAround slots capacity (start + queue.length) xs) capacity start (queue ++ xs) := by
  induction xs generalizing slots queue with
  | nil => simpa [Ring.writeAround] using h
  | cons x xs ih =>
    rw [List.length_cons] at hroom
    have hnext := ih (h.write (by omega) x) (by rw [List.length_append, List.length_singleton]; omega)
    rw [List.length_append, List.length_singleton, ← Nat.add_assoc, List.append_assoc] at hnext
    exact hnext

/-- a copy to the slots from `offset` on -/
def copyTo (slots : ℕ → α) (offset : ℕ) (xs : List α) : ℕ → α :=
  fun j => if offset ≤ j then xs[j - offset]?.getD (slots j) else slots j

theorem copyTo_eq (slots : ℕ → α) (hend : place + xs.length ≤ capacity) :
    copyTo slots place xs = writeAround slots capacity place xs := by
  induction xs generalizing slots place with
  | nil =>
    funext j
    simp [copyTo, writeAround]
  | cons x xs ih =>
    rw [List.length_cons] at hend
    have hplace : place % capacity = place := Nat.mod_eq_of_lt (by omega)
    rw [writeAround, hplace, ← ih _ (by omega)]
    funext j
    unfold copyTo
    rcases Nat.lt_trichotomy j place with hlt | rfl | hgt
    · rw [if_neg (by omega), if_neg (by omega), Function.update_of_ne (by omega)]
    · rw [if_pos le_rfl, if_neg (by omega), Function.update_self, Nat.sub_self]
      rfl
    · have hindex : j - place = j - (place + 1) + 1 := by omega
      rw [if_pos (by omega), if_pos (by omega), Function.update_of_ne (by omega), hindex, List.getElem?_cons_succ]

/-- a copy up to the end of the ring, and one of the rest from its beginning -/
def copyTwice (slots : ℕ → α) (capacity place : ℕ) (xs : List α) : ℕ → α :=
  let first := min xs.length (capacity - place)
  copyTo (copyTo slots place (xs.take first)) 0 (xs.drop first)

theorem copyTwice_eq (slots : ℕ → α) (hplace : place ≤ capacity) (hroom : xs.length ≤ capacity) :
    copyTwice slots capacity place xs = writeAround slots capacity place xs := by
  unfold copyTwice
  dsimp only
  have hfirst : (xs.take (min xs.length (capacity - place))).length = min xs.length (capacity - place) := by
    rw [List.length_take]
    omega
  have hcopy : place + (xs.take (min xs.length (capacity - place))).length ≤ capacity := by omega
  have hrest : 0 + (xs.drop (min xs.length (capacity - place))).length ≤ capacity := by
    rw [List.length_drop]
    omega
  rw [copyTo_eq _ hrest, copyTo_eq _ hcopy]
  conv_rhs => rw [← List.take_append_drop (min xs.length (capacity - place)) xs, writeAround_append, hfirst]
  rcases Nat.le_total xs.length (capacity - place) with hall | hwraps
  · rw [min_eq_left hall, List.drop_length]
    rfl
  · rw [min_eq_right hwraps, Nat.add_sub_cancel' hplace]
    exact writeAround_congr _ (by rw [Nat.zero_mod, Nat.mod_self])

/-! ## Reading -/

theorem Holds.drop (h : Holds slots capacity start queue) (n : ℕ) :
    Holds slots capacity ((start + n) % capacity) (queue.drop n) := by
  refine ⟨by rw [List.length_drop]; exact (Nat.sub_le _ _).trans h.fits, ?_⟩
  intro k hk
  rw [List.length_drop] at hk
  rw [List.getElem?_drop, h.at_slot (n + k) (by omega), Nat.mod_add_mod, Nat.add_assoc]

/-- a copy of the slots from `offset` on -/
def readFrom (slots : ℕ → α) (offset n : ℕ) : List α := (List.range n).map fun k => slots (offset + k)

theorem length_readFrom (slots : ℕ → α) (offset n : ℕ) : (readFrom slots offset n).length = n := by simp [readFrom]

theorem Holds.readFrom (h : Holds slots capacity start queue) {n : ℕ} (hn : n ≤ queue.length) (hend : start + n ≤ capacity) :
    readFrom slots start n = queue.take n := by
  apply List.ext_getElem?
  intro k
  by_cases hk : k < n
  · have hslot : (start + k) % capacity = start + k := Nat.mod_eq_of_lt (by omega)
    rw [List.getElem?_take_of_lt hk, h.at_slot k (by omega), hslot, Ring.readFrom, List.getElem?_map,
      List.getElem?_range hk]
    rfl
  · rw [List.getElem?_eq_none (by rw [length_readFrom]; omega), List.getElem?_eq_none (by rw [List.length_take]; omega)]

/-- a copy up to the end of the ring, and one from its beginning -/
def readTwice (slots : ℕ → α) (capacity place n : ℕ) : List α :=
  let first := min n (capacity - place)
  readFrom slots place first ++ readFrom slots 0 (n - first)

theorem Holds.readTwice (h : Holds slots capacity start queue) {n : ℕ} (hn : n ≤ queue.length) (hstart : start ≤ capacity) :
    readTwice slots capacity start n = queue.take n := by
  have hfits := h.fits
  unfold Ring.readTwice
  dsimp only
  rw [h.readFrom (by omega) (by omega)]
  rcases Nat.le_total n (capacity - start) with hall | hwraps
  · rw [min_eq_left hall, Nat.sub_self]
    exact List.append_nil _
  · rw [min_eq_right hwraps]
    have hrest := h.drop (capacity - start)
    rw [Nat.add_sub_cancel' hstart, Nat.mod_self] at hrest
    rw [hrest.readFrom (by rw [List.length_drop]; omega) (by omega), ← List.take_add, Nat.add_sub_cancel' hwraps]

end ViperFx.Core.Ring
