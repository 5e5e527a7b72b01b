/-
Machines that answer a stream item by item, and delay lines.

`feed step s xs` runs a machine over a list and collects what it answers; `feedBlocks` does so block by block. How a stream is
split into blocks makes no difference (`feedBlocks_eq`), and what the machine answers at a place is what it answers in the state
that the items before that place have led to (`getElem_feed`), so a statement about every answer is an invariant of the state
against the items so far.

`signal` reads a stream at any place, also before its first item and after its last one, where it is silent.

A delay line is a ring of `n` cells and the index of the cell that is read and overwritten next.

Results:
  · feedBlocks_eq            : blocks are of no consequence
  · feed_invariant           : an invariant that every step keeps holds after any stream
  · getElem_feed             : each answer from the state before it
  · DelayLine.Remembers.push : what is pushed is remembered for `n` pushes
  · DelayLine.delay_eq       : a stream comes out of a delay line `n` places later
-/
import Mathlib.Tactic

namespace ViperFx.Core

section Feed

variable {σ α β : Type} (step : σ → α → σ × β)

/-- the state after a stream and what was answered -/
def feed (s : σ) : List α → σ × List β
  | [] => (s, [])
  | x :: xs =>
    let p := step s x
    let q := feed p.1 xs
    (q.1, p.2 :: q.2)

/-- the same for a stream that comes in blocks -/
def feedBlocks (s : σ) : List (List α) → σ × List β
  | [] => (s, [])
  | block :: blocks =>
    let p := feed step s block
    let q := feedBlocks p.1 blocks
    (q.1, p.2 ++ q.2)

theorem feed_append (s : σ) (xs ys : List α) :
    feed step s (xs ++ ys) =
      ((feed step (feed step s xs).1 ys).1, (feed step s xs).2 ++ (feed step (feed step s xs).1 ys).2) := by
  induction xs generalizing s with
  | nil => rfl
  | cons x xs ih => simp [feed, ih]

/-- **Blocks are of no consequence.** -/
theorem feedBlocks_eq (s : σ) (blocks : List (List α)) : feedBlocks step s blocks = feed step s blocks.flatten := by
  induction blocks generalizing s with
  | nil => rfl
  | cons block blocks ih => simp [feedBlocks, ih, feed_append]

@[simp] theorem length_feed (s : σ) (xs : List α) : (feed step s xs).2.length = xs.length := by
  induction xs generalizing s with
  | nil => rfl
  | cons x xs ih => simp [feed, ih]

/-- an invariant of the state and the items so far -/
theorem feed_invariant {I : List α → σ → Prop} (hstep : ∀ past s x, I past s → I (past ++ [x]) (step s x).1)
    {past : List α} {s : σ} (hs : I past s) (xs : List α) : I (past ++ xs) (feed step s xs).1 := by
  induction xs generalizing past s with
  | nil => simpa [feed] using hs
  | cons x xs ih =>
    have hnext := ih (hstep past s x hs)
    simpa [feed] using hnext

theorem feed_concat (s : σ) (xs : List α) (x : α) :
    feed step s (xs ++ [x]) = ((step (feed step s xs).1 x).1, (feed step s xs).2 ++ [(step (feed step s xs).1 x).2]) := by
  rw [feed_append]
  rfl

/-- each answer is given in the state that the items before it have led to -/
theorem getElem_feed (s : σ) (xs : List α) (n : ℕ) (hn : n < xs.length) {hn' : n < (feed step s xs).2.length} :
    (feed step s xs).2[n] = (step (feed step s (xs.take n)).1 xs[n]).2 := by
  induction xs generalizing s n with
  | nil => simp at hn
  | cons x xs ih =>
    cases n with
    | zero => rfl
    | succ n => exact ih (step s x).1 n (by simpa using hn)

end Feed

/-! ## Signals -/

section Signal

variable {α K : Type} [Zero K] (f : α → K)

/-- what `f` reads at a place of a stream that is silent before its first item -/
def signal (past : List α) (m : ℤ) : K := if 0 ≤ m then (past[m.toNat]?).elim 0 f else 0

theorem signal_neg (past : List α) {m : ℤ} (hm : m < 0) : signal f past m = 0 := by
  unfold signal
  rw [if_neg (by omega)]

theorem signal_append (past later : List α) {m : ℤ} (hm : m < past.length) :
    signal f (past ++ later) m = signal f past m := by
  unfold signal
  by_cases hneg : 0 ≤ m
  · have hinside : m.toNat < past.length := by omega
    rw [if_pos hneg, if_pos hneg, List.getElem?_append_left hinside]
  · rw [if_neg hneg, if_neg hneg]

theorem signal_append_right (past later : List α) {j : ℕ} (hj : j < later.length) :
    signal f (past ++ later) (past.length + j) = f later[j] := by
  unfold signal
  have hplace : ((past.length : ℤ) + j).toNat = past.length + j := by omega
  rw [if_pos (by positivity), hplace, List.getElem?_append_right (Nat.le_add_right _ _), Nat.add_sub_cancel_left,
    List.getElem?_eq_getElem hj]
  rfl

theorem signal_concat (past : List α) (x : α) : signal f (past ++ [x]) past.length = f x := by
  unfold signal
  simp

theorem signal_take (stream : List α) (n : ℕ) {m : ℤ} (hm : m < n) : signal f (stream.take n) m = signal f stream m := by
  unfold signal
  by_cases hneg : 0 ≤ m
  · have hinside : m.toNat < n := by omega
    rw [if_pos hneg, if_pos hneg, List.getElem?_take_of_lt hinside]
  · rw [if_neg hneg, if_neg hneg]

theorem signal_natCast (stream : List α) (n : ℕ) (hn : n < stream.length) : signal f stream n = f stream[n] := by
  unfold signal
  simp [List.getElem?_eq_getElem hn]

end Signal

/-! ## Delay lines -/

structure DelayLine (n : ℕ) (α : Type) where
  cells : ZMod n → α
  index : ZMod n

namespace DelayLine

variable {n : ℕ} {α : Type}

/-- a delay line with the same value in every cell -/
def clear (x : α) : DelayLine n α := ⟨fun _ => x, 0⟩

/-- the value that comes out next -/
def oldest (d : DelayLine n α) : α := d.cells d.index

/-- the oldest value is overwritten, and the index goes on round the ring -/
def push (d : DelayLine n α) (x : α) : DelayLine n α := ⟨Function.update d.cells d.index x, d.index + 1⟩

/-- the cells hold the last `n` values; `past j` is the value pushed `j + 1` pushes ago -/
def Remembers (d : DelayLine n α) (past : ℕ → α) : Prop := ∀ j < n, d.cells (d.index - 1 - j) = past j

theorem clear_remembers (x : α) : (clear x : DelayLine n α).Remembers fun _ => x := fun _ _ => rfl

theorem Remembers.oldest {d : DelayLine n α} {past : ℕ → α} (h : d.Remembers past) (hn : 0 < n) :
    d.oldest = past (n - 1) := by
  have hround : ((n - 1 : ℕ) : ZMod n) + 1 = 0 := by
    have hcast : ((n - 1 + 1 : ℕ) : ZMod n) = ((n - 1 : ℕ) : ZMod n) + 1 := Nat.cast_succ _
    rw [← hcast, Nat.sub_add_cancel hn, ZMod.natCast_self]
  have hplace : d.index - 1 - ((n - 1 : ℕ) : ZMod n) = d.index := by
    calc d.index - 1 - ((n - 1 : ℕ) : ZMod n) = d.index - (((n - 1 : ℕ) : ZMod n) + 1) := by ring
      _ = d.index := by rw [hround, sub_zero]
  have hlast := h (n - 1) (by omega)
  rwa [hplace] at hlast

/-- **What is pushed is remembered**, and what was there moves on by one. -/
theorem Remembers.push {d : DelayLine n α} {past : ℕ → α} (h : d.Remembers past) (x : α) :
    (d.push x).Remembers fun | 0 => x | j + 1 => past j := by
  intro j hj
  simp only [DelayLine.push]
  cases j with
  | zero =>
    have hplace : d.index + 1 - 1 - ((0 : ℕ) : ZMod n) = d.index := by push_cast; ring
    rw [hplace, Function.update_self]
  | succ j =>
    have hplace : d.index + 1 - 1 - ((j + 1 : ℕ) : ZMod n) = d.index - 1 - j := by push_cast; ring
    have hne : d.index - 1 - (j : ZMod n) ≠ d.index := by
      intro heq
      have hzero : ((j + 1 : ℕ) : ZMod n) = 0 := by
        calc ((j + 1 : ℕ) : ZMod n) = d.index - (d.index - 1 - j) := by push_cast; ring
          _ = 0 := by rw [heq, sub_self]
      have hdvd := (ZMod.natCast_eq_zero_iff (j + 1) n).mp hzero
      exact absurd (Nat.le_of_dvd (Nat.succ_pos j) hdvd) (not_le.mpr hj)
    rw [hplace, Function.update_of_ne hne]
    exact h j (by omega)

theorem clear_remembers_signal {β : Type} [Zero α] (f : β → α) :
    (clear 0 : DelayLine n α).Remembers fun j => signal f [] (([] : List β).length - 1 - j) := by
  intro j hj
  exact (signal_neg f [] (by simp; omega)).symm

/-- the next item of a stream -/
theorem Remembers.concat {β : Type} [Zero α] {f : β → α} {past : List β} {d : DelayLine n α}
    (h : d.Remembers fun j => signal f past (past.length - 1 - j)) (x : β) :
    (d.push (f x)).Remembers fun j => signal f (past ++ [x]) ((past ++ [x]).length - 1 - j) := by
  intro j hj
  refine (h.push (f x) j hj).trans ?_
  dsimp only
  cases j with
  | zero =>
    have hplace : ((past ++ [x]).length - 1 - (0 : ℕ) : ℤ) = past.length := by simp
    rw [hplace, signal_concat]
  | succ j =>
    have hplace : ((past ++ [x]).length - 1 - (j + 1 : ℕ) : ℤ) = past.length - 1 - j := by simp; ring
    rw [hplace, signal_append f past [x] (by omega)]

/-- one turn of a delay: the oldest value comes out, and the new one takes its place -/
def delay (d : DelayLine n α) (x : α) : DelayLine n α × α := (d.push x, d.oldest)

/-- **Delay.** A stream comes out of a clear delay line `n` places later. -/
theorem delay_eq [Zero α] (hn : 0 < n) (stream : List α) (m : ℕ) (hm : m < stream.length)
    {hm' : m < (feed delay (clear 0 : DelayLine n α) stream).2.length} :
    (feed delay (clear 0 : DelayLine n α) stream).2[m] = signal id stream (m - n) := by
  have hlength : (stream.take m).length = m := by simp; omega
  have hrun : (feed delay (clear 0 : DelayLine n α) (stream.take m)).1.Remembers fun j =>
      signal id (stream.take m) ((stream.take m).length - 1 - j) := by
    refine feed_invariant delay
      (I := fun past d => d.Remembers fun j => signal id past (past.length - 1 - j)) ?_ (clear_remembers_signal id) (stream.take m)
    intro past d x h
    exact h.concat x
  rw [getElem_feed delay _ stream m hm]
  refine (hrun.oldest hn).trans ?_
  have hplace : ((stream.take m).length - 1 - ((n - 1 : ℕ) : ℤ) : ℤ) = m - n := by
    rw [hlength]
    omega
  rw [hplace, signal_take id stream m (by omega)]

end DelayLine

end ViperFx.Core
