/-
Overlap-add through a ring.

Blocks are added to a tape that has no end, at places that overlap, and the tape is read from its start. Only a window of the
tape is kept, on a ring of `size` slots: a place is added to and read at its remainder, and a slot is cleared when it is read.
This is right as long as no block reaches `size` places or more ahead of the reader, and none reaches a place that has been
read. `log` keeps what was done to the places, the latest first; no answer depends on it.

Results:
  · Holds.addFrame   : within the window, adding a block to the ring adds it to the tape
  · Holds.takeFrames : the reader gets what is on the tape
  · Clean            : no place is added to after it was read, and no slot is shared with a place that is still to be read
-/
import Mathlib.Tactic

namespace ViperFx.Core

inductive RingEvent where
  | add (place : ℕ)
  | read (place : ℕ)
deriving DecidableEq, Repr

structure OverlapRing (V : Type) where
  size : ℕ
  slots : ℕ → V
  log : List RingEvent := []

namespace OverlapRing

variable {V : Type} [AddCommGroup V]

def clear (size : ℕ) : OverlapRing V := { size := size, slots := fun _ => 0 }

def add (r : OverlapRing V) (place : ℕ) (v : V) : OverlapRing V :=
  { r with
    slots := Function.update r.slots (place % r.size) (r.slots (place % r.size) + v)
    log := .add place :: r.log }

/-- add `count` values from `start` on -/
def addFrame (r : OverlapRing V) (start count : ℕ) (frame : ℕ → V) : OverlapRing V :=
  (List.range count).foldl (fun r offset => r.add (start + offset) (frame offset)) r

/-- read a place and clear its slot -/
def take (r : OverlapRing V) (place : ℕ) : OverlapRing V × V :=
  ({ r with slots := Function.update r.slots (place % r.size) 0, log := .read place :: r.log }, r.slots (place % r.size))

/-- read `count` places from `start` on -/
def takeFrames (r : OverlapRing V) (start : ℕ) : ℕ → OverlapRing V × List V
  | 0 => (r, [])
  | count + 1 =>
    let p := r.take start
    let q := p.1.takeFrames (start + 1) count
    (q.1, p.2 :: q.2)

/-- a place that was added to, and not read since the log begins -/
def Pending (log : List RingEvent) (place : ℕ) : Prop := .add place ∈ log ∧ .read place ∉ log

/-- no place is added to after it was read, and the slot that is added to or read is not that of another place with something
still to be read -/
def Clean (size : ℕ) : List RingEvent → Prop
  | [] => True
  | .add place :: before =>
    .read place ∉ before ∧ (∀ other, Pending before other → other % size = place % size → other = place) ∧ Clean size before
  | .read place :: before =>
    (∀ other, Pending before other → other % size = place % size → other = place) ∧ Clean size before

/-- the ring holds the window of the tape that begins where the reader is -/
structure Holds (r : OverlapRing V) (reader : ℕ) (tape : ℕ → V) : Prop where
  size : 0 < r.size
  window : ∀ p, reader ≤ p → p < reader + r.size → r.slots (p % r.size) = tape p
  ahead : ∀ p, reader + r.size ≤ p → tape p = 0
  reads : ∀ p, .read p ∈ r.log ↔ p < reader
  adds : ∀ p, .add p ∈ r.log → p < reader + r.size
  clean : Clean r.size r.log

/-- within a window of the size of the ring, each slot stands for one place -/
theorem slot_inj {size reader p q : ℕ} (hp : reader ≤ p ∧ p < reader + size) (hq : reader ≤ q ∧ q < reader + size)
    (h : p % size = q % size) : p = q := by
  rcases le_total p q with hle | hle
  · have hdvd : size ∣ q - p := (Nat.modEq_iff_dvd' hle).mp h
    have hzero := Nat.eq_zero_of_dvd_of_lt hdvd (by omega)
    omega
  · have hdvd : size ∣ p - q := (Nat.modEq_iff_dvd' hle).mp h.symm
    have hzero := Nat.eq_zero_of_dvd_of_lt hdvd (by omega)
    omega

theorem clear_holds {size : ℕ} (hsize : 0 < size) : (clear size : OverlapRing V).Holds 0 fun _ => 0 where
  size := hsize
  window := fun _ _ _ => rfl
  ahead := fun _ _ => rfl
  reads := fun p => by simp [clear]
  adds := fun p h => by simp [clear] at h
  clean := trivial

section Steps

variable {r : OverlapRing V} {reader : ℕ} {tape : ℕ → V}

/-- what is pending lies in the window -/
theorem Holds.pending (h : r.Holds reader tape) {p : ℕ} (hp : Pending r.log p) : reader ≤ p ∧ p < reader + r.size :=
  ⟨not_lt.mp fun hlt => hp.2 ((h.reads p).mpr hlt), h.adds p hp.1⟩

theorem Holds.add (h : r.Holds reader tape) {place : ℕ} (hplace : reader ≤ place ∧ place < reader + r.size) (v : V) :
    (r.add place v).Holds reader (Function.update tape place (tape place + v)) where
  size := h.size
  window := by
    intro p hp hp'
    simp only [OverlapRing.add]
    by_cases hsame : p = place
    · subst hsame
      rw [Function.update_self, Function.update_self, h.window p hp hp']
    · have hslot : p % r.size ≠ place % r.size := fun heq => hsame (slot_inj ⟨hp, hp'⟩ hplace heq)
      rw [Function.update_of_ne hslot, Function.update_of_ne hsame, h.window p hp hp']
  ahead := by
    intro p hp
    have hne : p ≠ place := by
      have hp : reader + r.size ≤ p := hp
      omega
    rw [Function.update_of_ne hne]
    exact h.ahead p hp
  reads := by
    intro p
    simp only [OverlapRing.add, List.mem_cons, reduceCtorEq, false_or]
    exact h.reads p
  adds := by
    intro p hp
    simp only [OverlapRing.add, List.mem_cons, RingEvent.add.injEq] at hp ⊢
    rcases hp with rfl | hp
    · exact hplace.2
    · exact h.adds p hp
  clean := by
    refine ⟨fun hread => absurd ((h.reads place).mp hread) (not_lt.mpr hplace.1), ?_, h.clean⟩
    intro other hother heq
    exact slot_inj (h.pending hother) hplace heq

theorem Holds.addFrame (h : r.Holds reader tape) {start count : ℕ} (hstart : reader ≤ start)
    (hcount : start + count ≤ reader + r.size) (frame : ℕ → V) :
    (r.addFrame start count frame).size = r.size ∧
      (r.addFrame start count frame).Holds reader
        fun p => tape p + if start ≤ p ∧ p < start + count then frame (p - start) else 0 := by
  induction count with
  | zero =>
    refine ⟨rfl, ?_⟩
    have hsame : (fun p => tape p + if start ≤ p ∧ p < start + 0 then frame (p - start) else 0) = tape := by
      funext p
      rw [if_neg (by omega), add_zero]
    rw [hsame]
    exact h
  | succ count ih =>
    obtain ⟨hsize, hholds⟩ := ih (by omega)
    have hstep : r.addFrame start (count + 1) frame = (r.addFrame start count frame).add (start + count) (frame count) := by
      unfold OverlapRing.addFrame
      rw [List.range_succ, List.foldl_append]
      rfl
    have hplace : reader ≤ start + count ∧ start + count < reader + (r.addFrame start count frame).size := by
      rw [hsize]
      omega
    have hlast := hholds.add hplace (frame count)
    rw [hstep]
    refine ⟨hsize, ?_⟩
    convert hlast using 1
    funext p
    by_cases hp : p = start + count
    · subst hp
      rw [Function.update_self, if_pos (by omega), if_neg (by omega), add_zero, Nat.add_sub_cancel_left]
    · rw [Function.update_of_ne hp]
      have hiff : start ≤ p ∧ p < start + (count + 1) ↔ start ≤ p ∧ p < start + count := by omega
      simp only [hiff]

theorem Holds.take (h : r.Holds reader tape) : (r.take reader).2 = tape reader ∧ (r.take reader).1.Holds (reader + 1) tape := by
  have hsize := h.size
  refine ⟨h.window reader le_rfl (by omega), ?_⟩
  exact
    { size := hsize
      window := by
        intro p hp hp'
        simp only [OverlapRing.take] at hp' ⊢
        by_cases hnew : p = reader + r.size
        · subst hnew
          rw [Nat.add_mod_right, Function.update_self, h.ahead _ le_rfl]
        · have hslot : p % r.size ≠ reader % r.size := fun heq => by
            have hfirst : reader ≤ reader ∧ reader < reader + r.size := ⟨le_rfl, by omega⟩
            have hsame := slot_inj ⟨by omega, by omega⟩ hfirst heq
            omega
          rw [Function.update_of_ne hslot]
          exact h.window p (by omega) (by omega)
      ahead := fun p hp => h.ahead p (by simp only [OverlapRing.take] at hp; omega)
      reads := by
        intro p
        simp only [OverlapRing.take, List.mem_cons, RingEvent.read.injEq]
        rw [h.reads p]
        omega
      adds := by
        intro p hp
        simp only [OverlapRing.take, List.mem_cons, reduceCtorEq, false_or] at hp ⊢
        have hlt := h.adds p hp
        omega
      clean := by
        refine ⟨?_, h.clean⟩
        intro other hother heq
        exact slot_inj (h.pending hother) ⟨le_rfl, by omega⟩ heq }

theorem Holds.takeFrames (h : r.Holds reader tape) (count : ℕ) :
    (r.takeFrames reader count).1.size = r.size ∧
      (r.takeFrames reader count).2 = (List.range count).map (fun i => tape (reader + i)) ∧
      (r.takeFrames reader count).1.Holds (reader + count) tape := by
  induction count generalizing r reader with
  | zero => exact ⟨rfl, rfl, h⟩
  | succ count ih =>
    obtain ⟨hfirst, hnext⟩ := h.take
    obtain ⟨hsize, hrest, hholds⟩ := ih hnext
    refine ⟨hsize, ?_, ?_⟩
    · simp only [OverlapRing.takeFrames, hfirst, hrest, List.range_succ_eq_map, List.map_cons, List.map_map, add_zero]
      congr 1
      refine List.map_congr_left fun i _ => ?_
      simp only [Function.comp_apply]
      congr 1
      omega
    · have hplace : reader + 1 + count = reader + (count + 1) := by omega
      rw [hplace] at hholds
      exact hholds

end Steps

theorem addFrame_size (r : OverlapRing V) (start count : ℕ) (frame : ℕ → V) : (r.addFrame start count frame).size = r.size := by
  unfold addFrame
  induction count with
  | zero => rfl
  | succ count ih =>
    rw [List.range_succ, List.foldl_append]
    exact ih

theorem takeFrames_size (r : OverlapRing V) (start count : ℕ) : (r.takeFrames start count).1.size = r.size := by
  induction count generalizing r start with
  | zero => rfl
  | succ count ih => exact ih (r.take start).1 (start + 1)

/-! ## A ring seen through a homomorphism -/

section Map

variable {V W : Type} [AddCommGroup V] [AddCommGroup W] (f : V →+ W)

/-- the ring with every value replaced by what `f` makes of it -/
def map (r : OverlapRing V) : OverlapRing W := { size := r.size, slots := fun i => f (r.slots i), log := r.log }

theorem map_clear (size : ℕ) : (clear size : OverlapRing V).map f = clear size := by
  simp [map, clear]

theorem map_add (r : OverlapRing V) (place : ℕ) (v : V) : (r.add place v).map f = (r.map f).add place (f v) := by
  have hslots : (fun i => f (Function.update r.slots (place % r.size) (r.slots (place % r.size) + v) i)) =
      Function.update (fun i => f (r.slots i)) (place % r.size) (f (r.slots (place % r.size)) + f v) := by
    funext i
    rw [Function.apply_update (fun _ => f), f.map_add]
  simp only [map, add, hslots]

theorem map_addFrame (r : OverlapRing V) (start count : ℕ) (frame : ℕ → V) :
    (r.addFrame start count frame).map f = (r.map f).addFrame start count fun offset => f (frame offset) := by
  unfold addFrame
  induction count with
  | zero => rfl
  | succ count ih =>
    rw [List.range_succ, List.foldl_append, List.foldl_append, ← ih]
    exact map_add f _ _ _

theorem map_take (r : OverlapRing V) (place : ℕ) :
    (r.map f).take place = ((r.take place).1.map f, f (r.take place).2) := by
  have hslots : (fun i => f (Function.update r.slots (place % r.size) 0 i)) =
      Function.update (fun i => f (r.slots i)) (place % r.size) 0 := by
    funext i
    rw [Function.apply_update (fun _ => f), map_zero]
  simp only [map, take, hslots]

theorem map_takeFrames (r : OverlapRing V) (start count : ℕ) :
    (r.map f).takeFrames start count = ((r.takeFrames start count).1.map f, (r.takeFrames start count).2.map f) := by
  induction count generalizing r start with
  | zero => rfl
  | succ count ih => simp only [takeFrames, map_take, ih, List.map_cons]

end Map

end OverlapRing

end ViperFx.Core
