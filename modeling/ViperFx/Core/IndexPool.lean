/-
Pools of names in two arrays with counts.

The names that are free are the first ones of one array, those that are in use the first ones of another. A name is taken from the
end of the free ones; it is released from any place of those in use, where the last one then takes its place.

Results:
  · firsts_removeAt        : what the last one has replaced is gone, and nothing else
  · Shares.take, .release  : no name is lost or duplicated
  · Shares.mem_take, .mem_release : which names are in use then
-/
import Mathlib.Tactic

namespace ViperFx.Core.IndexPool

variable {α : Type}

/-- the first entries of an array -/
def firsts (f : ℕ → α) (n : ℕ) : List α := (List.range n).map f

theorem firsts_succ (f : ℕ → α) (n : ℕ) : firsts f (n + 1) = firsts f n ++ [f n] := by
  unfold firsts
  rw [List.range_succ, List.map_append, List.map_singleton]

theorem length_firsts (f : ℕ → α) (n : ℕ) : (firsts f n).length = n := by simp [firsts]

theorem getElem_firsts (f : ℕ → α) {n i : ℕ} (hi : i < (firsts f n).length) : (firsts f n)[i] = f i := by
  simp [firsts]

theorem getElem_mem_firsts (f : ℕ → α) {n i : ℕ} (hi : i < n) : f i ∈ firsts f n :=
  List.mem_map_of_mem (List.mem_range.mpr hi)

/-- an entry behind the first ones -/
theorem firsts_update (f : ℕ → α) (n : ℕ) (x : α) : firsts (Function.update f n x) n = firsts f n := by
  unfold firsts
  apply List.map_congr_left
  intro i hi
  exact Function.update_of_ne (List.mem_range.mp hi).ne x f

theorem firsts_push (f : ℕ → α) (n : ℕ) (x : α) : firsts (Function.update f n x) (n + 1) = firsts f n ++ [x] := by
  rw [firsts_succ, firsts_update, Function.update_self]

/-- an entry that is overwritten by the last one, which leaves -/
theorem firsts_removeAt (f : ℕ → α) {n i : ℕ} (hi : i < n + 1) :
    (firsts f (n + 1)).Perm (f i :: firsts (Function.update f i (f n)) n) := by
  rw [firsts_succ]
  rcases Nat.lt_succ_iff_lt_or_eq.mp hi with hbefore | rfl
  · have hset : firsts (Function.update f i (f n)) n = (firsts f n).set i (f n) := by
      apply List.ext_getElem
      · rw [List.length_set, length_firsts, length_firsts]
      · intro j hj hj'
        rw [List.getElem_set, getElem_firsts, getElem_firsts, Function.update_apply]
        simp only [eq_comm]
    have hin : i < (firsts f n).length := by rw [length_firsts]; exact hbefore
    have herase := List.getElem_cons_eraseIdx_perm hin
    rw [getElem_firsts] at herase
    rw [hset]
    calc List.Perm (firsts f n ++ [f n]) (f n :: firsts f n) := List.perm_append_singleton _ _
      List.Perm _ (f n :: f i :: (firsts f n).eraseIdx i) := herase.symm.cons _
      List.Perm _ (f i :: f n :: (firsts f n).eraseIdx i) := List.Perm.swap _ _ _
      List.Perm _ (f i :: (firsts f n).set i (f n)) := (List.set_perm_cons_eraseIdx hin _).symm.cons _
  · rw [Function.update_eq_self]
    exact List.perm_append_singleton _ _

/-- every name is either free or in use, and only once -/
structure Shares (free : ℕ → α) (freeCount : ℕ) (used : ℕ → α) (usedCount : ℕ) (names : List α) : Prop where
  distinct : names.Nodup
  perm : (firsts free freeCount ++ firsts used usedCount).Perm names

variable {free used : ℕ → α} {freeCount usedCount : ℕ} {names : List α}

theorem Shares.count (h : Shares free freeCount used usedCount names) : freeCount + usedCount = names.length := by
  have hlength := h.perm.length_eq
  rwa [List.length_append, length_firsts, length_firsts] at hlength

/-- all names are free -/
theorem shares_free (hdistinct : names.Nodup) (hperm : (firsts free freeCount).Perm names) :
    Shares free freeCount used 0 names := ⟨hdistinct, by simpa [firsts] using hperm⟩

/-- the last free name is taken -/
theorem Shares.take (h : Shares free (freeCount + 1) used usedCount names) :
    Shares free freeCount (Function.update used usedCount (free freeCount)) (usedCount + 1) names := by
  refine ⟨h.distinct, ?_⟩
  have hperm := h.perm
  rw [firsts_succ, List.append_assoc, List.singleton_append] at hperm
  rw [firsts_push]
  exact ((List.perm_append_singleton _ _).append_left _).trans hperm

theorem mem_take {x : α} : x ∈ firsts (Function.update used usedCount (free freeCount)) (usedCount + 1) ↔
    x ∈ firsts used usedCount ∨ x = free freeCount := by
  rw [firsts_push, List.mem_append, List.mem_singleton]

/-- a name in use is released, and the last one takes its place -/
theorem Shares.release (h : Shares free freeCount used (usedCount + 1) names) {i : ℕ} (hi : i < usedCount + 1) :
    Shares (Function.update free freeCount (used i)) (freeCount + 1) (Function.update used i (used usedCount)) usedCount names := by
  refine ⟨h.distinct, ?_⟩
  rw [firsts_push, List.append_assoc, List.singleton_append]
  exact ((firsts_removeAt used hi).symm.append_left _).trans h.perm

theorem Shares.mem_release (h : Shares free freeCount used (usedCount + 1) names) {i : ℕ} (hi : i < usedCount + 1) {x : α} :
    x ∈ firsts (Function.update used i (used usedCount)) usedCount ↔ x ∈ firsts used (usedCount + 1) ∧ x ≠ used i := by
  have hperm := firsts_removeAt used hi
  have hnodup : (firsts used (usedCount + 1)).Nodup :=
    (h.perm.nodup_iff.mpr h.distinct).sublist (List.sublist_append_right _ _)
  have hnew := List.nodup_cons.mp (hperm.nodup_iff.mp hnodup)
  rw [hperm.mem_iff, List.mem_cons]
  constructor
  · intro hx
    refine ⟨Or.inr hx, ?_⟩
    rintro rfl
    exact hnew.1 hx
  · rintro ⟨rfl | hx, hne⟩
    · exact absurd rfl hne
    · exact hx

/-- with no name free, all are in use -/
theorem Shares.all_used (h : Shares free 0 used usedCount names) {x : α} (hx : x ∈ names) : x ∈ firsts used usedCount := by
  have hperm := h.perm
  exact hperm.symm.subset hx

end ViperFx.Core.IndexPool
