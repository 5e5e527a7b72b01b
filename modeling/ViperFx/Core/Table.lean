/-
A finite map as a list of pairs without repeated keys, for state that a program keeps in a map and walks in full.

The field `nodup` makes a table with two entries for one key impossible, so `get?` is the only way to read it and every
operation is described by what it does to `get?`:
  · get?_put, get?_erase, get?_retain : point update, removal, and a sweep over all entries
  · mem_entries_iff, mem_keys_iff     : walking the entries is the same as reading every key
-/
import Mathlib.Tactic

namespace ViperFx.Core

section Lists

variable {K V : Type} [DecidableEq K]

/-- the value at the first entry for `k` -/
def lookupIn : List (K × V) → K → Option V
  | [], _ => none
  | (k', v) :: l, k => if k' = k then some v else lookupIn l k

/-- replace the value at `k` in place, or add an entry at the end -/
def putIn : List (K × V) → K → V → List (K × V)
  | [], k, v => [(k, v)]
  | (k', v') :: l, k, v => if k' = k then (k, v) :: l else (k', v') :: putIn l k v

theorem mem_keys_putIn (l : List (K × V)) (k x : K) (v : V) (h : x ∈ (putIn l k v).map Prod.fst) :
    x ∈ l.map Prod.fst ∨ x = k := by
  induction l with
  | nil => exact .inr (by simpa [putIn] using h)
  | cons p l ih =>
    obtain ⟨k', v'⟩ := p
    by_cases hk : k' = k
    · subst hk
      left
      simpa [putIn] using h
    · simp only [putIn, if_neg hk, List.map_cons, List.mem_cons] at h
      rcases h with h | h
      · exact .inl (by simp [h])
      · rcases ih h with h | h
        · exact .inl (List.mem_cons_of_mem _ h)
        · exact .inr h

theorem nodup_putIn (l : List (K × V)) (k : K) (v : V) (h : (l.map Prod.fst).Nodup) :
    ((putIn l k v).map Prod.fst).Nodup := by
  induction l with
  | nil => simp [putIn]
  | cons p l ih =>
    obtain ⟨k', v'⟩ := p
    rw [List.map_cons, List.nodup_cons] at h
    by_cases hk : k' = k
    · subst hk
      simpa [putIn] using h
    · simp only [putIn, if_neg hk, List.map_cons, List.nodup_cons]
      refine ⟨fun hm => ?_, ih h.2⟩
      rcases mem_keys_putIn l k k' v hm with hm | hm
      · exact h.1 hm
      · exact hk hm

theorem lookupIn_putIn (l : List (K × V)) (k x : K) (v : V) :
    lookupIn (putIn l k v) x = if k = x then some v else lookupIn l x := by
  induction l with
  | nil => rfl
  | cons p l ih =>
    obtain ⟨k', v'⟩ := p
    by_cases hk : k' = k
    · subst hk
      by_cases hx : k' = x <;> simp [putIn, lookupIn, hx]
    · by_cases hx : k' = x
      · subst hx
        simp [putIn, lookupIn, hk, Ne.symm hk]
      · simp [putIn, lookupIn, hk, hx, ih]

theorem lookupIn_eq_none (l : List (K × V)) (k : K) (h : k ∉ l.map Prod.fst) : lookupIn l k = none := by
  induction l with
  | nil => rfl
  | cons p l ih =>
    obtain ⟨k', v'⟩ := p
    simp only [List.map_cons, List.mem_cons, not_or] at h
    simp [lookupIn, Ne.symm h.1, ih h.2]

theorem mem_of_lookupIn (l : List (K × V)) (k : K) (v : V) (h : lookupIn l k = some v) : (k, v) ∈ l := by
  induction l with
  | nil => cases h
  | cons p l ih =>
    obtain ⟨k', v'⟩ := p
    by_cases hk : k' = k
    · subst hk
      simp only [lookupIn, if_true, Option.some.injEq] at h
      simp [h]
    · simp only [lookupIn, if_neg hk] at h
      exact List.mem_cons_of_mem _ (ih h)

theorem lookupIn_of_mem (l : List (K × V)) (k : K) (v : V) (hn : (l.map Prod.fst).Nodup) (h : (k, v) ∈ l) :
    lookupIn l k = some v := by
  induction l with
  | nil => cases h
  | cons p l ih =>
    obtain ⟨k', v'⟩ := p
    rw [List.map_cons, List.nodup_cons] at hn
    rcases List.mem_cons.mp h with h | h
    · simp only [Prod.mk.injEq] at h
      simp [lookupIn, h.1, h.2]
    · have hk : k' ≠ k := fun hk => hn.1 (List.mem_map.mpr ⟨(k, v), h, hk.symm⟩)
      simp [lookupIn, hk, ih hn.2 h]

end Lists

/-- one entry of a sweep: kept with a new value, or dropped -/
def sweep {K V : Type} (f : K → V → Option V) (p : K × V) : Option (K × V) := (f p.1 p.2).map fun v => (p.1, v)

theorem keys_sweep_sublist {K V : Type} (f : K → V → Option V) (l : List (K × V)) :
    ((l.filterMap (sweep f)).map Prod.fst).Sublist (l.map Prod.fst) := by
  induction l with
  | nil => exact List.Sublist.refl _
  | cons p l ih =>
    obtain ⟨k, v⟩ := p
    cases hf : f k v with
    | none => simpa [List.filterMap_cons, sweep, hf] using ih.cons k
    | some w => simpa [List.filterMap_cons, sweep, hf] using ih.cons_cons k

theorem lookupIn_sweep {K V : Type} [DecidableEq K] (f : K → V → Option V) (l : List (K × V)) (k : K)
    (hn : (l.map Prod.fst).Nodup) : lookupIn (l.filterMap (sweep f)) k = (lookupIn l k).bind (f k) := by
  induction l with
  | nil => rfl
  | cons p l ih =>
    obtain ⟨k', v⟩ := p
    rw [List.map_cons, List.nodup_cons] at hn
    by_cases hk : k' = k
    · subst hk
      cases hf : f k' v with
      | some w => simp [sweep, hf, lookupIn]
      | none =>
        -- the key is dropped, and `nodup` says that no later entry brings it back
        have hout : k' ∉ (l.filterMap (sweep f)).map Prod.fst := fun hm => hn.1 ((keys_sweep_sublist f l).subset hm)
        simp [sweep, hf, lookupIn, lookupIn_eq_none _ _ hout]
    · cases hf : f k' v with
      | some w => simp [sweep, hf, lookupIn, hk, ih hn.2]
      | none => simp [sweep, hf, lookupIn, hk, ih hn.2]

/-- a map with its entries in a fixed order and no key twice -/
structure Table (K V : Type) where
  entries : List (K × V)
  nodup : (entries.map Prod.fst).Nodup

namespace Table

variable {K V : Type} [DecidableEq K]

def empty : Table K V := ⟨[], List.nodup_nil⟩

def get? (t : Table K V) (k : K) : Option V := lookupIn t.entries k

def put (t : Table K V) (k : K) (v : V) : Table K V := ⟨putIn t.entries k v, nodup_putIn _ k v t.nodup⟩

def keys (t : Table K V) : List K := t.entries.map Prod.fst

def size (t : Table K V) : ℕ := t.entries.length

/-- replace or drop every entry -/
def retain (t : Table K V) (f : K → V → Option V) : Table K V :=
  ⟨t.entries.filterMap (sweep f), t.nodup.sublist (keys_sweep_sublist f t.entries)⟩

def erase (t : Table K V) (k : K) : Table K V := t.retain fun k' v => if k' = k then none else some v

@[simp] theorem get?_empty (k : K) : (empty : Table K V).get? k = none := rfl

theorem get?_put (t : Table K V) (k x : K) (v : V) : (t.put k v).get? x = if k = x then some v else t.get? x :=
  lookupIn_putIn t.entries k x v

@[simp] theorem get?_put_self (t : Table K V) (k : K) (v : V) : (t.put k v).get? k = some v := by
  simp [get?_put]

theorem get?_put_ne (t : Table K V) {k x : K} (v : V) (h : k ≠ x) : (t.put k v).get? x = t.get? x := by
  simp [get?_put, h]

theorem get?_retain (t : Table K V) (f : K → V → Option V) (k : K) : (t.retain f).get? k = (t.get? k).bind (f k) :=
  lookupIn_sweep f t.entries k t.nodup

theorem get?_erase (t : Table K V) (k x : K) : (t.erase k).get? x = if k = x then none else t.get? x := by
  rw [erase, get?_retain]
  cases t.get? x with
  | none => simp
  | some v => by_cases h : x = k <;> simp [h, @eq_comm _ k x]

theorem mem_entries_iff (t : Table K V) (k : K) (v : V) : (k, v) ∈ t.entries ↔ t.get? k = some v :=
  ⟨lookupIn_of_mem t.entries k v t.nodup, mem_of_lookupIn t.entries k v⟩

theorem mem_keys_iff (t : Table K V) (k : K) : k ∈ t.keys ↔ (t.get? k).isSome := by
  simp only [keys, List.mem_map, Prod.exists, exists_and_right, exists_eq_right, Option.isSome_iff_exists,
    mem_entries_iff]

end Table

end ViperFx.Core
