/-
Calls that each leave one value under one key, or nothing.

What is left of a sequence of calls is a store with the value of the last call for each key. Two sequences with the same last
calls leave the same store, and calls for different keys can be exchanged.

Results:
  · replay_lastAt  : the store holds what the last call for each key left
  · replay_congr   : it depends on nothing else
  · record_comm    : calls for different keys commute
-/
import Mathlib.Tactic

namespace ViperFx.Core.Latest

variable {C K V : Type*} [DecidableEq K]

abbrev Store (K V : Type*) := K → Option V

def Store.put (store : Store K V) (key : K) (value : V) : Store K V := fun k => if k = key then some value else store k

theorem Store.put_comm {store : Store K V} {k l : K} (h : k ≠ l) (v w : V) :
    (store.put k v).put l w = (store.put l w).put k v := by
  funext key
  unfold Store.put
  by_cases hk : key = k
  · by_cases hl : key = l
    · exact absurd (hk.symm.trans hl) h
    · simp [hk, h]
  · by_cases hl : key = l
    · simp [hl, Ne.symm h]
    · simp [hk, hl]

variable (entry : C → Option (K × V))

def record (store : Store K V) (call : C) : Store K V :=
  match entry call with
  | none => store
  | some (key, value) => store.put key value

def replay (calls : List C) : Store K V := calls.foldl (record entry) fun _ => none

/-- the last call that left something under `key` -/
def lastAt (calls : List C) (key : K) : Option C := calls.reverse.find? fun call => (entry call).map Prod.fst = some key

variable {entry}

theorem replay_append (calls : List C) (call : C) : replay entry (calls ++ [call]) = record entry (replay entry calls) call := by
  simp [replay]

theorem lastAt_append (calls : List C) (call : C) (key : K) :
    lastAt entry (calls ++ [call]) key =
      if (entry call).map Prod.fst = some key then some call else lastAt entry calls key := by
  unfold lastAt
  rw [List.reverse_append, List.reverse_singleton, List.singleton_append, List.find?_cons]
  by_cases h : (entry call).map Prod.fst = some key
  · simp [h]
  · simp [h]

/-- **The store holds what the last call for each key left.** -/
theorem replay_lastAt (calls : List C) (key : K) :
    replay entry calls key = (lastAt entry calls key).bind fun call => (entry call).map Prod.snd := by
  induction calls using List.reverseRecOn with
  | nil => rfl
  | append_singleton calls call ih =>
    rw [replay_append, lastAt_append]
    cases hentry : entry call with
    | none => simpa [record, hentry] using ih
    | some left =>
      by_cases hkey : left.1 = key
      · simp [record, hentry, Store.put, hkey]
      · simpa [record, hentry, Store.put, hkey, Ne.symm hkey] using ih

/-- **The store depends on the last call for each key only.** -/
theorem replay_congr {calls others : List C} (h : ∀ key, lastAt entry calls key = lastAt entry others key) :
    replay entry calls = replay entry others := by
  funext key
  rw [replay_lastAt, replay_lastAt, h key]

/-- **Calls for different keys commute.** -/
theorem record_comm (store : Store K V) {a b : C} {left right : K × V} (ha : entry a = some left) (hb : entry b = some right)
    (h : left.1 ≠ right.1) : record entry (record entry store a) b = record entry (record entry store b) a := by
  simp only [record, ha, hb]
  exact Store.put_comm h left.2 right.2

theorem replay_all {P : K → V → Prop} (calls : List C) (h : ∀ call key value, entry call = some (key, value) → P key value)
    {key : K} {value : V} (hat : replay entry calls key = some value) : P key value := by
  rw [replay_lastAt] at hat
  obtain ⟨call, hlast, hleft⟩ := Option.bind_eq_some_iff.mp hat
  obtain ⟨left, hentry, rfl⟩ := Option.map_eq_some_iff.mp hleft
  have hkey : (entry call).map Prod.fst = some key := by
    have hfound := List.find?_some hlast
    simpa using hfound
  rw [hentry, Option.map_some, Option.some.injEq] at hkey
  rw [← hkey]
  exact h call left.1 left.2 hentry

end ViperFx.Core.Latest
