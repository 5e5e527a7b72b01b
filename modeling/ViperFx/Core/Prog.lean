/-
Programs that act on a state, and what holds before and after them.

A program is a state monad. `wp m Q s` says that `m` started in `s` ends with a value and a state that satisfy `Q`; the
equations for `wp` run a program down to its calls, and `wp_mono` replaces a call by what is known of it. `Keeps I m`
is the special case of an invariant. `Makes R m` says that `m` goes from state to state in moves of `R`.

Results:
  · wp_bind, wp_get, wp_modify, wp_ite : one equation for each way to build a program
  · wp_mono                           : a call is replaced by its specification
  · Keeps.bind                        : an invariant of the parts is an invariant of the whole
  · Makes.keeps                       : what every move of a program keeps, the program keeps
-/
import Mathlib.Tactic

namespace ViperFx.Core

section Wp

variable {σ α β : Type}

/-- `m`, started in `s`, ends with a value and a state that satisfy `Q` -/
def wp (m : StateM σ α) (Q : α → σ → Prop) (s : σ) : Prop := Q (m s).1 (m s).2

@[simp] theorem wp_pure (a : α) (Q : α → σ → Prop) (s : σ) : wp (pure a) Q s ↔ Q a s := Iff.rfl

@[simp] theorem wp_bind (m : StateM σ α) (f : α → StateM σ β) (Q : β → σ → Prop) (s : σ) :
    wp (m >>= f) Q s ↔ wp m (fun a t => wp (f a) Q t) s := Iff.rfl

@[simp] theorem wp_get (Q : σ → σ → Prop) (s : σ) : wp get Q s ↔ Q s s := Iff.rfl

@[simp] theorem wp_modify (f : σ → σ) (Q : PUnit → σ → Prop) (s : σ) : wp (modify f) Q s ↔ Q ⟨⟩ (f s) := Iff.rfl

@[simp] theorem wp_modifyGet (f : σ → α × σ) (Q : α → σ → Prop) (s : σ) :
    wp (modifyGet f) Q s ↔ Q (f s).1 (f s).2 := Iff.rfl

theorem wp_ite (c : Prop) [Decidable c] (m m' : StateM σ α) (Q : α → σ → Prop) (s : σ) :
    wp (if c then m else m') Q s ↔ (c → wp m Q s) ∧ (¬ c → wp m' Q s) := by
  split_ifs with hc <;> simp [hc]

/-- a call is replaced by its specification -/
theorem wp_mono {m : StateM σ α} {P Q : α → σ → Prop} {s : σ} (h : wp m P s) (hPQ : ∀ a t, P a t → Q a t) :
    wp m Q s := hPQ _ _ h

theorem wp_and {m : StateM σ α} {P Q : α → σ → Prop} {s : σ} (hP : wp m P s) (hQ : wp m Q s) :
    wp m (fun a t => P a t ∧ Q a t) s := ⟨hP, hQ⟩

end Wp

/-! ## Invariants -/

section Keeps

variable {σ α β : Type} {I : σ → Prop}

/-- the program leaves the invariant in place -/
def Keeps (I : σ → Prop) (m : StateM σ α) : Prop := ∀ s, I s → I (m s).2

theorem Keeps.wp {m : StateM σ α} (h : Keeps I m) {s : σ} (hs : I s) : wp m (fun _ t => I t) s := h s hs

theorem Keeps.pure (a : α) : Keeps I (pure a : StateM σ α) := fun _ hs => hs

theorem Keeps.get : Keeps I (get : StateM σ σ) := fun _ hs => hs

theorem Keeps.modify {f : σ → σ} (h : ∀ s, I s → I (f s)) : Keeps I (modify f) := h

theorem Keeps.bind {m : StateM σ α} {f : α → StateM σ β} (hm : Keeps I m) (hf : ∀ a, Keeps I (f a)) :
    Keeps I (m >>= f) := fun s hs => hf _ _ (hm s hs)

theorem Keeps.ite {c : Prop} [Decidable c] {m m' : StateM σ α} (hm : Keeps I m) (hm' : Keeps I m') :
    Keeps I (if c then m else m') := by
  split_ifs
  · exact hm
  · exact hm'

end Keeps

/-! ## Moves -/

section Makes

variable {σ α β : Type} {R : σ → σ → Prop}

/-- the program changes the state by moves only -/
def Makes (R : σ → σ → Prop) (m : StateM σ α) : Prop := ∀ s, Relation.ReflTransGen R s (m s).2

theorem Makes.pure (a : α) : Makes R (pure a : StateM σ α) := fun _ => .refl

theorem Makes.get : Makes R (get : StateM σ σ) := fun _ => .refl

theorem Makes.of_move {m : StateM σ α} (h : ∀ s, R s (m s).2) : Makes R m := fun s => .single (h s)

theorem Makes.bind {m : StateM σ α} {f : α → StateM σ β} (hm : Makes R m) (hf : ∀ a, Makes R (f a)) :
    Makes R (m >>= f) := fun s => (hm s).trans (hf _ _)

theorem Makes.ite {c : Prop} [Decidable c] {m m' : StateM σ α} (hm : Makes R m) (hm' : Makes R m') :
    Makes R (if c then m else m') := by
  split_ifs
  · exact hm
  · exact hm'

/-- what every move keeps is kept by a program -/
theorem Makes.keeps {I : σ → Prop} {m : StateM σ α} (h : Makes R m) (hR : ∀ s t, R s t → I s → I t) : Keeps I m := by
  intro s hs
  have hmoves := h s
  generalize (m s).2 = t at hmoves
  induction hmoves with
  | refl => exact hs
  | tail _ hmove ih => exact hR _ _ hmove ih

end Makes

end ViperFx.Core
