/-
The log of a machine that answers events, and what holds at each of its entries.

A machine is a function from a state and an event to the next state and an output. `logFrom` records a run with the
newest entry first. `Along P log` says `P` of each entry together with the log before it, so that a statement about a
run can look back from each of its steps.

Results:
  · along_logFrom : an invariant that each step keeps, and that gives `G` at each step, gives `G` along every run
  · Along.cut     : `P` holds wherever the log is cut
-/
import Mathlib.Tactic

namespace ViperFx.Core

structure Entry (σ ε ω : Type) where
  before : σ
  event : ε
  output : ω
  after : σ
  deriving DecidableEq

section Along

variable {α : Type} {P Q : List α → α → Prop}

/-- `P` holds of each entry and the log before it; the newest entry is the head -/
def Along (P : List α → α → Prop) : List α → Prop
  | [] => True
  | entry :: past => P past entry ∧ Along P past

instance decidableAlong (P : List α → α → Prop) [∀ past entry, Decidable (P past entry)] :
    (log : List α) → Decidable (Along P log)
  | [] => .isTrue trivial
  | entry :: past =>
    have := decidableAlong P past
    inferInstanceAs (Decidable (P past entry ∧ Along P past))

theorem Along.suffix {newer past : List α} (h : Along P (newer ++ past)) : Along P past := by
  induction newer with
  | nil => exact h
  | cons entry newer ih => exact ih h.2

theorem Along.cut {newer past : List α} {entry : α} (h : Along P (newer ++ entry :: past)) : P past entry :=
  h.suffix.1

theorem Along.and {log : List α} (hp : Along P log) (hq : Along Q log) :
    Along (fun past entry => P past entry ∧ Q past entry) log := by
  induction log with
  | nil => trivial
  | cons entry past ih => exact ⟨⟨hp.1, hq.1⟩, ih hp.2 hq.2⟩

theorem Along.of_forall (h : ∀ past entry, P past entry) (log : List α) : Along P log := by
  induction log with
  | nil => trivial
  | cons entry past ih => exact ⟨h past entry, ih⟩

theorem Along.mono (hpq : ∀ past entry, P past entry → Q past entry) {log : List α} (h : Along P log) : Along Q log := by
  induction log with
  | nil => trivial
  | cons entry past ih => exact ⟨hpq _ _ h.1, ih h.2⟩

end Along

section Machine

variable {σ ε ω : Type} (step : σ → ε → σ × ω)

/-- the entry of one step -/
def entryOf (s : σ) (e : ε) : Entry σ ε ω := ⟨s, e, (step s e).2, (step s e).1⟩

/-- the log of a run that starts in `s` with `past` already logged -/
def logFrom (s : σ) (past : List (Entry σ ε ω)) : List ε → List (Entry σ ε ω)
  | [] => past
  | e :: events => logFrom (step s e).1 (entryOf step s e :: past) events

theorem logFrom_extends (s : σ) (past : List (Entry σ ε ω)) (events : List ε) :
    ∃ newer, logFrom step s past events = newer ++ past := by
  induction events generalizing s past with
  | nil => exact ⟨[], rfl⟩
  | cons e events ih =>
    obtain ⟨newer, h⟩ := ih (step s e).1 (entryOf step s e :: past)
    exact ⟨newer ++ [entryOf step s e], by rw [logFrom, h]; simp⟩

/-- **Invariants give properties of runs.** The invariant `I` speaks of the state and the log that led to it, `C` is what
the run is assumed to meet at each step, and `G` is what it then meets. -/
theorem along_logFrom {I : σ → List (Entry σ ε ω) → Prop} {C G : List (Entry σ ε ω) → Entry σ ε ω → Prop}
    (hstep : ∀ s past e, I s past → C past (entryOf step s e) →
      I (step s e).1 (entryOf step s e :: past) ∧ G past (entryOf step s e))
    (events : List ε) {s : σ} {past : List (Entry σ ε ω)} (hinv : I s past) (hpast : Along G past)
    (hcond : Along C (logFrom step s past events)) : Along G (logFrom step s past events) := by
  induction events generalizing s past with
  | nil => exact hpast
  | cons e events ih =>
    obtain ⟨newer, hnewer⟩ := logFrom_extends step (step s e).1 (entryOf step s e :: past) events
    have hhere : C past (entryOf step s e) := by
      rw [logFrom, hnewer] at hcond
      exact hcond.cut
    obtain ⟨hnext, hgoal⟩ := hstep s past e hinv hhere
    exact ih hnext ⟨hgoal, hpast⟩ hcond

end Machine

end ViperFx.Core
