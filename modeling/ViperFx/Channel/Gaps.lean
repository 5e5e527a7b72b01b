/-
Gaps in a stream that has none: what `SessionRegistry::Apply` answers when every frame of the bridge arrives in order.

The bridge draws the sequence numbers of all its frames from one counter, but the registry counts only the events it
takes. DRIVER_HELLO, the snapshot ACKs and NACKs and the events of contexts the registry does not have go past it, and
each leaves a hole: the next live event that is taken is above the next expected sequence, and the registry takes the
hole for a lost event.

Results:
  · no_false_gap   : without a loss there is no gap, no rescan request and no stale entry, as long as every live event
                     that is taken comes right after a frame that is taken too; and for a registry that starts empty
                     there is a gap otherwise
  · answer_is_a_gap : one ACK between two events of a context is enough
-/
import ViperFx.Core.Log
import ViperFx.Channel.Replay

namespace ViperFx.Channel

open ViperFx.Core ViperFx.Protocol ViperFx.Daemon

namespace Link

variable {α : Type}

/-! ## Runs with the frames they read -/

/-- the frame an operation reads, if it is a receive that finds one -/
def reads (l : Link α) : Op α → Option Frame
  | .daemon (.recv _) => l.client.bind fun w => (l.wires w).up.head?
  | _ => none

def stepReading (a : Applier α) (l : Link α) (op : Op α) : Link α × Option Frame := (step a l op, l.reads op)

/-- one operation of a run, with the frame it read -/
abbrev Reading (α : Type) := Entry (Link α) (Op α) (Option Frame)

/-- the last frame read, and the registry that met it -/
def lastRead : List (Reading α) → Option (Registry × Frame)
  | [] => none
  | e :: past => match e.output with
    | some f => some (e.before.registry, f)
    | none => lastRead past

/-- every frame read carries the sequence right after the last one: nothing was lost or overtaken -/
def InSequence (past : List (Reading α)) (e : Reading α) : Prop :=
  ∀ f ∈ e.output, ∀ last ∈ lastRead past, f.event.eventSequence = last.2.event.eventSequence + 1

/-- a live event that the registry takes, with a sequence to compare it with, comes right after a frame that was taken -/
def FollowsTaken (past : List (Reading α)) (e : Reading α) : Prop :=
  ∀ f ∈ e.output, e.before.registry.Takes f.event → f.event.type ≠ .rescanResponse →
    e.before.registry.highestSequence ≠ 0 → ∃ last ∈ lastRead past, last.1.Takes last.2.event

instance (past : List (Reading α)) (e : Reading α) : Decidable (InSequence past e) :=
  inferInstanceAs (Decidable (∀ f ∈ e.output, ∀ last ∈ lastRead past, _))

instance (past : List (Reading α)) (e : Reading α) : Decidable (FollowsTaken past e) :=
  inferInstanceAs (Decidable (∀ f ∈ e.output, _ → _ → _ → ∃ last ∈ lastRead past, _))

/-- no gap is answered, no rescan is requested, no alarm is raised and no entry becomes stale -/
structure Quiet (e : Reading α) : Prop where
  noGap : ∀ f, e.output = some f → (e.before.registry.apply f.event).2 ≠ .appliedWithGap
  noRequest : e.output.isSome → ∀ w, (e.after.wires w).down = (e.before.wires w).down
  noAlarm : e.after.registry.rescanNeeded = true → e.before.registry.rescanNeeded = true
  noStale : ∀ k entry, e.after.registry.contexts.get? k = some entry → entry.stale = true →
    ∃ old, e.before.registry.contexts.get? k = some old ∧ old.stale = true

/-! ## One operation -/

theorem dropClient_registry (l : Link α) : l.dropClient.registry = l.registry := by
  unfold dropClient
  split <;> rfl

theorem acceptPending_registry (l : Link α) : l.acceptPending.registry = l.registry := by
  unfold acceptPending
  split
  · rfl
  · exact dropClient_registry l

theorem sendSnapshotCommand_registry (l : Link α) (c : Command) (ok : Bool) :
    (l.sendSnapshotCommand c ok).1.registry = l.registry := by
  unfold sendSnapshotCommand
  simp only
  split_ifs
  · exact sendDown_registry l _ _
  · exact sendDown_registry l _ _

/-- the frame at the head of the client's connection, and what is left of it -/
theorem recv_cases (l : Link α) (rescanSent : Bool) :
    (∃ f w rest, l.client = some w ∧ (l.wires w).up = f :: rest ∧
      (l.recv rescanSent).1 =
        ({ l with received := l.received ++ [f] }.setWire w { l.wires w with up := rest }).process f rescanSent) ∨
    (l.reads (.daemon (.recv rescanSent)) = none ∧ (l.recv rescanSent).1.registry = l.registry) := by
  unfold reads recv
  cases hc : l.client with
  | none => exact .inr ⟨rfl, rfl⟩
  | some w =>
    cases hu : (l.wires w).up with
    | nil =>
      refine .inr ⟨by simp [hu], ?_⟩
      simp only [hu]
      split_ifs
      · rfl
      · exact dropClient_registry l
    | cons f rest => exact .inl ⟨f, w, rest, rfl, hu, by simp only [hu]⟩

/-- an operation that reads a frame delivers it, and any other leaves the registry alone or empties it -/
theorem step_registry (a : Applier α) (l : Link α) (op : Op α) :
    (∃ f, l.reads op = some f ∧ (step a l op).registry = l.registry.deliver f.event) ∨
    (l.reads op = none ∧ ((step a l op).registry = l.registry ∨ (step a l op).registry = {})) := by
  cases op with
  | driver op => exact .inr ⟨rfl, .inl (stepDriver_ext a l op).registry⟩
  | daemon op =>
    cases op with
    | accept => exact .inr ⟨rfl, .inl (acceptPending_registry l)⟩
    | recv rescanSent =>
      obtain ⟨f, w, rest, hc, hu, hrecv⟩ | ⟨hreads, hkept⟩ := recv_cases l rescanSent
      · refine .inl ⟨f, by simp [reads, hc, hu], ?_⟩
        calc (l.recv rescanSent).1.registry = _ := congrArg Link.registry hrecv
          _ = l.registry.deliver f.event := process_registry _ f rescanSent
      · exact .inr ⟨hreads, .inl hkept⟩
    | send c ok => exact .inr ⟨rfl, .inl (sendSnapshotCommand_registry l c ok)⟩
    | take => exact .inr ⟨rfl, .inl rfl⟩
    | restart => exact .inr ⟨rfl, .inr rfl⟩

theorem process_wires {l : Link α} {f : Frame} (h : (l.registry.apply f.event).2 ≠ .appliedWithGap) (rescanSent : Bool) :
    (l.process f rescanSent).wires = l.wires := by
  unfold process
  simp only [if_neg h]
  split_ifs <;> rfl

/-- a frame that is no gap asks for nothing -/
theorem step_down {a : Applier α} {l : Link α} {op : Op α} {f : Frame} (hreads : l.reads op = some f)
    (hgap : (l.registry.apply f.event).2 ≠ .appliedWithGap) (v : ℕ) : ((step a l op).wires v).down = (l.wires v).down := by
  cases op with
  | driver op => cases hreads
  | daemon op =>
    cases op with
    | recv rescanSent =>
      obtain ⟨g, w, rest, hc, hu, hrecv⟩ | ⟨hnone, -⟩ := recv_cases l rescanSent
      · have hfg : g = f := by simpa [reads, hc, hu] using hreads
        subst hfg
        have hwires : (l.recv rescanSent).1.wires = (l.setWire w { l.wires w with up := rest }).wires := by
          rw [hrecv]
          exact process_wires (l := { l with received := l.received ++ [g] }.setWire w { l.wires w with up := rest }) hgap
            rescanSent
        calc ((l.recv rescanSent).1.wires v).down = ((l.setWire w { l.wires w with up := rest }).wires v).down := by
              rw [hwires]
          _ = (l.wires v).down := by
              by_cases hv : v = w
              · rw [hv, setWire_self]
              · rw [setWire_ne l _ hv]
      · rw [hreads] at hnone; cases hnone
    | _ => cases hreads

/-- a step that answers no gap is quiet -/
theorem quiet_of_noGap {a : Applier α} {l : Link α} {op : Op α}
    (h : ∀ f, l.reads op = some f → (l.registry.apply f.event).2 ≠ .appliedWithGap) :
    Quiet (entryOf (stepReading a) l op) := by
  obtain ⟨f, hreads, hreg⟩ | ⟨hreads, hreg⟩ := step_registry a l op
  · obtain ⟨halarm, hstale⟩ := Registry.deliver_quiet (h f hreads)
    exact {
      noGap := h
      noRequest := fun _ v => step_down hreads (h f hreads) v
      noAlarm := fun hn => halarm (hreg ▸ hn)
      noStale := fun k entry hg hs => hstale k entry (hreg ▸ hg) hs }
  · exact {
      noGap := h
      noRequest := fun hsome => absurd hsome (by simp [entryOf, stepReading, hreads])
      noAlarm := fun hn => by
        rcases hreg with hreg | hreg
        · exact hreg ▸ hn
        · exact absurd (hreg ▸ hn : ({} : Registry).rescanNeeded = true) (by decide)
      noStale := fun k entry hg hs => by
        rcases hreg with hreg | hreg
        · exact ⟨entry, hreg ▸ hg, hs⟩
        · exact absurd (hreg ▸ hg : ({} : Registry).contexts.get? k = some entry) (by simp) }

/-! ## Runs -/

theorem lastRead_entryOf (a : Applier α) (l : Link α) (op : Op α) (past : List (Reading α)) :
    lastRead (entryOf (stepReading a) l op :: past) =
      match l.reads op with
      | some f => some (l.registry, f)
      | none => lastRead past := rfl

/-- the last frame was counted if it was taken, unless the daemon has forgotten everything since -/
def Counted (l : Link α) (past : List (Reading α)) : Prop :=
  ∀ last ∈ lastRead past, last.1.Takes last.2.event →
    l.registry.highestSequence = 0 ∨ last.2.event.eventSequence ≤ l.registry.highestSequence

theorem step_counted {a : Applier α} {l : Link α} {past : List (Reading α)} (h : Counted l past) (op : Op α) :
    Counted (step a l op) (entryOf (stepReading a) l op :: past) := by
  intro last hlast htakes
  rw [lastRead_entryOf] at hlast
  obtain ⟨f, hreads, hreg⟩ | ⟨hreads, hreg⟩ := step_registry a l op
  · rw [hreads] at hlast
    obtain rfl : (l.registry, f) = last := Option.some.inj hlast
    rw [hreg, Registry.deliver_taken htakes]
    exact .inr (le_max_right _ _)
  · rw [hreads] at hlast
    rcases hreg with hreg | hreg
    · rw [hreg]
      exact h last hlast htakes
    · rw [hreg]
      exact .inl rfl

/-- nothing above the last frame was counted, and the last frame only if it was taken -/
def Behind (l : Link α) (past : List (Reading α)) : Prop :=
  l.registry.highestSequence = 0 ∨
    ∃ last ∈ lastRead past, l.registry.highestSequence ≤ last.2.event.eventSequence ∧
      (¬ last.1.Takes last.2.event → l.registry.highestSequence < last.2.event.eventSequence)

theorem step_behind {a : Applier α} {l : Link α} {past : List (Reading α)} {op : Op α} (h : Behind l past)
    (hsequence : InSequence past (entryOf (stepReading a) l op)) :
    Behind (step a l op) (entryOf (stepReading a) l op :: past) := by
  unfold Behind
  rw [lastRead_entryOf]
  obtain ⟨f, hreads, hreg⟩ | ⟨hreads, hreg⟩ := step_registry a l op
  · rw [hreads, hreg]
    have hbound : l.registry.highestSequence = 0 ∨ l.registry.highestSequence < f.event.eventSequence := by
      rcases h with hzero | ⟨last, hlast, hle, -⟩
      · exact .inl hzero
      · have hnext := hsequence f hreads last hlast
        exact .inr (by omega)
    by_cases htakes : l.registry.Takes f.event
    · rw [Registry.deliver_taken htakes]
      refine .inr ⟨_, rfl, ?_, fun hn => absurd htakes hn⟩
      rcases hbound with hzero | hlt
      · rw [hzero, Nat.zero_max]
      · exact max_le hlt.le le_rfl
    · rw [Registry.deliver_untaken htakes]
      rcases hbound with hzero | hlt
      · exact .inl hzero
      · exact .inr ⟨_, rfl, hlt.le, fun _ => hlt⟩
  · rw [hreads]
    rcases hreg with hreg | hreg
    · rw [hreg]
      exact h
    · rw [hreg]
      exact .inl rfl

/-- **No false gap.** In a run that loses nothing, no step answers a gap, requests a rescan or marks an entry stale if
every live event that is taken follows a frame that is taken; and for a registry that starts empty, only if. -/
theorem no_false_gap (a : Applier α) (l : Link α) (ops : List (Op α))
    (hsequence : Core.Along InSequence (logFrom (stepReading a) l [] ops)) :
    (Core.Along FollowsTaken (logFrom (stepReading a) l [] ops) → Core.Along (fun _ e => Quiet e) (logFrom (stepReading a) l [] ops)) ∧
      (l.registry.highestSequence = 0 → Core.Along (fun _ e => Quiet e) (logFrom (stepReading a) l [] ops) →
        Core.Along FollowsTaken (logFrom (stepReading a) l [] ops)) := by
  constructor
  · intro hfollows
    refine along_logFrom (I := Counted) (stepReading a) (fun l past op hcounted hcond => ?_) ops
      (fun last hlast => by cases hlast) trivial (hsequence.and hfollows)
    refine ⟨step_counted hcounted op, quiet_of_noGap fun f hreads hgap => ?_⟩
    obtain ⟨htakes, hlive, hpos, hseq⟩ := (Registry.gap_iff _ _).mp hgap
    obtain ⟨last, hlast, hlasttaken⟩ := hcond.2 f hreads htakes hlive hpos
    have hnext := hcond.1 f hreads last hlast
    rcases hcounted last hlast hlasttaken with hzero | hle
    · exact hpos hzero
    · omega
  · intro hfresh hquiet
    refine along_logFrom (I := Behind) (stepReading a) (fun l past op hbehind hcond => ?_) ops (.inl hfresh) trivial
      (hsequence.and hquiet)
    refine ⟨step_behind hbehind hcond.1, fun f hreads htakes hlive hpos => ?_⟩
    rcases hbehind with hzero | ⟨last, hlast, -, hbelow⟩
    · exact absurd hzero hpos
    · refine ⟨last, hlast, ?_⟩
      by_contra huntaken
      have hnext := hcond.1 f hreads last hlast
      have hlt := hbelow huntaken
      have hgap : l.registry.highestSequence + 1 < f.event.eventSequence := by omega
      exact hcond.2.noGap f hreads ((Registry.gap_iff _ _).mpr ⟨htakes, hlive, hpos, hgap⟩)

end Link

open Link

/-! ## Two runs -/

/-- a bridge that connects before its first event is stamped: HELLO 1, the replay 2 and 3, CREATED 4 -/
def connectedFirst : List (Op Unit) :=
  [.driver (.register 5 6), .driver (.connect .sent), .driver .collect, .driver (.replaySend .sent),
    .driver (.replaySend .sent), .driver (.stamp 0), .driver (.enqueue 0), .driver (.drain .sent), .daemon .accept,
    .daemon (.recv true), .daemon (.recv true), .daemon (.recv true), .daemon (.recv true)]

/-- the context is enabled, with sequence 5 or whatever is next -/
def thenEnabled : List (Op Unit) :=
  [.driver (.publishEnabled 1 true), .driver (.stamp 0), .driver (.enqueue 0), .driver (.drain .sent),
    .daemon (.recv true)]

/-- a snapshot command is sent, answered and the answer read -/
def thenAnswered : List (Op Unit) :=
  [.daemon (.send ⟨.snapshotBegin, [], ⟨0, 1⟩⟩ true), .driver (.handle .sent), .daemon (.recv true)]

theorem enabled_without_gap :
    Core.Along (fun _ e => Quiet e) (logFrom (stepReading inert) (init 7) [] (connectedFirst ++ thenEnabled)) :=
  (no_false_gap inert (init 7) (connectedFirst ++ thenEnabled) (by decide)).1 (by decide)

def answeredThenEnabled : List (Op Unit) := connectedFirst ++ thenAnswered ++ thenEnabled

/-- Every frame the bridge stamped is read, in order, and still the answer to one command makes the next event a gap: the
context is marked stale and a rescan is on its way. -/
theorem answer_is_a_gap :
    (run inert (init 7) answeredThenEnabled).received.map (fun f => f.event.eventSequence) = [1, 2, 3, 4, 5, 6] ∧
      (run inert (init 7) answeredThenEnabled).driver.nextSequence = 7 ∧
      Core.Along InSequence (logFrom (stepReading inert) (init 7) [] answeredThenEnabled) ∧
      ¬ Core.Along (fun _ e => Quiet e) (logFrom (stepReading inert) (init 7) [] answeredThenEnabled) ∧
      (run inert (init 7) answeredThenEnabled).registry.rescanNeeded = true ∧
      ((run inert (init 7) answeredThenEnabled).registry.contexts.get? ⟨7, 1⟩).map ContextEntry.stale = some true := by
  refine ⟨by decide, by decide, by decide, fun hquiet => ?_, by decide, by decide⟩
  have hnoGap := hquiet.mono (Q := fun _ e => ∀ f ∈ e.output, (e.before.registry.apply f.event).2 ≠ .appliedWithGap)
    fun _ _ h => h.noGap
  revert hnoGap
  decide

end ViperFx.Channel
