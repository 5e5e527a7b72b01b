/-
The daemon's view of the driver's contexts: `daemon/SessionRegistry.cpp`, with the two lines of
`DriverEventServer::Poll` that act on a detected gap.

`apply` discards events by type, by unknown context and by sequence number, detects gaps in the live stream, and folds
the rest into the table. A gap marks every entry stale; the terminator of a replay drops what is still stale.

Results:
  · apply_cases                       : everything one event can do
  · deliver_inv, deliverAll_inv       : no entry is ahead of the highest sequence, over every stream of events
  · loss_detected_iff                 : exactly which losses the live stream reveals
  · deliverAll_confirmed              : which entries a block of replay frames confirms
  · deliver_terminator                : a terminator keeps exactly the confirmed entries
-/
import ViperFx.Core.Table
import ViperFx.Protocol.DriverEvent

namespace ViperFx.Daemon

open ViperFx.Core ViperFx.Protocol

/-! ## Data -/

inductive ContextState where
  | created
  | configured
  | active
  | inactive
  | released
  deriving DecidableEq

structure ContextKey where
  bootId : ℕ
  contextInstanceId : ℕ
  deriving DecidableEq

structure ContextEntry where
  state : ContextState := .created
  audioSessionId : ℕ := 0
  ioId : ℕ := 0
  sampleRate : ℕ := 0
  channelMask : ℕ := 0
  resourceGeneration : ℕ := 0
  graphGeneration : ℕ := 0
  bypassReason : ℕ := 0
  lastSequence : ℕ := 0
  createdSequence : ℕ := 0
  stale : Bool := false
  deriving DecidableEq

inductive ApplyResult where
  | applied
  | appliedWithGap
  | duplicate
  | ignored
  deriving DecidableEq

structure Registry where
  contexts : Table ContextKey ContextEntry := Table.empty
  highestSequence : ℕ := 0
  rescanStartedSequence : ℕ := 0
  rescanNeeded : Bool := false
  contextGeneration : ℕ := 0
  newestCreatedSequence : ℕ := 0

def keyOf (e : DriverEvent) : ContextKey := ⟨e.bootId, e.contextInstanceId⟩

def isLifecycleEvent : DriverEventType → Bool
  | .contextCreated | .contextConfigured | .contextEnabled | .contextDisabled | .contextReleased
  | .resourceGenerationChanged | .telemetry | .rescanResponse => true
  | _ => false

/-- only these types may introduce a context the registry has not seen -/
def createsContext : DriverEventType → Bool
  | .contextCreated | .rescanResponse => true
  | _ => false

/-- the end of a replay: a RESCAN_RESPONSE without a context -/
def isTerminator (e : DriverEvent) : Bool := e.type == .rescanResponse && e.contextInstanceId == 0

def applyObservations (entry : ContextEntry) (e : DriverEvent) : ContextEntry :=
  { entry with
    audioSessionId := e.audioSessionId
    ioId := e.ioId
    sampleRate := if e.sampleRate ≠ 0 then e.sampleRate else entry.sampleRate
    channelMask := if e.channelMask ≠ 0 then e.channelMask else entry.channelMask
    resourceGeneration := e.resourceGeneration
    graphGeneration := e.graphGeneration
    bypassReason := e.bypassReason }

/-- the state switch at the end of `Apply` -/
def transition (entry : ContextEntry) (e : DriverEvent) : ContextEntry :=
  match e.type with
  | .contextCreated => { entry with state := .created }
  | .contextConfigured => { entry with state := .configured }
  | .contextEnabled => { entry with state := .active }
  | .contextDisabled => { entry with state := .inactive }
  | .rescanResponse => { entry with state := if e.enabled then .active else .inactive, stale := false }
  | _ => entry

/-! ## Operations -/

namespace Registry

def markStaleAfter (r : Registry) (sequence : ℕ) : Registry :=
  { r with
    rescanStartedSequence := sequence
    rescanNeeded := true
    contexts := r.contexts.retain fun _ entry =>
      some (if entry.lastSequence ≤ sequence then { entry with stale := true } else entry) }

def rescanComplete (r : Registry) (sequence : ℕ) : Registry :=
  { r with
    contexts := r.contexts.retain fun _ entry =>
      if entry.stale ∧ entry.lastSequence ≤ sequence then none else some { entry with stale := false }
    rescanStartedSequence := 0
    rescanNeeded := false }

/-- a sequence above the next expected one, in the live stream -/
def isGap (r : Registry) (e : DriverEvent) : Bool :=
  e.eventSequence != 0 && r.highestSequence != 0 && decide (r.highestSequence + 1 < e.eventSequence)
    && e.type != .rescanResponse

def raise (r : Registry) (sequence : ℕ) : Registry := { r with highestSequence := max r.highestSequence sequence }

/-- the entry an event leaves for its context; a context that is not known starts from a fresh one -/
def refresh (r : Registry) (e : DriverEvent) : ContextEntry :=
  let entry := (r.contexts.get? (keyOf e)).getD { createdSequence := e.eventSequence }
  transition (applyObservations { entry with lastSequence := e.eventSequence } e) e

/-- the body of `Apply` behind the early returns: gap detection, release, insertion and the state switch -/
def absorb (r : Registry) (e : DriverEvent) : Registry × ApplyResult :=
  let r₁ := { r.raise e.eventSequence with rescanNeeded := r.rescanNeeded || r.isGap e }
  (if e.type = .contextReleased then { r₁ with contexts := r.contexts.erase (keyOf e) }
    else if (r.contexts.get? (keyOf e)).isSome then { r₁ with contexts := r.contexts.put (keyOf e) (r.refresh e) }
    else { r₁ with
      contexts := r.contexts.put (keyOf e) (r.refresh e)
      contextGeneration := r.contextGeneration + 1
      newestCreatedSequence := e.eventSequence },
    if r.isGap e then .appliedWithGap else .applied)

def apply (r : Registry) (e : DriverEvent) : Registry × ApplyResult :=
  if !isLifecycleEvent e.type then (r, .ignored)
  else if isTerminator e then
    let r₁ := r.raise e.eventSequence
    (r₁.rescanComplete r₁.highestSequence, .applied)
  else match r.contexts.get? (keyOf e) with
    | none => if !createsContext e.type then (r, .ignored) else r.absorb e
    | some entry =>
      if e.eventSequence ≠ 0 ∧ e.eventSequence ≤ entry.lastSequence then (r, .duplicate) else r.absorb e

/-- a lifecycle event as `DriverEventServer::Poll` handles it: a gap marks what the registry holds as stale -/
def deliver (r : Registry) (e : DriverEvent) : Registry :=
  match r.apply e with
  | (r', .appliedWithGap) => r'.markStaleAfter r'.highestSequence
  | (r', _) => r'

def deliverAll (r : Registry) (events : List DriverEvent) : Registry := events.foldl deliver r

/-! ## One event -/

/-- everything one event can do: nothing, end a replay, or be absorbed as news about its context -/
theorem apply_cases (r : Registry) (e : DriverEvent) :
    (isLifecycleEvent e.type = false ∧ r.apply e = (r, .ignored)) ∨
    (isTerminator e = true ∧
      r.apply e = ((r.raise e.eventSequence).rescanComplete (r.raise e.eventSequence).highestSequence, .applied)) ∨
    (isLifecycleEvent e.type = true ∧ isTerminator e = false ∧ r.contexts.get? (keyOf e) = none ∧
      createsContext e.type = false ∧ r.apply e = (r, .ignored)) ∨
    (isLifecycleEvent e.type = true ∧ isTerminator e = false ∧ (∃ entry, r.contexts.get? (keyOf e) = some entry ∧
      e.eventSequence ≠ 0 ∧ e.eventSequence ≤ entry.lastSequence) ∧ r.apply e = (r, .duplicate)) ∨
    (isLifecycleEvent e.type = true ∧ isTerminator e = false ∧
      (r.contexts.get? (keyOf e) = none → createsContext e.type = true) ∧
      (∀ entry, r.contexts.get? (keyOf e) = some entry →
        e.eventSequence = 0 ∨ entry.lastSequence < e.eventSequence) ∧
      r.apply e = r.absorb e) := by
  cases hl : isLifecycleEvent e.type with
  | false => exact .inl ⟨rfl, by simp [apply, hl]⟩
  | true =>
    cases ht : isTerminator e with
    | true => exact .inr (.inl ⟨rfl, by simp [apply, hl, ht]⟩)
    | false =>
      refine .inr (.inr ?_)
      cases hg : r.contexts.get? (keyOf e) with
      | none =>
        cases hc : createsContext e.type with
        | false => exact .inl ⟨rfl, rfl, rfl, rfl, by simp [apply, hl, ht, hg, hc]⟩
        | true => exact .inr (.inr ⟨rfl, rfl, fun _ => rfl, by simp, by simp [apply, hl, ht, hg, hc]⟩)
      | some entry =>
        by_cases hd : e.eventSequence ≠ 0 ∧ e.eventSequence ≤ entry.lastSequence
        · exact .inr (.inl ⟨rfl, rfl, ⟨entry, rfl, hd.1, hd.2⟩, by simp [apply, hl, ht, hg, hd]⟩)
        · refine .inr (.inr ⟨rfl, rfl, by simp, fun entry' h' => ?_, by simp only [apply, hl, ht, hg, if_neg hd]; rfl⟩)
          obtain rfl := Option.some.inj h'
          omega

theorem absorb_highest (r : Registry) (e : DriverEvent) :
    (r.absorb e).1.highestSequence = max r.highestSequence e.eventSequence := by
  simp only [absorb]
  split_ifs <;> rfl

theorem absorb_rescanNeeded (r : Registry) (e : DriverEvent) :
    (r.absorb e).1.rescanNeeded = (r.rescanNeeded || r.isGap e) := by
  simp only [absorb]
  split_ifs <;> rfl

theorem absorb_get? (r : Registry) (e : DriverEvent) (k : ContextKey) :
    (r.absorb e).1.contexts.get? k =
      if keyOf e = k then (if e.type = .contextReleased then none else some (r.refresh e))
      else r.contexts.get? k := by
  simp only [absorb]
  split_ifs <;> simp_all [Table.get?_erase, Table.get?_put]

@[simp] theorem refresh_lastSequence (r : Registry) (e : DriverEvent) :
    (r.refresh e).lastSequence = e.eventSequence := by
  unfold refresh transition applyObservations
  split <;> rfl

/-- an event leaves a stale entry only where there was one -/
theorem refresh_stale {r : Registry} {e : DriverEvent} (h : (r.refresh e).stale = true) :
    ∃ old, r.contexts.get? (keyOf e) = some old ∧ old.stale = true := by
  have hstale : (r.refresh e).stale = true →
      ((r.contexts.get? (keyOf e)).getD { createdSequence := e.eventSequence }).stale = true := by
    unfold refresh transition applyObservations
    split <;> simp
  have hbase := hstale h
  cases hg : r.contexts.get? (keyOf e) with
  | none => rw [hg] at hbase; cases hbase
  | some old => rw [hg] at hbase; exact ⟨old, rfl, hbase⟩

/-! ## The sequence invariant -/

/-- no entry is ahead of the highest sequence the registry has seen -/
def Inv (r : Registry) : Prop := ∀ k entry, r.contexts.get? k = some entry → entry.lastSequence ≤ r.highestSequence

theorem inv_init : Inv {} := fun k entry h => by cases h

theorem markStaleAfter_inv {r : Registry} (h : r.Inv) (n : ℕ) : (r.markStaleAfter n).Inv := by
  intro k entry hg
  simp only [markStaleAfter, Table.get?_retain] at hg
  obtain ⟨entry₀, h₀, hs⟩ := Option.bind_eq_some_iff.mp hg
  have hle := h k entry₀ h₀
  obtain rfl := Option.some.inj hs
  split_ifs <;> exact hle

theorem rescanComplete_inv {r : Registry} (h : r.Inv) (n : ℕ) : (r.rescanComplete n).Inv := by
  intro k entry hg
  simp only [rescanComplete, Table.get?_retain] at hg
  obtain ⟨entry₀, h₀, hs⟩ := Option.bind_eq_some_iff.mp hg
  have hle := h k entry₀ h₀
  split_ifs at hs
  obtain rfl := Option.some.inj hs
  exact hle

theorem raise_inv {r : Registry} (h : r.Inv) (n : ℕ) : (r.raise n).Inv :=
  fun k entry hg => le_trans (h k entry hg) (le_max_left _ _)

theorem absorb_inv {r : Registry} (h : r.Inv) (e : DriverEvent) : (r.absorb e).1.Inv := by
  intro k entry hg
  rw [absorb_highest]
  rw [absorb_get?] at hg
  split_ifs at hg
  · obtain rfl := Option.some.inj hg
    rw [refresh_lastSequence]
    exact le_max_right _ _
  · exact le_trans (h k entry hg) (le_max_left _ _)

theorem apply_inv {r : Registry} (h : r.Inv) (e : DriverEvent) : (r.apply e).1.Inv := by
  obtain ⟨-, hb⟩ | ⟨-, hb⟩ | ⟨-, -, -, -, hb⟩ | ⟨-, -, -, hb⟩ | ⟨-, -, -, -, hb⟩ := apply_cases r e
  · rw [hb]; exact h
  · rw [hb]; exact rescanComplete_inv (raise_inv h _) _
  · rw [hb]; exact h
  · rw [hb]; exact h
  · rw [hb]; exact absorb_inv h e

theorem deliver_inv {r : Registry} (h : r.Inv) (e : DriverEvent) : (r.deliver e).Inv := by
  have ha := apply_inv h e
  unfold deliver
  rcases hr : r.apply e with ⟨r', res⟩
  rw [hr] at ha
  cases res with
  | appliedWithGap => exact markStaleAfter_inv ha _
  | applied => exact ha
  | duplicate => exact ha
  | ignored => exact ha

theorem deliverAll_inv {r : Registry} (h : r.Inv) (events : List DriverEvent) : (r.deliverAll events).Inv := by
  induction events generalizing r with
  | nil => exact h
  | cons e events ih => exact ih (deliver_inv h e)

/-! ## Losses -/

/-- a live event the registry can attribute: it creates its context, or the context is known -/
def Attributable (r : Registry) (e : DriverEvent) : Prop :=
  isLifecycleEvent e.type = true ∧ (e.type = .contextCreated ∨ (r.contexts.get? (keyOf e)).isSome)

/-- an event that cannot be attributed is dropped before anything looks at its sequence -/
theorem deliver_unattributable {r : Registry} {e : DriverEvent} (hlive : e.type ≠ .rescanResponse)
    (h : ¬ r.Attributable e) : r.deliver e = r := by
  have hterm : isTerminator e = false := by simp [isTerminator, hlive]
  have hcreates : e.type ≠ .contextCreated → createsContext e.type = false := by
    intro hc
    cases ht : e.type <;> simp_all [createsContext]
  unfold Attributable at h
  obtain ⟨hl, hb⟩ | ⟨ht, -⟩ | ⟨-, -, -, -, hb⟩ | ⟨hl, -, ⟨entry, hg, -⟩, -⟩ | ⟨hl, -, hnone, -, -⟩ := apply_cases r e
  · simp [deliver, hb]
  · rw [hterm] at ht; cases ht
  · simp [deliver, hb]
  · exact absurd ⟨hl, .inr (by simp [hg])⟩ h
  · push Not at h
    have h' := h hl
    have hg : r.contexts.get? (keyOf e) = none := by simpa using h'.2
    rw [hcreates h'.1] at hnone
    exact absurd (hnone hg) (by decide)

/-- an attributable event above the next expected sequence raises the alarm -/
theorem deliver_gap {r : Registry} (hinv : r.Inv) {e : DriverEvent} (hlive : e.type ≠ .rescanResponse)
    (h : r.Attributable e) (hpos : 0 < r.highestSequence) (hseq : r.highestSequence + 1 < e.eventSequence) :
    (r.deliver e).rescanNeeded = true := by
  have hgap : r.isGap e = true := by
    simp only [isGap, Bool.and_eq_true, bne_iff_ne, ne_eq, decide_eq_true_eq]
    exact ⟨⟨⟨by omega, by omega⟩, hseq⟩, hlive⟩
  have habs : (r.absorb e).2 = .appliedWithGap := by simp [absorb, hgap]
  obtain ⟨hl, hb⟩ | ⟨ht, -⟩ | ⟨-, -, hg, hc, -⟩ | ⟨hl, -, ⟨entry, hg, -, hle⟩, -⟩ | ⟨hl, -, -, -, hb⟩ := apply_cases r e
  · rw [h.1] at hl; cases hl
  · simp [isTerminator, hlive] at ht
  · rcases h.2 with hcr | hk
    · rw [hcr] at hc; cases hc
    · rw [hg] at hk; cases hk
  · have := hinv _ _ hg
    omega
  · rw [deliver, hb]
    rcases ha : r.absorb e with ⟨r', res⟩
    rw [ha] at habs
    obtain rfl : res = .appliedWithGap := habs
    rfl

/-- only a terminator lowers the alarm -/
theorem deliver_keeps_alarm {r : Registry} {e : DriverEvent} (hlive : e.type ≠ .rescanResponse)
    (h : r.rescanNeeded = true) : (r.deliver e).rescanNeeded = true := by
  have happ : (r.apply e).1.rescanNeeded = true := by
    obtain ⟨-, hb⟩ | ⟨ht, -⟩ | ⟨-, -, -, -, hb⟩ | ⟨-, -, -, hb⟩ | ⟨-, -, -, -, hb⟩ := apply_cases r e
    · rw [hb]; exact h
    · simp [isTerminator, hlive] at ht
    · rw [hb]; exact h
    · rw [hb]; exact h
    · rw [hb, absorb_rescanNeeded, h, Bool.true_or]
  unfold deliver
  rcases hr : r.apply e with ⟨r', res⟩
  rw [hr] at happ
  cases res with
  | appliedWithGap => rfl
  | applied => exact happ
  | duplicate => exact happ
  | ignored => exact happ

theorem deliverAll_keeps_alarm {r : Registry} (events : List DriverEvent)
    (hlive : ∀ e ∈ events, e.type ≠ .rescanResponse) (h : r.rescanNeeded = true) :
    (r.deliverAll events).rescanNeeded = true := by
  induction events generalizing r with
  | nil => exact h
  | cons e events ih =>
    exact ih (fun e' he' => hlive e' (List.mem_cons_of_mem _ he')) (deliver_keeps_alarm (hlive e (by simp)) h)

theorem alarm_iff {r : Registry} (hinv : r.Inv) (n : ℕ) (later : List DriverEvent) (hpos : 0 < r.highestSequence)
    (hlost : r.highestSequence < n) (hlater : ∀ e ∈ later, n < e.eventSequence)
    (hlive : ∀ e ∈ later, e.type ≠ .rescanResponse) :
    (r.deliverAll later).rescanNeeded = true ↔ r.rescanNeeded = true ∨ ∃ e ∈ later, r.Attributable e := by
  induction later with
  | nil => simp [deliverAll]
  | cons e later ih =>
    have hlater' : ∀ e' ∈ later, n < e'.eventSequence := fun e' he' => hlater e' (List.mem_cons_of_mem _ he')
    have hlive' : ∀ e' ∈ later, e'.type ≠ .rescanResponse := fun e' he' => hlive e' (List.mem_cons_of_mem _ he')
    by_cases hatt : r.Attributable e
    · -- the first attributable event is compared with the highest sequence, which is still below the lost one
      have hseq := hlater e (by simp)
      have halarm := deliver_gap hinv (hlive e (by simp)) hatt hpos (by omega)
      have hall : (r.deliverAll (e :: later)).rescanNeeded = true := deliverAll_keeps_alarm later hlive' halarm
      exact ⟨fun _ => .inr ⟨e, by simp, hatt⟩, fun _ => hall⟩
    · have hskip : r.deliverAll (e :: later) = r.deliverAll later := by
        show (r.deliver e).deliverAll later = _
        rw [deliver_unattributable (hlive e (by simp)) hatt]
      rw [hskip, ih hlater' hlive']
      simp only [List.mem_cons, exists_eq_or_imp, hatt, false_or]

/-! ## What counts -/

/-- news about a context, given the entry it has -/
def isNews (e : DriverEvent) : Option ContextEntry → Bool
  | none => createsContext e.type
  | some entry => e.eventSequence == 0 || decide (entry.lastSequence < e.eventSequence)

/-- the registry takes this event: it ends a replay, or is news about a context that is known or created by it -/
def Takes (r : Registry) (e : DriverEvent) : Prop :=
  isLifecycleEvent e.type = true ∧ (isTerminator e = true ∨ isNews e (r.contexts.get? (keyOf e)) = true)

instance (r : Registry) (e : DriverEvent) : Decidable (r.Takes e) := inferInstanceAs (Decidable (_ ∧ _))

/-- everything one event can do, by whether it is taken -/
theorem apply_takes_cases (r : Registry) (e : DriverEvent) :
    (¬ r.Takes e ∧ (r.apply e = (r, .ignored) ∨ r.apply e = (r, .duplicate))) ∨
    (r.Takes e ∧ e.type = .rescanResponse ∧
      r.apply e = ((r.raise e.eventSequence).rescanComplete (r.raise e.eventSequence).highestSequence, .applied)) ∨
    (r.Takes e ∧ r.apply e = r.absorb e) := by
  unfold Takes
  obtain ⟨hl, hb⟩ | ⟨ht, hb⟩ | ⟨hl, ht, hg, hc, hb⟩ | ⟨hl, ht, ⟨entry, hg, hpos, hle⟩, hb⟩ | ⟨hl, ht, hnone, hsome, hb⟩ :=
    apply_cases r e
  · exact .inl ⟨fun h => absurd h.1 (by rw [hl]; decide), .inl hb⟩
  · have htype : e.type = .rescanResponse := by
      simp only [isTerminator, Bool.and_eq_true, beq_iff_eq] at ht
      exact ht.1
    exact .inr (.inl ⟨⟨by rw [htype]; rfl, .inl ht⟩, htype, hb⟩)
  · exact .inl ⟨fun h => by simp [ht, hg, isNews, hc] at h, .inl hb⟩
  · refine .inl ⟨fun h => ?_, .inr hb⟩
    simp [ht, hg, isNews, hpos] at h
    omega
  · refine .inr (.inr ⟨⟨hl, .inr ?_⟩, hb⟩)
    cases hg : r.contexts.get? (keyOf e) with
    | none => exact hnone hg
    | some entry => simpa [isNews] using hsome entry hg

/-- an event that is not taken leaves no mark, its sequence number included -/
theorem deliver_untaken {r : Registry} {e : DriverEvent} (h : ¬ r.Takes e) : r.deliver e = r := by
  obtain ⟨-, hb | hb⟩ | ⟨ht, -⟩ | ⟨ht, -⟩ := apply_takes_cases r e
  · rw [deliver, hb]
  · rw [deliver, hb]
  · exact absurd ht h
  · exact absurd ht h

theorem deliver_taken {r : Registry} {e : DriverEvent} (h : r.Takes e) :
    (r.deliver e).highestSequence = max r.highestSequence e.eventSequence := by
  have happly : (r.apply e).1.highestSequence = max r.highestSequence e.eventSequence := by
    obtain ⟨hn, -⟩ | ⟨-, -, hb⟩ | ⟨-, hb⟩ := apply_takes_cases r e
    · exact absurd h hn
    · rw [hb]; rfl
    · rw [hb]; exact absorb_highest r e
  unfold deliver
  rcases ha : r.apply e with ⟨r', res⟩
  rw [ha] at happly
  cases res <;> exact happly

/-- a gap is answered to a live event that is taken, above the next expected sequence, and to no other -/
theorem gap_iff (r : Registry) (e : DriverEvent) :
    (r.apply e).2 = .appliedWithGap ↔ r.Takes e ∧ e.type ≠ .rescanResponse ∧ r.highestSequence ≠ 0 ∧
      r.highestSequence + 1 < e.eventSequence := by
  obtain ⟨hn, hb | hb⟩ | ⟨-, htype, hb⟩ | ⟨ht, hb⟩ := apply_takes_cases r e
  · rw [hb]
    exact ⟨fun h => (by cases h), fun h => absurd h.1 hn⟩
  · rw [hb]
    exact ⟨fun h => (by cases h), fun h => absurd h.1 hn⟩
  · rw [hb]
    exact ⟨fun h => (by cases h), fun h => absurd htype h.2.1⟩
  · have hgap : r.isGap e = true ↔ e.type ≠ .rescanResponse ∧ r.highestSequence ≠ 0 ∧
        r.highestSequence + 1 < e.eventSequence := by
      simp only [isGap, Bool.and_eq_true, bne_iff_ne, ne_eq, decide_eq_true_eq]
      constructor
      · rintro ⟨⟨⟨-, h₁⟩, h₂⟩, h₃⟩
        exact ⟨h₃, h₁, h₂⟩
      · rintro ⟨h₁, h₂, h₃⟩
        exact ⟨⟨⟨by omega, h₂⟩, h₃⟩, h₁⟩
    rw [hb, ← hgap]
    simp only [absorb]
    cases r.isGap e with
    | true => exact ⟨fun _ => ⟨ht, rfl⟩, fun _ => rfl⟩
    | false => exact ⟨fun h => (by cases h), fun h => (by cases h.2)⟩

/-- a delivery without a gap marks nothing stale and raises no alarm -/
theorem deliver_quiet {r : Registry} {e : DriverEvent} (h : (r.apply e).2 ≠ .appliedWithGap) :
    ((r.deliver e).rescanNeeded = true → r.rescanNeeded = true) ∧
      ∀ k entry, (r.deliver e).contexts.get? k = some entry → entry.stale = true →
        ∃ old, r.contexts.get? k = some old ∧ old.stale = true := by
  have hdeliver : r.deliver e = (r.apply e).1 := by
    unfold deliver
    rcases ha : r.apply e with ⟨r', res⟩
    rw [ha] at h
    cases res with
    | appliedWithGap => exact absurd rfl h
    | applied => rfl
    | duplicate => rfl
    | ignored => rfl
  rw [hdeliver]
  obtain ⟨-, hb | hb⟩ | ⟨-, -, hb⟩ | ⟨-, hb⟩ := apply_takes_cases r e
  · rw [hb]; exact ⟨id, fun k entry hg hs => ⟨entry, hg, hs⟩⟩
  · rw [hb]; exact ⟨id, fun k entry hg hs => ⟨entry, hg, hs⟩⟩
  · rw [hb]
    refine ⟨fun hn => (by cases hn), fun k entry hg hs => ?_⟩
    simp only [rescanComplete, Table.get?_retain] at hg
    obtain ⟨old, -, hkept⟩ := Option.bind_eq_some_iff.mp hg
    split_ifs at hkept
    obtain rfl := Option.some.inj hkept
    cases hs
  · rw [hb] at h ⊢
    have hgap : r.isGap e = false := by
      cases hgap : r.isGap e with
      | false => rfl
      | true => exact absurd (by simp [absorb, hgap]) h
    rw [absorb_rescanNeeded, hgap, Bool.or_false]
    refine ⟨id, fun k entry hg hs => ?_⟩
    rw [absorb_get?] at hg
    split_ifs at hg with hk hrel
    · obtain rfl := Option.some.inj hg
      obtain ⟨old, hold, hstale⟩ := refresh_stale hs
      exact ⟨old, hk ▸ hold, hstale⟩
    · exact ⟨entry, hg, hs⟩

/-! ## Replays -/

/-- the entry of `k` is not stale, so that the next terminator keeps it -/
def Confirmed (r : Registry) (k : ContextKey) : Prop := ∃ entry, r.contexts.get? k = some entry ∧ entry.stale = false

/-- the duplicate filter lets an event with this sequence through -/
def Admits (r : Registry) (k : ContextKey) (sequence : ℕ) : Prop :=
  ∀ entry, r.contexts.get? k = some entry → entry.lastSequence < sequence

/-- a replay frame refreshes its entry or is dropped as a duplicate; it never counts as a gap -/
theorem deliver_replay {r : Registry} {e : DriverEvent} (htype : e.type = .rescanResponse)
    (hid : e.contextInstanceId ≠ 0) (hseq : 0 < e.eventSequence) :
    (r.Admits (keyOf e) e.eventSequence ∧ r.deliver e = (r.absorb e).1) ∨
    (¬ r.Admits (keyOf e) e.eventSequence ∧ r.deliver e = r) := by
  have hgap : r.isGap e = false := by simp [isGap, htype]
  have hres : (r.absorb e).2 = .applied := by simp [absorb, hgap]
  obtain ⟨hl, -⟩ | ⟨ht, -⟩ | ⟨-, -, -, hc, -⟩ | ⟨-, -, ⟨entry, hg, -, hle⟩, hb⟩ | ⟨-, -, -, hfresh, hb⟩ := apply_cases r e
  · rw [htype] at hl; cases hl
  · simp [isTerminator, hid] at ht
  · rw [htype] at hc; cases hc
  · exact .inr ⟨fun ha => absurd (ha entry hg) (by omega), by rw [deliver, hb]⟩
  · refine .inl ⟨fun entry hg => (hfresh entry hg).resolve_left (by omega), ?_⟩
    rcases ha : r.absorb e with ⟨r', res⟩
    rw [ha] at hres hb
    obtain rfl : res = .applied := hres
    rw [deliver, hb]

theorem refresh_replay {r : Registry} {e : DriverEvent} (htype : e.type = .rescanResponse) :
    (r.refresh e).stale = false := by
  simp [refresh, transition, htype]

/-- which entries a block of replay frames confirms: those that were not stale, and those with a frame that is news -/
theorem deliverAll_confirmed {events : List DriverEvent} (htype : ∀ e ∈ events, e.type = .rescanResponse)
    (hid : ∀ e ∈ events, e.contextInstanceId ≠ 0) (hseq : ∀ e ∈ events, 0 < e.eventSequence) (r : Registry)
    (k : ContextKey) :
    (r.deliverAll events).Confirmed k ↔ r.Confirmed k ∨ ∃ e ∈ events, keyOf e = k ∧ r.Admits k e.eventSequence := by
  induction events generalizing r with
  | nil => simp [deliverAll]
  | cons e events ih =>
    have ht := htype e (by simp)
    have ih' := ih (fun e' he' => htype e' (by simp [he'])) (fun e' he' => hid e' (by simp [he']))
      (fun e' he' => hseq e' (by simp [he'])) (r.deliver e)
    rw [show r.deliverAll (e :: events) = (r.deliver e).deliverAll events from rfl, ih']
    simp only [List.mem_cons, exists_eq_or_imp]
    obtain ⟨hadm, hb⟩ | ⟨hadm, hb⟩ := deliver_replay (r := r) ht (hid e (by simp)) (hseq e (by simp))
    · by_cases hk : keyOf e = k
      · -- this frame confirms `k`, whatever the later ones do
        have hnow : (r.deliver e).Confirmed k := by
          refine ⟨r.refresh e, ?_, refresh_replay ht⟩
          rw [hb, absorb_get?, if_pos hk, if_neg (by simp [ht])]
        exact ⟨fun _ => .inr (.inl ⟨hk, hk ▸ hadm⟩), fun _ => .inl hnow⟩
      · have hsame : (r.deliver e).contexts.get? k = r.contexts.get? k := by rw [hb, absorb_get?, if_neg hk]
        simp only [Confirmed, Admits, hsame, hk, false_and, false_or]
    · rw [hb]
      constructor
      · rintro (h | h)
        · exact .inl h
        · exact .inr (.inr h)
      · rintro (h | ⟨hk, h⟩ | h)
        · exact .inl h
        · exact absurd (hk ▸ h) hadm
        · exact .inr h

/-- a terminator keeps exactly the confirmed entries -/
theorem deliver_terminator {r : Registry} (hinv : r.Inv) {e : DriverEvent} (ht : isTerminator e = true)
    (k : ContextKey) : ((r.deliver e).contexts.get? k).isSome ↔ r.Confirmed k := by
  have hlife : isLifecycleEvent e.type = true := by
    simp only [isTerminator, Bool.and_eq_true, beq_iff_eq] at ht
    rw [ht.1]; rfl
  have hb : r.deliver e = (r.raise e.eventSequence).rescanComplete (r.raise e.eventSequence).highestSequence := by
    simp [deliver, apply, hlife, ht]
  rw [hb]
  simp only [rescanComplete, Table.get?_retain, Confirmed, raise]
  cases hg : r.contexts.get? k with
  | none => simp
  | some entry =>
    have hle : entry.lastSequence ≤ max r.highestSequence e.eventSequence := (hinv k entry hg).trans (le_max_left _ _)
    cases hs : entry.stale with
    | true =>
      simp only [Option.bind_some, hs, true_and, if_pos hle]
      simp [hs]
    | false => simp [hs]

end Registry

/-! ## Which losses are revealed -/

open Registry

/-- the property a registry has to meet on one connection: `before` was delivered, `n` was lost, and everything in `later`
came after it in sequence order without ending a replay; then the last of `later`, if live, finds the alarm raised -/
def LossRevealed (start : Registry) (before : List DriverEvent) (n : ℕ) (later : List DriverEvent) : Prop :=
  before ≠ [] → (∀ e ∈ before, e.eventSequence < n) → (∀ e ∈ later, n < e.eventSequence) →
    ((before ++ later).map DriverEvent.eventSequence).Pairwise (· < ·) → (∀ e ∈ later, isTerminator e = false) →
    (∃ m ∈ later.getLast?, isLifecycleEvent m.type = true ∧ m.type ≠ .rescanResponse) →
    (start.deliverAll (before ++ later)).rescanNeeded = true

/-- **Which losses the live stream reveals.** Whatever was delivered before, on this and on earlier connections: if the
registry has seen a sequence, the lost one is above it, and no replay frame follows, then RescanNeeded() is set after
the later events exactly when it was set before, or one of them creates its context or belongs to a context the
registry held when the event was lost. -/
theorem loss_detected_iff (past later : List DriverEvent) (n : ℕ)
    (hpos : 0 < (deliverAll {} past).highestSequence) (hlost : (deliverAll {} past).highestSequence < n)
    (hlater : ∀ e ∈ later, n < e.eventSequence) (hlive : ∀ e ∈ later, e.type ≠ .rescanResponse) :
    (deliverAll {} (past ++ later)).rescanNeeded = true ↔
      (deliverAll {} past).rescanNeeded = true ∨ ∃ e ∈ later, (deliverAll {} past).Attributable e := by
  have hsplit : deliverAll {} (past ++ later) = (deliverAll {} past).deliverAll later := List.foldl_append
  rw [hsplit]
  exact alarm_iff (deliverAll_inv inv_init past) n later hpos hlost hlater hlive

/-- context 1 is created as 1, the creation of context 2 is lost as 2, and context 1 is configured as 3 -/
theorem loss_detected_known :
    (deliverAll {} ([{ type := .contextCreated, bootId := 7, eventSequence := 1, contextInstanceId := 1 }] ++
      [{ type := .contextConfigured, bootId := 7, eventSequence := 3, contextInstanceId := 1 }])).rescanNeeded = true :=
  (loss_detected_iff [{ type := .contextCreated, bootId := 7, eventSequence := 1, contextInstanceId := 1 }]
    [{ type := .contextConfigured, bootId := 7, eventSequence := 3, contextInstanceId := 1 }] 2
    (by decide) (by decide) (by decide) (by decide)).mpr (.inr ⟨_, List.mem_singleton.mpr rfl, by decide, .inr (by decide)⟩)

/-- the creation of context 2 is lost and only context 2 speaks afterwards: no alarm -/
theorem loss_not_always_revealed : ¬ ∀ start before n later, LossRevealed start before n later := by
  intro h
  have hfail := h {} [{ type := .contextCreated, bootId := 7, eventSequence := 1, contextInstanceId := 1 }] 2
    [{ type := .contextConfigured, bootId := 7, eventSequence := 3, contextInstanceId := 2 }]
    (by decide) (by decide) (by decide) (by decide) (by decide) (by decide)
  revert hfail
  decide

end ViperFx.Daemon
