/-
One context on its way from the publisher to the registry.

Seen from one context, a lossless link is a small machine: calls that have left the publisher lock, events that are
stamped, events in the queue, a collected event that is not sent yet, and the registry's entry. The steps of all other
contexts only use up sequence numbers and may mark the entry stale. The sequence number decides at the far end: an event
that is not above the entry's last one is dropped.

The steps carry the three conditions under which nothing that matters is dropped: a release or an enable call taken after
a collection is not stamped while that collection's event is unsent; no event overtakes a release or an enable event
between its stamp and the queue; an enable call is not stamped before an earlier call that sets the state.

Results:
  · Step.ok                           : the bookkeeping of the path
  · Step.dead                         : a released context stays on its way out until its entry is gone
  · Step.alive                        : a registered context is known, or about to be, and its enable state is underway
  · Track.settled                     : on an empty path the entry tells the truth
-/
import ViperFx.Channel.Machine

namespace ViperFx.Channel

open ViperFx.Core ViperFx.Protocol ViperFx.Daemon

/-! ## The machine -/

/-- the part of a registry entry that the lifecycle decides -/
structure Seen where
  state : ContextState
  last : ℕ
  stale : Bool

def stateAfter (s : ContextState) (e : DriverEvent) : ContextState :=
  match e.type with
  | .contextCreated => .created
  | .contextConfigured => .configured
  | .contextEnabled => .active
  | .contextDisabled => .inactive
  | .rescanResponse => if e.enabled then .active else .inactive
  | _ => s

/-- what one event about the context does to its entry -/
def hear (o : Option Seen) (e : DriverEvent) : Option Seen :=
  match o with
  | none => if createsContext e.type then some ⟨stateAfter .created e, e.eventSequence, false⟩ else none
  | some x =>
    if e.eventSequence ≤ x.last then some x
    else if e.type = .contextReleased then none
    else some ⟨stateAfter x.state e, e.eventSequence, x.stale && e.type != .rescanResponse⟩

/-- a gap somewhere marks every entry -/
def mark (gap : Bool) (o : Option Seen) : Option Seen := if gap then o.map fun x => { x with stale := true } else o

/-- the publisher's record of the context -/
structure Status where
  enabled : Bool
  switched : Bool
  reconfigured : Bool

def switchType (enabled : Bool) : DriverEventType := if enabled then .contextEnabled else .contextDisabled

/-- the live events that set the registry's state -/
def setsState : DriverEventType → Bool
  | .contextCreated | .contextConfigured | .contextEnabled | .contextDisabled => true
  | _ => false

/-- the live events that nothing makes up for when they are dropped -/
def decisive : DriverEventType → Bool
  | .contextEnabled | .contextDisabled | .contextReleased => true
  | _ => false

/-- what a call does to the record, and the type of the event it publishes -/
inductive Status.Changes : Status → DriverEventType → Status → Prop
  | configured (st : Status) : Changes st .contextConfigured { st with reconfigured := st.switched }
  | switched (st : Status) (v : Bool) : Changes st (switchType v) ⟨v, true, false⟩
  | generations (st : Status) : Changes st .resourceGenerationChanged st
  | telemetry (st : Status) : Changes st .telemetry st

@[ext]
structure Track where
  born : Bool
  status : Option Status
  unstamped : List Pending
  stamped : List DriverEvent
  queue : List DriverEvent
  running : Option ℕ
  unsent : List DriverEvent
  collections : ℕ
  nextSequence : ℕ
  entry : Option Seen

namespace Track

/-- the live events still to be sent, in the order the publisher lock let them out -/
def path (t : Track) : List DriverEvent := t.queue ++ t.stamped ++ t.unstamped.map Pending.event

/-- the context's own creation has reached the queue -/
def Introduced (t : Track) : Prop := ∀ e ∈ t.stamped ++ t.unstamped.map Pending.event, e.type ≠ .contextCreated

inductive Step : Track → Track → Prop
  | create (t : Track) (e : DriverEvent) (hborn : t.born = false) (he : e.type = .contextCreated) :
      Step t { t with
        born := true
        status := some ⟨false, false, false⟩
        unstamped := t.unstamped ++ [⟨e, t.collections⟩] }
  | publish (t : Track) (st st' : Status) (e : DriverEvent) (hst : t.status = some st) (hin : t.Introduced)
      (hch : st.Changes e.type st') :
      Step t { t with status := some st', unstamped := t.unstamped ++ [⟨e, t.collections⟩] }
  | release (t : Track) (st : Status) (e : DriverEvent) (hst : t.status = some st) (hin : t.Introduced)
      (he : e.type = .contextReleased) :
      Step t { t with status := none, unstamped := t.unstamped ++ [⟨e, t.collections⟩] }
  | stamp (t : Track) (u₁ u₂ : List Pending) (p : Pending) (e : DriverEvent) (hu : t.unstamped = u₁ ++ p :: u₂)
      (he : e.type = p.event.type) (hseq : e.eventSequence = t.nextSequence)
      (hunsent : decisive e.type = true → ∀ n, t.running = some n → n < p.collection → t.unsent = [])
      (horder : ∀ v, e.type = switchType v → ∀ p' ∈ u₁, setsState p'.event.type = false) :
      Step t { t with unstamped := u₁ ++ u₂, stamped := t.stamped ++ [e], nextSequence := t.nextSequence + 1 }
  | enqueue (t : Track) (s₁ s₂ : List DriverEvent) (e : DriverEvent) (hs : t.stamped = s₁ ++ e :: s₂)
      (horder : ∀ e' ∈ t.stamped, decisive e'.type = true → e.eventSequence ≤ e'.eventSequence) :
      Step t { t with stamped := s₁ ++ s₂, queue := t.queue ++ [e] }
  | drain (t : Track) (e : DriverEvent) (q : List DriverEvent) (gap : Bool) (hidle : t.running = none)
      (hq : t.queue = e :: q) : Step t { t with queue := q, entry := mark gap (hear t.entry e) }
  | collect (t : Track) (unsent : List DriverEvent) (hidle : t.running = none)
      (hr : ∀ r ∈ unsent, ∃ st, t.status = some st ∧ r.enabled = st.enabled)
      (hall : t.status.isSome → unsent ≠ []) :
      Step t { t with running := some t.collections, collections := t.collections + 1, unsent := unsent }
  | replay (t : Track) (n : ℕ) (r e : DriverEvent) (rest : List DriverEvent) (hrun : t.running = some n)
      (hu : t.unsent = r :: rest) (he : e.type = .rescanResponse) (hen : e.enabled = r.enabled)
      (hseq : e.eventSequence = t.nextSequence) :
      Step t { t with unsent := rest, entry := hear t.entry e, nextSequence := t.nextSequence + 1 }
  | terminate (t : Track) (n : ℕ) (hrun : t.running = some n) (hu : t.unsent = []) :
      Step t { t with
        running := none
        nextSequence := t.nextSequence + 1
        entry := t.entry.bind fun x => if x.stale then none else some x }
  | skip (t : Track) (n : ℕ) (gap : Bool) (hn : t.nextSequence ≤ n) (hgap : gap = true → t.running = none) :
      Step t { t with nextSequence := n, entry := mark gap t.entry }

/-! ## Bookkeeping -/

/-- sequence numbers are fresh, collections are in order, and a creation is the first event of its context -/
structure Ok (t : Track) : Prop where
  unborn : t.born = false → t.status = none ∧ t.path = [] ∧ t.unsent = [] ∧ t.entry = none
  fresh : ∀ e ∈ t.stamped ++ t.queue, e.eventSequence < t.nextSequence
  seen : ∀ x, t.entry = some x → x.last < t.nextSequence
  sorted : t.stamped.Pairwise fun e f => e.eventSequence < f.eventSequence
  taken : t.unstamped.Pairwise fun p q => p.collection ≤ q.collection
  known : ∀ p ∈ t.unstamped, p.collection ≤ t.collections
  newest : ∀ n, t.running = some n → n < t.collections
  idle : t.running = none → t.unsent = []
  confirming : t.running.isSome → t.status.isSome → ∀ x, t.entry = some x → x.stale = true → t.unsent ≠ []
  births : (t.Introduced ∧ ∀ e ∈ t.queue.tail, e.type ≠ .contextCreated) ∨ t.path.length = 1
  live : ∀ e ∈ t.path, e.type ≠ .rescanResponse

end Track

theorem mark_some {gap : Bool} {o : Option Seen} {x : Seen} (h : mark gap o = some x) :
    ∃ y, o = some y ∧ y.state = x.state ∧ y.last = x.last := by
  cases gap with
  | false => exact ⟨x, h, rfl, rfl⟩
  | true =>
    obtain ⟨y, hy, rfl⟩ := Option.map_eq_some_iff.mp h
    exact ⟨y, hy, rfl, rfl⟩

/-- after an event the entry is as it was, or its last sequence is the event's -/
theorem hear_some {o : Option Seen} {e : DriverEvent} {x : Seen} (h : hear o e = some x) :
    o = some x ∨ x.last = e.eventSequence := by
  unfold hear at h
  split at h
  · split_ifs at h
    obtain rfl := Option.some.inj h
    exact .inr rfl
  · split_ifs at h
    · exact .inl h
    · obtain rfl := Option.some.inj h
      exact .inr rfl

theorem mark_hear_last {gap : Bool} {o : Option Seen} {e : DriverEvent} {x : Seen} (h : mark gap (hear o e) = some x) :
    (∃ y, o = some y ∧ y.last = x.last) ∨ x.last = e.eventSequence := by
  obtain ⟨y, hy, -, hl⟩ := mark_some h
  rcases hear_some hy with ho | hlast
  · exact .inl ⟨y, ho, hl⟩
  · exact .inr (hl ▸ hlast)

theorem Status.Changes.live {st st' : Status} {type : DriverEventType} (h : st.Changes type st') :
    type ≠ .contextCreated ∧ type ≠ .contextReleased ∧ type ≠ .rescanResponse := by
  cases h with
  | configured => decide
  | switched v => cases v <;> decide
  | generations => decide
  | telemetry => decide

namespace Track

theorem Step.born {t t' : Track} (h : Step t t') (hb : t.born = true) : t'.born = true := by
  cases h <;> first | exact hb | rfl

theorem Ok.queue_tail {t : Track} (h : t.Ok) : ∀ e ∈ t.queue.tail, e.type ≠ .contextCreated := by
  rcases h.births with ⟨-, hq⟩ | hlen
  · exact hq
  · have hlen' : t.queue.length ≤ 1 := by
      simp only [path, List.length_append] at hlen
      omega
    have hnil : t.queue.tail = [] := List.eq_nil_of_length_eq_zero (by simp; omega)
    simp [hnil]

/-- behind the first event of the path there is no creation -/
theorem Ok.tail_free {t : Track} (h : t.Ok) {e : DriverEvent} {q : List DriverEvent} (hq : t.queue = e :: q) :
    ∀ f ∈ q ++ t.stamped ++ t.unstamped.map Pending.event, f.type ≠ .contextCreated := by
  rcases h.births with ⟨hin, htail⟩ | hlen
  · intro f hf
    rw [List.append_assoc] at hf
    rcases List.mem_append.mp hf with hf | hf
    · exact htail f (by rw [hq]; exact hf)
    · exact hin f hf
  · intro f hf
    have hzero : (q ++ t.stamped ++ t.unstamped.map Pending.event).length = 0 := by
      simp only [path, hq, List.length_append, List.length_cons] at hlen ⊢
      omega
    rw [List.eq_nil_of_length_eq_zero hzero] at hf
    cases hf

/-- a call on a context that is introduced -/
theorem Ok.call {t : Track} (ht : t.Ok) {st : Status} (hst : t.status = some st) (hin : t.Introduced) {e : DriverEvent}
    (he : e.type ≠ .contextCreated) (he' : e.type ≠ .rescanResponse) (status : Option Status) :
    Ok { t with status := status, unstamped := t.unstamped ++ [⟨e, t.collections⟩] } where
  unborn := fun hb => by
    have := (ht.unborn hb).1
    rw [hst] at this
    cases this
  fresh := ht.fresh
  seen := ht.seen
  sorted := ht.sorted
  taken := by
    refine List.pairwise_append.mpr ⟨ht.taken, List.pairwise_singleton _ _, fun p hp q hq => ?_⟩
    rw [List.mem_singleton.mp hq]
    exact ht.known p hp
  known := fun p hp => by
    rcases List.mem_append.mp hp with hp | hp
    · exact ht.known p hp
    · rw [List.mem_singleton.mp hp]
  newest := ht.newest
  idle := ht.idle
  confirming := fun hr _ => ht.confirming hr (by simp [hst])
  births := by
    refine .inl ⟨fun f hf => ?_, ht.queue_tail⟩
    simp only [List.map_append, List.map_cons, List.map_nil, ← List.append_assoc] at hf
    rcases List.mem_append.mp hf with hf | hf
    · exact hin f hf
    · rw [List.mem_singleton.mp hf]
      exact he
  live := fun f hf => by
    simp only [path, List.map_append, List.map_cons, List.map_nil, ← List.append_assoc] at hf
    rcases List.mem_append.mp hf with hf | hf
    · exact ht.live f hf
    · rw [List.mem_singleton.mp hf]
      exact he'

theorem Ok.path_born {t : Track} (ht : t.Ok) (hpath : t.path ≠ []) : t.born = true := by
  cases hb : t.born with
  | true => rfl
  | false => exact absurd (ht.unborn hb).2.1 hpath

theorem Ok.stamp {t : Track} (ht : t.Ok) {u₁ u₂ : List Pending} {p : Pending} {e : DriverEvent}
    (hu : t.unstamped = u₁ ++ p :: u₂) (he : e.type = p.event.type) (hseq : e.eventSequence = t.nextSequence) :
    Ok { t with unstamped := u₁ ++ u₂, stamped := t.stamped ++ [e], nextSequence := t.nextSequence + 1 } where
  unborn := fun hb => absurd (ht.path_born (by simp [path, hu])) (by simp [show t.born = false from hb])
  fresh := fun f hf => by
    simp only [List.mem_append, List.mem_singleton] at hf
    rcases hf with (hf | rfl) | hf
    · exact Nat.lt_succ_of_lt (ht.fresh f (List.mem_append_left _ hf))
    · exact hseq ▸ Nat.lt_succ_self _
    · exact Nat.lt_succ_of_lt (ht.fresh f (List.mem_append_right _ hf))
  seen := fun x hx => Nat.lt_succ_of_lt (ht.seen x hx)
  sorted := by
    refine List.pairwise_append.mpr ⟨ht.sorted, List.pairwise_singleton _ _, fun f hf g hg => ?_⟩
    rw [List.mem_singleton.mp hg, hseq]
    exact ht.fresh f (List.mem_append_left _ hf)
  taken := (hu ▸ ht.taken).sublist ((List.sublist_cons_self p u₂).append_left u₁)
  known := fun q hq => ht.known q (by rw [hu]; exact ((List.sublist_cons_self p u₂).append_left u₁).subset hq)
  newest := ht.newest
  idle := ht.idle
  confirming := ht.confirming
  births := by
    rcases ht.births with ⟨hin, hq⟩ | hlen
    · refine .inl ⟨fun f hf => ?_, hq⟩
      simp only [Introduced, hu, List.map_append, List.map_cons, List.mem_append, List.mem_cons] at hin hf
      rcases hf with (hf | hf) | hf | hf
      · exact hin f (.inl hf)
      · rw [List.mem_singleton.mp (List.mem_cons.mpr hf), he]
        exact hin p.event (.inr (.inr (.inl rfl)))
      · exact hin f (.inr (.inl hf))
      · exact hin f (.inr (.inr (.inr hf)))
    · refine .inr ?_
      simp only [path, hu, List.length_append, List.length_map, List.length_cons, List.length_nil] at hlen ⊢
      omega
  live := fun f hf => by
    have hlive := ht.live
    simp only [path, hu, List.mem_append, List.map_append, List.map_cons, List.mem_cons] at hlive hf
    rcases hf with (hf | hf | hf) | hf | hf
    · exact hlive f (.inl (.inl hf))
    · exact hlive f (.inl (.inr hf))
    · rw [List.mem_singleton.mp (List.mem_cons.mpr hf), he]
      exact hlive p.event (.inr (.inr (.inl rfl)))
    · exact hlive f (.inr (.inl hf))
    · exact hlive f (.inr (.inr (.inr hf)))

theorem Ok.enqueue {t : Track} (ht : t.Ok) {s₁ s₂ : List DriverEvent} {e : DriverEvent}
    (hs : t.stamped = s₁ ++ e :: s₂) : Ok { t with stamped := s₁ ++ s₂, queue := t.queue ++ [e] } where
  unborn := fun hb => absurd (ht.path_born (by simp [path, hs])) (by simp [show t.born = false from hb])
  fresh := fun f hf => ht.fresh f (by
    simp only [hs, List.mem_append, List.mem_cons, List.not_mem_nil, or_false] at hf ⊢
    tauto)
  seen := ht.seen
  sorted := (hs ▸ ht.sorted).sublist ((List.sublist_cons_self e s₂).append_left s₁)
  taken := ht.taken
  known := ht.known
  newest := ht.newest
  idle := ht.idle
  confirming := ht.confirming
  births := by
    rcases ht.births with ⟨hin, hq⟩ | hlen
    · refine .inl ⟨fun f hf => hin f ?_, fun f hf => ?_⟩
      · simp only [hs, List.mem_append, List.mem_cons] at hf ⊢
        tauto
      · have hmem : f ∈ t.queue.tail ∨ f = e := by
          cases hqueue : t.queue with
          | nil => simp [hqueue] at hf
          | cons g q => simpa [hqueue] using hf
        rcases hmem with hf | rfl
        · exact hq f hf
        · exact hin f (by simp [hs])
    · refine .inr ?_
      simp only [path, hs, List.length_append, List.length_map, List.length_cons, List.length_nil] at hlen ⊢
      omega
  live := fun f hf => ht.live f (by
    simp only [path, hs, List.mem_append, List.mem_cons, List.not_mem_nil, or_false] at hf ⊢
    tauto)

theorem Ok.drain {t : Track} (ht : t.Ok) {e : DriverEvent} {q : List DriverEvent} (gap : Bool)
    (hidle : t.running = none) (hq : t.queue = e :: q) :
    Ok { t with queue := q, entry := mark gap (hear t.entry e) } where
  unborn := fun hb => absurd (ht.path_born (by simp [path, hq])) (by simp [show t.born = false from hb])
  fresh := fun f hf => ht.fresh f (by
    simp only [hq, List.mem_append, List.mem_cons] at hf ⊢
    tauto)
  seen := fun x hx => by
    rcases mark_hear_last hx with ⟨y, hy, hl⟩ | hl
    · exact hl ▸ ht.seen y hy
    · exact hl ▸ ht.fresh e (by simp [hq])
  sorted := ht.sorted
  taken := ht.taken
  known := ht.known
  newest := ht.newest
  idle := ht.idle
  confirming := fun hr => by simp [hidle] at hr
  births := by
    have hfree := ht.tail_free hq
    exact .inl ⟨fun f hf => hfree f (by simp only [List.mem_append] at hf ⊢; tauto),
      fun f hf => hfree f (by simp [List.mem_of_mem_tail hf])⟩
  live := fun f hf => ht.live f (by
    simp only [path, hq, List.cons_append, List.mem_cons]
    exact .inr hf)

/-- **The bookkeeping survives every step.** -/
theorem Step.ok {t t' : Track} (h : Step t t') (ht : t.Ok) : t'.Ok := by
  cases h with
  | create e hborn he =>
    obtain ⟨hst, hpath, hunsent, hentry⟩ := ht.unborn hborn
    simp only [path, List.append_eq_nil_iff, List.map_eq_nil_iff] at hpath
    obtain ⟨⟨hq, hs⟩, hu⟩ := hpath
    constructor <;> simp_all [path]
    exact ht.newest
  | publish st st' e hst hin hch => exact ht.call hst hin hch.live.1 hch.live.2.2 (some st')
  | release st e hst hin he => exact ht.call hst hin (by simp [he]) (by simp [he]) none
  | stamp u₁ u₂ p e hu he hseq hunsent horder => exact ht.stamp hu he hseq
  | enqueue s₁ s₂ e hs horder => exact ht.enqueue hs
  | drain e q gap hidle hq => exact ht.drain gap hidle hq
  | collect unsent hidle hr hall =>
    exact
      { ht with
        unborn := fun hb => by
          obtain ⟨hst, hpath, -, hentry⟩ := ht.unborn hb
          refine ⟨hst, hpath, ?_, hentry⟩
          refine List.eq_nil_iff_forall_not_mem.mpr fun r hmem => ?_
          obtain ⟨st, hsome, -⟩ := hr r hmem
          rw [hst] at hsome
          cases hsome
        known := fun p hp => (ht.known p hp).trans (Nat.le_succ _)
        newest := fun n hn => by
          obtain rfl := Option.some.inj hn
          exact Nat.lt_succ_self _
        idle := fun hn => by cases hn
        confirming := fun _ hst _ _ _ => hall hst }
  | replay n r e rest hrun hu he hen hseq =>
    have hacc : ∀ x, hear t.entry e = some x → x.last = t.nextSequence ∧ x.stale = false := by
      intro x hx
      unfold hear at hx
      split at hx
      · split_ifs at hx
        obtain rfl := Option.some.inj hx
        exact ⟨hseq, rfl⟩
      · rename_i y hy
        have := ht.seen y hy
        rw [if_neg (by omega), if_neg (by simp [he])] at hx
        obtain rfl := Option.some.inj hx
        exact ⟨hseq, by simp [he]⟩
    exact
      { ht with
        unborn := fun hb => by
          have := (ht.unborn hb).2.2.1
          rw [hu] at this
          cases this
        fresh := fun f hf => Nat.lt_succ_of_lt (ht.fresh f hf)
        seen := fun x hx => (hacc x hx).1 ▸ Nat.lt_succ_self _
        idle := fun hn => by
          rw [hrun] at hn
          cases hn
        confirming := fun _ _ x hx hs => by
          rw [(hacc x hx).2] at hs
          cases hs }
  | terminate n hrun hu =>
    exact
      { ht with
        unborn := fun hb => by
          obtain ⟨hst, hpath, hun, hentry⟩ := ht.unborn hb
          exact ⟨hst, hpath, hun, by simp [hentry]⟩
        fresh := fun f hf => Nat.lt_succ_of_lt (ht.fresh f hf)
        seen := fun x hx => by
          obtain ⟨y, hy, hxy⟩ := Option.bind_eq_some_iff.mp hx
          split_ifs at hxy
          obtain rfl := Option.some.inj hxy
          exact Nat.lt_succ_of_lt (ht.seen y hy)
        newest := fun n hn => by cases hn
        idle := fun _ => hu
        confirming := fun hr => by cases hr }
  | skip n gap hn hgap =>
    exact
      { ht with
        unborn := fun hb => by
          obtain ⟨hst, hpath, hun, hentry⟩ := ht.unborn hb
          exact ⟨hst, hpath, hun, by cases gap <;> simp [mark, hentry]⟩
        fresh := fun f hf => lt_of_lt_of_le (ht.fresh f hf) hn
        seen := fun x hx => by
          obtain ⟨y, hy, -, hl⟩ := mark_some hx
          exact hl ▸ lt_of_lt_of_le (ht.seen y hy) hn
        confirming := fun hr hst x hx hs => by
          cases gap with
          | false => exact ht.confirming hr hst x hx hs
          | true =>
            have hrun : t.running.isSome := hr
            rw [hgap rfl] at hrun
            cases hrun }

/-! ## What is due -/

/-- `e` is on its way and nothing that can arrive before it has a sequence to drop it by -/
def Due (t : Track) (e : DriverEvent) : Prop :=
  (∀ x, t.entry = some x → x.last < e.eventSequence) ∧
    ((e ∈ t.stamped ∧ ∀ f ∈ t.queue, f.eventSequence < e.eventSequence) ∨
      ∃ q₁ q₂, t.queue = q₁ ++ e :: q₂ ∧ ∀ f ∈ q₁, f.eventSequence < e.eventSequence)

theorem Due.mem {t : Track} {e : DriverEvent} (h : t.Due e) : e ∈ t.stamped ++ t.queue := by
  rcases h.2 with ⟨hs, -⟩ | ⟨q₁, q₂, hq, -⟩
  · exact List.mem_append_left _ hs
  · exact List.mem_append_right _ (by simp [hq])

/-- steps of the other end of the path leave what is due alone -/
theorem Due.stamp {t : Track} {e f : DriverEvent} (h : t.Due e) (u : List Pending) (n : ℕ) :
    Due { t with unstamped := u, stamped := t.stamped ++ [f], nextSequence := n } e :=
  ⟨h.1, h.2.imp_left fun ⟨hs, hq⟩ => ⟨List.mem_append_left _ hs, hq⟩⟩

theorem Due.enqueue {t : Track} (ht : t.Ok) {e f : DriverEvent} {s₁ s₂ : List DriverEvent} (h : t.Due e)
    (he : decisive e.type = true) (hs : t.stamped = s₁ ++ f :: s₂)
    (horder : ∀ e' ∈ t.stamped, decisive e'.type = true → f.eventSequence ≤ e'.eventSequence) :
    Due { t with stamped := s₁ ++ s₂, queue := t.queue ++ [f] } e := by
  refine ⟨h.1, ?_⟩
  rcases h.2 with ⟨hmem, hq⟩ | ⟨q₁, q₂, hqueue, hq₁⟩
  · have hle := horder e hmem he
    have hsorted := ht.sorted
    rw [hs, List.pairwise_append, List.pairwise_cons] at hsorted
    obtain ⟨-, ⟨hs₂, -⟩, hs₁⟩ := hsorted
    rw [hs, List.mem_append, List.mem_cons] at hmem
    rcases hmem with hmem | rfl | hmem
    · -- `e` was stamped before `f`, so `f` would be overtaking it
      have := hs₁ e hmem f List.mem_cons_self
      omega
    · exact .inr ⟨t.queue, [], rfl, hq⟩
    · refine .inl ⟨List.mem_append_right _ hmem, fun g hg => ?_⟩
      rcases List.mem_append.mp hg with hg | hg
      · exact hq g hg
      · rw [List.mem_singleton.mp hg]
        exact hs₂ e hmem
  · exact .inr ⟨q₁, q₂ ++ [f], by simp [hqueue], hq₁⟩

/-- the head of the queue is what is due, or something below it -/
theorem Due.drain {t : Track} {e f : DriverEvent} {q : List DriverEvent} (h : t.Due e) (hq : t.queue = f :: q)
    (gap : Bool) : f = e ∨ Due { t with queue := q, entry := mark gap (hear t.entry f) } e := by
  have hcase : f = e ∨ (f.eventSequence < e.eventSequence ∧ ((e ∈ t.stamped ∧ ∀ g ∈ q, g.eventSequence < e.eventSequence) ∨
      ∃ q₁ q₂, q = q₁ ++ e :: q₂ ∧ ∀ g ∈ q₁, g.eventSequence < e.eventSequence)) := by
    rcases h.2 with ⟨hmem, hlow⟩ | ⟨q₁, q₂, hqueue, hlow⟩
    · rw [hq] at hlow
      exact .inr ⟨hlow f List.mem_cons_self, .inl ⟨hmem, fun g hg => hlow g (List.mem_cons_of_mem _ hg)⟩⟩
    · rw [hq] at hqueue
      cases q₁ with
      | nil => exact .inl (List.cons.inj hqueue).1
      | cons g q₁ =>
        obtain ⟨rfl, hrest⟩ := List.cons.inj hqueue
        exact .inr ⟨hlow f List.mem_cons_self, .inr ⟨q₁, q₂, hrest, fun g hg => hlow g (List.mem_cons_of_mem _ hg)⟩⟩
  refine hcase.imp_right fun ⟨hf, hrest⟩ => ⟨fun x hx => ?_, hrest⟩
  rcases mark_hear_last hx with ⟨y, hy, hl⟩ | hl
  · exact hl ▸ h.1 y hy
  · exact hl ▸ hf

theorem Due.entry {t : Track} {e : DriverEvent} (h : t.Due e) {entry : Option Seen}
    (hentry : ∀ x, entry = some x → ∃ y, t.entry = some y ∧ y.last = x.last) (n : ℕ) (running : Option ℕ) :
    Due { t with running := running, nextSequence := n, entry := entry } e := by
  refine ⟨fun x hx => ?_, h.2⟩
  obtain ⟨y, hy, hl⟩ := hentry x hx
  exact hl ▸ h.1 y hy

/-! ## Released contexts -/

/-- a released context: its release is not stamped yet, or due, or the entry is gone for good -/
def Dead (t : Track) : Prop :=
  (∃ p ∈ t.unstamped, p.event.type = .contextReleased ∧ ∀ n, t.running = some n → t.unsent = [] ∨ n < p.collection) ∨
  (t.unsent = [] ∧ ∃ e, e.type = .contextReleased ∧ t.Due e) ∨
  (t.unsent = [] ∧ t.entry = none ∧ ∀ e ∈ t.path, e.type ≠ .contextCreated)

/-- a release that was due removes the entry -/
theorem hear_release {o : Option Seen} {e : DriverEvent} (he : e.type = .contextReleased)
    (hdue : ∀ x, o = some x → x.last < e.eventSequence) (gap : Bool) : mark gap (hear o e) = none := by
  have hnone : hear o e = none := by
    unfold hear
    split
    · simp [he, createsContext]
    · rename_i x
      have := hdue x rfl
      rw [if_neg (by omega), if_pos he]
  cases gap <;> simp [mark, hnone]

theorem Step.dead {t t' : Track} (h : Step t t') (ht : t.Ok) (hdead : t.status = none → t.born = true → t.Dead)
    (hnone : t'.status = none) (hborn : t'.born = true) : t'.Dead := by
  cases h with
  | create e hb he => cases hnone
  | publish st st' e hst hin hch => cases hnone
  | release st e hst hin he =>
    refine .inl ⟨⟨e, t.collections⟩, by simp, he, fun n hn => .inr (ht.newest n hn)⟩
  | stamp u₁ u₂ p e hu he hseq hunsent horder =>
    rcases hdead hnone hborn with ⟨p', hmem, htype, hrun⟩ | ⟨hun, f, hf, hdue⟩ | ⟨hun, hentry, hfree⟩
    · rw [hu, List.mem_append, List.mem_cons] at hmem
      by_cases hp : p' = p
      · -- the release itself is stamped: no replay event is in its way
        subst hp
        have hun : t.unsent = [] := by
          cases hrunning : t.running with
          | none => exact ht.idle hrunning
          | some n =>
            rcases hrun n hrunning with hempty | hlt
            · exact hempty
            · exact hunsent (by simp [he, htype, decisive]) n hrunning hlt
        refine .inr (.inl ⟨hun, e, he.trans htype, fun x hx => hseq ▸ ht.seen x hx, .inl ⟨by simp, fun g hg => ?_⟩⟩)
        exact hseq ▸ ht.fresh g (List.mem_append_right _ hg)
      · refine .inl ⟨p', ?_, htype, hrun⟩
        simp only [List.mem_append]
        tauto
    · exact .inr (.inl ⟨hun, f, hf, hdue.stamp _ _⟩)
    · refine .inr (.inr ⟨hun, hentry, fun g hg => ?_⟩)
      simp only [path, List.mem_append, List.map_append, List.mem_singleton] at hg
      have hp : p.event.type ≠ .contextCreated := hfree p.event (by simp [path, hu])
      rcases hg with (hg | hg | rfl) | hg
      · exact hfree g (by simp [path, hg])
      · exact hfree g (by simp [path, hg])
      · rw [he]; exact hp
      · refine hfree g ?_
        simp only [path, hu, List.mem_append, List.map_append, List.map_cons, List.mem_cons]
        tauto
  | enqueue s₁ s₂ e hs horder =>
    rcases hdead hnone hborn with hun | ⟨hun, f, hf, hdue⟩ | ⟨hun, hentry, hfree⟩
    · exact .inl hun
    · exact .inr (.inl ⟨hun, f, hf, hdue.enqueue ht (by simp [hf, decisive]) hs horder⟩)
    · refine .inr (.inr ⟨hun, hentry, fun g hg => hfree g ?_⟩)
      simp only [path, hs, List.mem_append, List.mem_cons, List.not_mem_nil, or_false] at hg ⊢
      tauto
  | drain e q gap hidle hq =>
    rcases hdead hnone hborn with hun | ⟨hun, f, hf, hdue⟩ | ⟨hun, hentry, hfree⟩
    · exact .inl hun
    · rcases hdue.drain hq gap with rfl | hdue'
      · exact .inr (.inr ⟨hun, hear_release hf hdue.1 gap, ht.tail_free hq⟩)
      · exact .inr (.inl ⟨hun, f, hf, hdue'⟩)
    · have hmem : e ∈ t.path := by simp [path, hq]
      have he : createsContext e.type = false := by
        have h₁ := hfree e hmem
        have h₂ := ht.live e hmem
        cases htype : e.type <;> simp_all [createsContext]
      refine .inr (.inr ⟨hun, by cases gap <;> simp [hear, mark, hentry, he], fun g hg => hfree g ?_⟩)
      simp only [path, hq, List.cons_append, List.mem_cons]
      exact .inr hg
  | collect unsent hidle hr hall =>
    have hempty : unsent = [] := by
      refine List.eq_nil_iff_forall_not_mem.mpr fun r hmem => ?_
      obtain ⟨st, hsome, -⟩ := hr r hmem
      rw [show t.status = none from hnone] at hsome
      cases hsome
    rcases hdead hnone hborn with ⟨p, hp, htype, -⟩ | ⟨-, f, hf, hdue⟩ | ⟨-, hentry, hfree⟩
    · exact .inl ⟨p, hp, htype, fun _ _ => .inl hempty⟩
    · exact .inr (.inl ⟨hempty, f, hf, hdue⟩)
    · exact .inr (.inr ⟨hempty, hentry, hfree⟩)
  | replay n r e rest hrun hu he hen hseq =>
    rcases hdead hnone hborn with ⟨p, hp, htype, hp'⟩ | ⟨hun, -⟩ | ⟨hun, -⟩
    · refine .inl ⟨p, hp, htype, fun m hm => .inr ?_⟩
      exact (hp' m hm).resolve_left (by simp [hu])
    · rw [hu] at hun; cases hun
    · rw [hu] at hun; cases hun
  | terminate n hrun hu =>
    rcases hdead hnone hborn with ⟨p, hp, htype, -⟩ | ⟨-, f, hf, hdue⟩ | ⟨-, hentry, hfree⟩
    · exact .inl ⟨p, hp, htype, fun m hm => by cases hm⟩
    · refine .inr (.inl ⟨hu, f, hf, hdue.entry (fun x hx => ?_) _ _⟩)
      obtain ⟨y, hy, hxy⟩ := Option.bind_eq_some_iff.mp hx
      split_ifs at hxy
      obtain rfl := Option.some.inj hxy
      exact ⟨y, hy, rfl⟩
    · exact .inr (.inr ⟨hu, by simp [hentry], hfree⟩)
  | skip n gap hn hgap =>
    rcases hdead hnone hborn with hun | ⟨hun, f, hf, hdue⟩ | ⟨hun, hentry, hfree⟩
    · exact .inl hun
    · refine .inr (.inl ⟨hun, f, hf, hdue.entry (fun x hx => ?_) _ _⟩)
      obtain ⟨y, hy, -, hl⟩ := mark_some hx
      exact ⟨y, hy, hl⟩
    · exact .inr (.inr ⟨hun, by cases gap <;> simp [mark, hentry], hfree⟩)

/-! ## Registered contexts -/

def stateOf (enabled : Bool) : ContextState := if enabled then .active else .inactive

/-- the last enable event is due, and it is the last word on the state -/
def Underway (t : Track) (st : Status) : Prop :=
  ∃ e, e.type = switchType st.enabled ∧ t.Due e ∧
    ∀ f ∈ t.stamped ++ t.queue, setsState f.type = true → f.eventSequence ≤ e.eventSequence

/-- the registry has the right state, and whatever else is on its way to set it will be dropped -/
def Settled (t : Track) (st : Status) : Prop :=
  ∃ x, t.entry = some x ∧ x.state = stateOf st.enabled ∧
    ∀ f ∈ t.stamped ++ t.queue, setsState f.type = true → f.eventSequence ≤ x.last

/-- where the enable state is: in a call that is not stamped yet, or underway, or settled -/
def Agree (t : Track) (st : Status) : Prop :=
  (∃ u₁ p u₂, t.unstamped = u₁ ++ p :: u₂ ∧ p.event.type = switchType st.enabled ∧
    (∀ q ∈ u₂, setsState q.event.type = false) ∧
    ∀ r ∈ t.unsent, r.enabled = st.enabled ∨ ∀ n, t.running = some n → n < p.collection) ∨
  ((∀ p ∈ t.unstamped, setsState p.event.type = false) ∧ (∀ r ∈ t.unsent, r.enabled = st.enabled) ∧
    (t.Underway st ∨ t.Settled st))

/-- a registered context -/
structure Alive (t : Track) (st : Status) : Prop where
  present : t.entry.isSome ∨ ∃ e ∈ t.path, e.type = .contextCreated
  unreleased : ∀ e ∈ t.path, e.type ≠ .contextReleased
  agree : st.switched = true → st.reconfigured = false → t.Agree st

theorem decisive_switchType (v : Bool) : decisive (switchType v) = true := by cases v <;> rfl

theorem stateAfter_switchType {e : DriverEvent} {v : Bool} (h : e.type = switchType v) (s : ContextState) :
    stateAfter s e = stateOf v := by
  cases v <;> simp [stateAfter, h, switchType, stateOf]

theorem stateAfter_other {e : DriverEvent} (h : setsState e.type = false) (h' : e.type ≠ .rescanResponse)
    (s : ContextState) : stateAfter s e = s := by
  cases ht : e.type <;> simp_all [stateAfter, setsState]

theorem switchType_ne (v : Bool) : switchType v ≠ .contextCreated ∧ switchType v ≠ .contextReleased := by
  cases v <;> decide

/-- the head of the queue finds an entry, unless it is the creation -/
theorem Alive.head {t : Track} (ht : t.Ok) {st : Status} (h : t.Alive st) {e : DriverEvent} {q : List DriverEvent}
    (hq : t.queue = e :: q) (he : e.type ≠ .contextCreated) : ∃ x, t.entry = some x := by
  rcases h.present with hsome | ⟨f, hf, hcreated⟩
  · exact Option.isSome_iff_exists.mp hsome
  · simp only [path, hq, List.cons_append, List.mem_cons] at hf
    rcases hf with rfl | hf
    · exact absurd hcreated he
    · exact absurd hcreated (ht.tail_free hq f hf)

/-- two elements of one list: the same place, or one before the other -/
theorem split_cases {β : Type} {u₁ u₂ v₁ v₂ : List β} {p q : β} (h : u₁ ++ p :: u₂ = v₁ ++ q :: v₂) :
    (u₁ = v₁ ∧ p = q ∧ u₂ = v₂) ∨ (∃ m, v₁ = u₁ ++ p :: m ∧ u₂ = m ++ q :: v₂) ∨
      (∃ m, u₁ = v₁ ++ q :: m ∧ v₂ = m ++ p :: u₂) := by
  rcases List.append_eq_append_iff.mp h with ⟨m, hm, hm'⟩ | ⟨m, hm, hm'⟩
  · cases m with
    | nil =>
      obtain ⟨hpq, hrest⟩ := List.cons.inj hm'
      exact .inl ⟨by simp [hm], hpq, hrest⟩
    | cons x m =>
      obtain ⟨rfl, hrest⟩ := List.cons.inj hm'
      exact .inr (.inl ⟨m, hm, hrest⟩)
  · cases m with
    | nil =>
      obtain ⟨hpq, hrest⟩ := List.cons.inj hm'
      exact .inl ⟨by simp [hm], hpq.symm, hrest.symm⟩
    | cons x m =>
      obtain ⟨rfl, hrest⟩ := List.cons.inj hm'
      exact .inr (.inr ⟨m, hm, hrest⟩)

theorem Agree.stamp {t : Track} (ht : t.Ok) {st : Status} (h : t.Agree st) {u₁ u₂ : List Pending} {p : Pending}
    {e : DriverEvent} (hu : t.unstamped = u₁ ++ p :: u₂) (he : e.type = p.event.type)
    (hseq : e.eventSequence = t.nextSequence)
    (hunsent : decisive e.type = true → ∀ n, t.running = some n → n < p.collection → t.unsent = [])
    (horder : ∀ v, e.type = switchType v → ∀ p' ∈ u₁, setsState p'.event.type = false) :
    Agree { t with unstamped := u₁ ++ u₂, stamped := t.stamped ++ [e], nextSequence := t.nextSequence + 1 } st := by
  rcases h with ⟨v₁, p', v₂, hv, htype, hlast, hr⟩ | ⟨hnone, hr, hfate⟩
  · rw [hu] at hv
    rcases split_cases hv with ⟨rfl, rfl, rfl⟩ | ⟨m, hm, hm'⟩ | ⟨m, hm, hm'⟩
    · -- the call that is stamped is the last one that sets the state
      have hsw : e.type = switchType st.enabled := he.trans htype
      refine .inr ⟨fun q hq => ?_, fun r hrm => ?_, .inl ⟨e, hsw, ⟨?_, .inl ⟨by simp, ?_⟩⟩, ?_⟩⟩
      · rcases List.mem_append.mp hq with hq | hq
        · exact horder _ hsw q hq
        · exact hlast q hq
      · rcases hr r hrm with hok | hlt
        · exact hok
        · cases hrun : t.running with
          | none => rw [ht.idle hrun] at hrm; cases hrm
          | some n =>
            rw [hunsent (hsw ▸ decisive_switchType _) n hrun (hlt n hrun)] at hrm
            cases hrm
      · exact fun x hx => hseq ▸ ht.seen x hx
      · exact fun g hg => hseq ▸ ht.fresh g (List.mem_append_right _ hg)
      · intro g hg _
        simp only [List.mem_append, List.mem_singleton] at hg
        rcases hg with (hg | rfl) | hg
        · exact (hseq ▸ ht.fresh g (List.mem_append_left _ hg)).le
        · exact le_rfl
        · exact (hseq ▸ ht.fresh g (List.mem_append_right _ hg)).le
    · exact .inl ⟨u₁ ++ m, p', v₂, by simp [hm'], htype, hlast, hr⟩
    · refine .inl ⟨v₁, p', m ++ u₂, by simp [hm], htype, fun x hx => hlast x ?_, hr⟩
      rw [hm']
      exact ((List.sublist_cons_self p u₂).append_left m).subset hx
  · have hp : setsState p.event.type = false := hnone p (by simp [hu])
    have hset : ∀ f ∈ t.stamped ++ [e] ++ t.queue, setsState f.type = true → f ∈ t.stamped ++ t.queue := by
      intro f hf hset
      simp only [List.mem_append, List.mem_singleton] at hf ⊢
      rcases hf with (hf | rfl) | hf
      · exact .inl hf
      · rw [he, hp] at hset; cases hset
      · exact .inr hf
    refine .inr ⟨fun q hq => hnone q ?_, hr, ?_⟩
    · rw [hu]
      exact ((List.sublist_cons_self p u₂).append_left u₁).subset hq
    · rcases hfate with ⟨f, hf, hdue, hmax⟩ | ⟨x, hx, hstate, hmax⟩
      · exact .inl ⟨f, hf, hdue.stamp _ _, fun g hg hs => hmax g (hset g hg hs) hs⟩
      · exact .inr ⟨x, hx, hstate, fun g hg hs => hmax g (hset g hg hs) hs⟩

theorem Agree.drain {t : Track} (ht : t.Ok) {st : Status} (ha : t.Alive st) (h : t.Agree st) {e : DriverEvent}
    {q : List DriverEvent} (gap : Bool) (hq : t.queue = e :: q) :
    Agree { t with queue := q, entry := mark gap (hear t.entry e) } st := by
  have hsub : ∀ f ∈ t.stamped ++ q, f ∈ t.stamped ++ t.queue := fun f hf => by
    simp only [hq, List.mem_append, List.mem_cons] at hf ⊢
    tauto
  have hpath : e ∈ t.path := by simp [path, hq]
  rcases h with hcall | ⟨hnone, hr, ⟨f, hf, hdue, hmax⟩ | ⟨x, hx, hstate, hmax⟩⟩
  · exact .inl hcall
  · refine .inr ⟨hnone, hr, ?_⟩
    rcases hdue.drain hq gap with rfl | hdue'
    · -- the last word arrives, and finds the entry below it
      obtain ⟨x, hx⟩ := ha.head ht hq (hf ▸ (switchType_ne _).1)
      have hlast := hdue.1 x hx
      refine .inr ⟨⟨stateOf st.enabled, e.eventSequence, (x.stale && e.type != .rescanResponse) || gap⟩, ?_, rfl,
        fun g hg hs => hmax g (hsub g hg) hs⟩
      simp only [hear, hx, if_neg (show ¬ e.eventSequence ≤ x.last by omega),
        if_neg (hf ▸ (switchType_ne _).2 : ¬ e.type = .contextReleased), stateAfter_switchType hf, mark]
      cases gap <;> simp
    · exact .inl ⟨f, hf, hdue', fun g hg hs => hmax g (hsub g hg) hs⟩
  · refine .inr ⟨hnone, hr, .inr ?_⟩
    by_cases hle : e.eventSequence ≤ x.last
    · refine ⟨{ x with stale := x.stale || gap }, ?_, hstate, fun g hg hs => hmax g (hsub g hg) hs⟩
      simp only [hear, hx, if_pos hle, mark]
      cases gap <;> simp
    · -- it is news, so it does not set the state
      have hset : setsState e.type = false := by
        cases hs : setsState e.type with
        | false => rfl
        | true => exact absurd (hmax e (by simp [hq]) hs) hle
      refine ⟨⟨x.state, e.eventSequence, (x.stale && e.type != .rescanResponse) || gap⟩, ?_, hstate,
        fun g hg hs => (hmax g (hsub g hg) hs).trans (Nat.le_of_lt (Nat.lt_of_not_le hle))⟩
      simp only [hear, hx, if_neg hle, if_neg (ha.unreleased e hpath), stateAfter_other hset (ht.live e hpath), mark]
      cases gap <;> simp

/-- an update of the entry that keeps its state and its last sequence -/
theorem Agree.entry {t : Track} {st : Status} (h : t.Agree st) {entry : Option Seen} {running : Option ℕ} (n : ℕ)
    (hto : ∀ x, t.entry = some x → ∃ y, entry = some y ∧ y.state = x.state ∧ y.last = x.last)
    (hfrom : ∀ x, entry = some x → ∃ y, t.entry = some y ∧ y.last = x.last)
    (hrun : ∀ m, running = some m → t.running = some m) :
    Agree { t with running := running, nextSequence := n, entry := entry } st := by
  rcases h with ⟨u₁, p, u₂, hu, htype, hlast, hr⟩ | ⟨hnone, hr, ⟨f, hf, hdue, hmax⟩ | ⟨x, hx, hstate, hmax⟩⟩
  · exact .inl ⟨u₁, p, u₂, hu, htype, hlast, fun r hrm => (hr r hrm).imp_right fun hlt m hm => hlt m (hrun m hm)⟩
  · exact .inr ⟨hnone, hr, .inl ⟨f, hf, hdue.entry hfrom n running, hmax⟩⟩
  · obtain ⟨y, hy, hs, hl⟩ := hto x hx
    exact .inr ⟨hnone, hr, .inr ⟨y, hy, hs.trans hstate, fun g hg hset => hl ▸ hmax g hg hset⟩⟩

theorem Agree.publish {t : Track} (ht : t.Ok) {st st' : Status} {e : DriverEvent} (hch : st.Changes e.type st')
    (h : st.switched = true → st.reconfigured = false → t.Agree st) (hsw : st'.switched = true)
    (hre : st'.reconfigured = false) :
    Agree { t with status := some st', unstamped := t.unstamped ++ [⟨e, t.collections⟩] } st' := by
  -- a call that does not set the state goes behind whatever decides it
  have hother : setsState e.type = false → t.Agree st' →
      Agree { t with status := some st', unstamped := t.unstamped ++ [⟨e, t.collections⟩] } st' := by
    rintro hset (⟨u₁, p, u₂, hu, htype, hlast, hr⟩ | ⟨hnone, hr, hfate⟩)
    · refine .inl ⟨u₁, p, u₂ ++ [⟨e, t.collections⟩], by simp [hu], htype, fun q hq => ?_, hr⟩
      rcases List.mem_append.mp hq with hq | hq
      · exact hlast q hq
      · rw [List.mem_singleton.mp hq]; exact hset
    · refine .inr ⟨fun q hq => ?_, hr, hfate⟩
      rcases List.mem_append.mp hq with hq | hq
      · exact hnone q hq
      · rw [List.mem_singleton.mp hq]; exact hset
  generalize htype : e.type = type at hch
  cases hch with
  | configured => exact absurd (hsw.symm.trans hre) (by decide)
  | switched v =>
    exact .inl ⟨t.unstamped, ⟨e, t.collections⟩, [], rfl, htype, by simp, fun _ _ => .inr fun n hn => ht.newest n hn⟩
  | generations => exact hother (by simp [htype, setsState]) (h hsw hre)
  | telemetry => exact hother (by simp [htype, setsState]) (h hsw hre)

theorem Agree.replay {t : Track} (ht : t.Ok) {st : Status} (h : t.Agree st) {r e : DriverEvent}
    {rest : List DriverEvent} (hu : t.unsent = r :: rest) (he : e.type = .rescanResponse)
    (hen : e.enabled = r.enabled) (hseq : e.eventSequence = t.nextSequence) :
    Agree { t with unsent := rest, entry := hear t.entry e, nextSequence := t.nextSequence + 1 } st := by
  rcases h with ⟨u₁, p, u₂, hus, htype, hlast, hr⟩ | ⟨hnone, hr, -⟩
  · exact .inl ⟨u₁, p, u₂, hus, htype, hlast, fun r' hr' => hr r' (by rw [hu]; exact List.mem_cons_of_mem _ hr')⟩
  · have hstate : ∀ s, stateAfter s e = stateOf st.enabled := fun s => by
      simp only [stateAfter, he, stateOf, hen, hr r (by simp [hu])]
    refine .inr ⟨hnone, fun r' hr' => hr r' (by rw [hu]; exact List.mem_cons_of_mem _ hr'), .inr ?_⟩
    cases hentry : t.entry with
    | none =>
      refine ⟨⟨stateOf st.enabled, e.eventSequence, false⟩, by simp [hear, he, createsContext, hstate], rfl,
        fun f hf _ => hseq ▸ (ht.fresh f hf).le⟩
    | some x =>
      have hnew : ¬ e.eventSequence ≤ x.last := by
        have := ht.seen x hentry
        omega
      refine ⟨⟨stateOf st.enabled, e.eventSequence, x.stale && e.type != .rescanResponse⟩, ?_, rfl,
        fun f hf _ => hseq ▸ (ht.fresh f hf).le⟩
      simp only [hear, if_neg hnew, if_neg (by simp [he] : ¬ e.type = .contextReleased), hstate]

/-- **A registered context stays known, or about to be, with its enable state underway or settled.** -/
theorem Step.alive {t t' : Track} (h : Step t t') (ht : t.Ok) (halive : ∀ st, t.status = some st → t.Alive st)
    {st' : Status} (hst' : t'.status = some st') : t'.Alive st' := by
  cases h with
  | create e hborn he =>
    obtain ⟨-, hpath, -, -⟩ := ht.unborn hborn
    simp only [path, List.append_eq_nil_iff, List.map_eq_nil_iff] at hpath
    obtain ⟨⟨hq, hs⟩, hu⟩ := hpath
    obtain rfl := Option.some.inj hst'
    exact ⟨.inr ⟨e, by simp [path], he⟩, by simp [path, hq, hs, hu, he], fun hsw => by cases hsw⟩
  | publish st st'' e hst hin hch =>
    obtain rfl := Option.some.inj hst'
    have ha := halive st hst
    have hgrow : ∀ f, f ∈ t.path ∨ f = e ↔
        f ∈ path { t with status := some st'', unstamped := t.unstamped ++ [⟨e, t.collections⟩] } := fun f => by
      simp only [path, List.map_append, List.map_cons, List.map_nil, List.mem_append, List.mem_singleton]
      tauto
    refine ⟨ha.present.imp_right fun ⟨f, hf, hc⟩ => ⟨f, (hgrow f).mp (.inl hf), hc⟩, fun f hf => ?_,
      Agree.publish ht hch ha.agree⟩
    rcases (hgrow f).mpr hf with hf | rfl
    · exact ha.unreleased f hf
    · exact hch.live.2.1
  | release st e hst hin he => cases hst'
  | stamp u₁ u₂ p e hu he hseq hunsent horder =>
    have ha := halive st' hst'
    have hmem : ∀ f ∈ path { t with unstamped := u₁ ++ u₂, stamped := t.stamped ++ [e], nextSequence := t.nextSequence + 1 },
        f ∈ t.path ∨ f = e := fun f hf => by
      simp only [path, hu, List.mem_append, List.map_append, List.map_cons, List.mem_cons, List.not_mem_nil,
        or_false] at hf ⊢
      tauto
    constructor
    · rcases ha.present with hsome | ⟨f, hf, hc⟩
      · exact .inl hsome
      · by_cases hp : f = p.event
        · exact .inr ⟨e, by simp [path], he.trans (hp ▸ hc)⟩
        · refine .inr ⟨f, ?_, hc⟩
          simp only [path, hu, List.mem_append, List.map_append, List.map_cons, List.mem_cons] at hf ⊢
          tauto
    · intro f hf
      rcases hmem f hf with hf | rfl
      · exact ha.unreleased f hf
      · rw [he]
        exact ha.unreleased p.event (by simp [path, hu])
    · exact fun hsw hre => (ha.agree hsw hre).stamp ht hu he hseq hunsent horder
  | enqueue s₁ s₂ e hs horder =>
    have ha := halive st' hst'
    have hmem : ∀ f, f ∈ path { t with stamped := s₁ ++ s₂, queue := t.queue ++ [e] } ↔ f ∈ t.path := fun f => by
      simp only [path, hs, List.mem_append, List.mem_cons, List.not_mem_nil, or_false]
      tauto
    have hmem' : ∀ f, f ∈ s₁ ++ s₂ ++ (t.queue ++ [e]) → f ∈ t.stamped ++ t.queue := fun f hf => by
      simp only [hs, List.mem_append, List.mem_cons, List.not_mem_nil, or_false] at hf ⊢
      tauto
    refine ⟨ha.present.imp_right fun ⟨f, hf, hc⟩ => ⟨f, (hmem f).mpr hf, hc⟩,
      fun f hf => ha.unreleased f ((hmem f).mp hf), fun hsw hre => ?_⟩
    rcases ha.agree hsw hre with hcall | ⟨hnone, hr, ⟨f, hf, hdue, hmax⟩ | ⟨x, hx, hstate, hmax⟩⟩
    · exact .inl hcall
    · exact .inr ⟨hnone, hr, .inl ⟨f, hf, hdue.enqueue ht (hf ▸ decisive_switchType _) hs horder,
        fun g hg hset => hmax g (hmem' g hg) hset⟩⟩
    · exact .inr ⟨hnone, hr, .inr ⟨x, hx, hstate, fun g hg hset => hmax g (hmem' g hg) hset⟩⟩
  | drain e q gap hidle hq =>
    have ha := halive st' hst'
    have hpath : ∀ f ∈ path { t with queue := q, entry := mark gap (hear t.entry e) }, f ∈ t.path := fun f hf => by
      simp only [path, hq, List.cons_append, List.mem_cons]
      exact .inr hf
    refine ⟨.inl ?_, fun f hf => ha.unreleased f (hpath f hf), fun hsw hre => (ha.agree hsw hre).drain ht ha gap hq⟩
    have hsome : (hear t.entry e).isSome := by
      cases hentry : t.entry with
      | some x =>
        simp only [hear, if_neg (ha.unreleased e (by simp [path, hq]))]
        split_ifs <;> rfl
      | none =>
        have he : e.type = .contextCreated := by
          by_contra hne
          obtain ⟨x, hx⟩ := ha.head ht hq hne
          rw [hentry] at hx
          cases hx
        simp [hear, he, createsContext]
    cases gap <;> simp [mark, hsome]
  | collect unsent hidle hr hall =>
    have ha := halive st' hst'
    have hright : ∀ r ∈ unsent, r.enabled = st'.enabled := fun r hrm => by
      obtain ⟨st, hst, he⟩ := hr r hrm
      obtain rfl := Option.some.inj (hst.symm.trans hst')
      exact he
    refine ⟨ha.present, ha.unreleased, fun hsw hre => ?_⟩
    rcases ha.agree hsw hre with ⟨u₁, p, u₂, hu, htype, hlast, -⟩ | ⟨hnone, -, hfate⟩
    · exact .inl ⟨u₁, p, u₂, hu, htype, hlast, fun r hrm => .inl (hright r hrm)⟩
    · exact .inr ⟨hnone, hright, hfate⟩
  | replay n r e rest hrun hu he hen hseq =>
    have ha := halive st' hst'
    refine ⟨.inl ?_, ha.unreleased, fun hsw hre => (ha.agree hsw hre).replay ht hu he hen hseq⟩
    unfold hear
    split
    · simp [he, createsContext]
    · simp only [if_neg (by simp [he] : ¬ e.type = .contextReleased)]
      split_ifs <;> rfl
  | terminate n hrun hu =>
    have ha := halive st' hst'
    have hkeep : t.entry.bind (fun x => if x.stale then none else some x) = t.entry := by
      cases hentry : t.entry with
      | none => rfl
      | some x =>
        have hfalse : x.stale = false := by
          cases hs : x.stale with
          | false => rfl
          | true => exact absurd hu (ht.confirming (by simp [hrun]) (by simp [show t.status = some st' from hst']) x hentry hs)
        simp [hfalse]
    refine ⟨?_, ha.unreleased, fun hsw hre => ?_⟩
    · rcases ha.present with hsome | hcreated
      · exact .inl (by simpa only [hkeep] using hsome)
      · exact .inr hcreated
    · exact (ha.agree hsw hre).entry _ (fun x hx => ⟨x, hkeep.trans hx, rfl, rfl⟩)
        (fun x hx => ⟨x, hkeep.symm.trans hx, rfl⟩) (fun m hm => by cases hm)
  | skip n gap hn hgap =>
    have ha := halive st' hst'
    refine ⟨ha.present.imp_left fun hsome => ?_, ha.unreleased, fun hsw hre => ?_⟩
    · cases gap <;> simpa [mark] using hsome
    · refine (ha.agree hsw hre).entry _ (fun x hx => ?_) (fun x hx => ?_) (fun m hm => hm)
      · cases gap with
        | false => exact ⟨x, hx, rfl, rfl⟩
        | true => exact ⟨{ x with stale := true }, by simp [mark, hx], rfl, rfl⟩
      · obtain ⟨y, hy, -, hl⟩ := mark_some hx
        exact ⟨y, hy, hl⟩

/-! ## Whole runs -/

/-- the invariant of one context's path -/
structure Inv (t : Track) : Prop where
  ok : t.Ok
  dead : t.status = none → t.born = true → t.Dead
  alive : ∀ st, t.status = some st → t.Alive st

theorem Step.inv {t t' : Track} (h : Step t t') (ht : t.Inv) : t'.Inv :=
  ⟨h.ok ht.ok, h.dead ht.ok ht.dead, fun _ hst => h.alive ht.ok ht.alive hst⟩

/-- **On an empty path the entry tells the truth**: there is one exactly for a registered context, with its enable
state if that was published and the context was not configured since. -/
theorem Inv.settled {t : Track} (h : t.Inv) (hpath : t.path = []) :
    (t.entry.isSome ↔ t.status.isSome) ∧
      ∀ st, t.status = some st → st.switched = true → st.reconfigured = false →
        ∃ x, t.entry = some x ∧ x.state = stateOf st.enabled := by
  have hempty := hpath
  simp only [path, List.append_eq_nil_iff, List.map_eq_nil_iff] at hempty
  obtain ⟨⟨hq, hs⟩, hu⟩ := hempty
  refine ⟨?_, fun st hst hsw hre => ?_⟩
  · cases hst : t.status with
    | some st =>
      rcases (h.alive st hst).present with hsome | ⟨e, he, -⟩
      · simp [hsome]
      · rw [hpath] at he; cases he
    | none =>
      have hnone : t.entry = none := by
        cases hb : t.born with
        | false => exact (h.ok.unborn hb).2.2.2
        | true =>
          rcases h.dead hst hb with ⟨p, hp, -⟩ | ⟨-, e, -, hdue⟩ | ⟨-, hentry, -⟩
          · rw [hu] at hp; cases hp
          · have := hdue.mem
            rw [hs, hq] at this
            cases this
          · exact hentry
      simp [hnone]
  · rcases (h.alive st hst).agree hsw hre with ⟨u₁, p, u₂, hus, -⟩ | ⟨-, -, ⟨e, -, hdue, -⟩ | ⟨x, hx, hstate, -⟩⟩
    · simp [hu] at hus
    · have := hdue.mem
      rw [hs, hq] at this
      cases this
    · exact ⟨x, hx, hstate⟩

end Track

end ViperFx.Channel
