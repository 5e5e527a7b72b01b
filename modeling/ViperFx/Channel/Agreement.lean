/-
Agreement of the registry and the publisher on a lossless connection.

On one connection without drops, the registry will be what all the frames sent so far make of it once they are read, so
what the daemon does in between does not matter. Seen from one context, every step of the link is then one step of its
track, or none; the invariant of the track carries over, and on an empty path it says that registry and publisher agree.

Results:
  · deliver_live, deliver_replayed, deliver_end : what one event does to what the registry has seen of a context
  · step_track                        : every step of the link is a step of every context's track
  · run_track                         : the track invariant, over every lossless and orderly run
  · registry_agrees                   : registry and publisher agree once everything is delivered
-/
import ViperFx.Channel.Replay
import ViperFx.Channel.Track

namespace ViperFx.Channel

open ViperFx.Core ViperFx.Protocol ViperFx.Daemon

/-! ## What the registry has seen of a context -/

def seenOf (x : ContextEntry) : Seen := ⟨x.state, x.lastSequence, x.stale⟩

def seen (r : Registry) (k : ContextKey) : Option Seen := (r.contexts.get? k).map seenOf

/-- the entry an accepted event leaves -/
theorem seenOf_refresh (r : Registry) (e : DriverEvent) :
    seenOf (r.refresh e) = match seen r (keyOf e) with
      | none => ⟨stateAfter .created e, e.eventSequence, false⟩
      | some x => ⟨stateAfter x.state e, e.eventSequence, x.stale && e.type != .rescanResponse⟩ := by
  unfold Registry.refresh seen seenOf
  cases hg : r.contexts.get? (keyOf e) with
  | none => cases ht : e.type <;> simp [transition, applyObservations, stateAfter, ht]
  | some entry => cases ht : e.type <;> simp [transition, applyObservations, stateAfter, ht]

theorem seen_absorb (r : Registry) (e : DriverEvent) (k : ContextKey)
    (hknown : seen r (keyOf e) = none → createsContext e.type = true)
    (hnews : ∀ x, seen r (keyOf e) = some x → x.last < e.eventSequence) :
    seen (r.absorb e).1 k = if keyOf e = k then hear (seen r k) e else seen r k := by
  unfold seen
  rw [Registry.absorb_get?]
  by_cases hk : keyOf e = k
  · subst hk
    rw [if_pos rfl, if_pos rfl]
    have href := seenOf_refresh r e
    change Option.map seenOf _ = hear (seen r (keyOf e)) e
    cases hs : seen r (keyOf e) with
    | none =>
      have hc := hknown hs
      have hrel : e.type ≠ .contextReleased := by
        intro h
        rw [h] at hc
        cases hc
      rw [hs] at href
      simp [hear, hc, hrel, href]
    | some x =>
      have hlt := hnews x hs
      rw [hs] at href
      by_cases hrel : e.type = .contextReleased
      · simp [hear, hrel, show ¬ e.eventSequence ≤ x.last by omega]
      · simp [hear, hrel, show ¬ e.eventSequence ≤ x.last by omega, href]
  · rw [if_neg hk, if_neg hk]

theorem seen_none_iff (r : Registry) (k : ContextKey) : seen r k = none ↔ r.contexts.get? k = none := by
  simp [seen]

theorem seen_markStaleAfter {r : Registry} (h : r.Inv) (k : ContextKey) :
    seen (r.markStaleAfter r.highestSequence) k = mark true (seen r k) := by
  unfold seen Registry.markStaleAfter
  simp only [Table.get?_retain]
  cases hg : r.contexts.get? k with
  | none => rfl
  | some entry => simp [h k entry hg, mark, seenOf]

/-- a live event reaches its own entry, and a gap marks all of them -/
theorem deliver_live {r : Registry} (h : r.Inv) {e : DriverEvent} (hlife : isLifecycleEvent e.type = true)
    (hlive : e.type ≠ .rescanResponse) (hseq : 0 < e.eventSequence) :
    ∃ gap, ∀ k, seen (r.deliver e) k = mark gap (if keyOf e = k then hear (seen r k) e else seen r k) := by
  obtain ⟨hl, -⟩ | ⟨ht, -⟩ | ⟨-, -, hg, hc, hb⟩ | ⟨-, -, ⟨entry, hg, -, hle⟩, hb⟩ | ⟨-, -, hknown, hnews, hb⟩ :=
    Registry.apply_cases r e
  · rw [hlife] at hl; cases hl
  · simp [isTerminator, hlive] at ht
  · refine ⟨false, fun k => ?_⟩
    have hnone := (seen_none_iff r (keyOf e)).mpr hg
    rw [show r.deliver e = r by rw [Registry.deliver, hb]]
    split_ifs with hk
    · subst hk
      simp [mark, hear, hnone, hc]
    · rfl
  · refine ⟨false, fun k => ?_⟩
    have hsome : seen r (keyOf e) = some (seenOf entry) := by simp [seen, hg]
    rw [show r.deliver e = r by rw [Registry.deliver, hb]]
    split_ifs with hk
    · subst hk
      simp [mark, hear, hsome, seenOf, hle]
    · rfl
  · have habs : ∀ k, seen (r.absorb e).1 k = if keyOf e = k then hear (seen r k) e else seen r k := by
      refine fun k => seen_absorb r e k (fun hs => hknown ((seen_none_iff _ _).mp hs)) (fun x hx => ?_)
      obtain ⟨entry, hg, rfl⟩ := Option.map_eq_some_iff.mp hx
      exact (hnews entry hg).resolve_left (by omega)
    rcases ha : r.absorb e with ⟨r', res⟩
    rw [ha] at habs
    cases hgap : r.isGap e with
    | true =>
      refine ⟨true, fun k => ?_⟩
      obtain rfl : res = .appliedWithGap := by
        have : (r.absorb e).2 = .appliedWithGap := by simp [Registry.absorb, hgap]
        rwa [ha] at this
      have hinv : r'.Inv := by
        have := Registry.absorb_inv h e
        rwa [ha] at this
      rw [show r.deliver e = r'.markStaleAfter r'.highestSequence by rw [Registry.deliver, hb, ha],
        seen_markStaleAfter hinv, habs]
    | false =>
      refine ⟨false, fun k => ?_⟩
      obtain rfl : res = .applied := by
        have : (r.absorb e).2 = .applied := by simp [Registry.absorb, hgap]
        rwa [ha] at this
      rw [show r.deliver e = r' by rw [Registry.deliver, hb, ha], habs]
      rfl

/-- a replayed event reaches its own entry and is no gap -/
theorem deliver_replayed {r : Registry} {e : DriverEvent} (htype : e.type = .rescanResponse)
    (hid : e.contextInstanceId ≠ 0) (hseq : 0 < e.eventSequence) (k : ContextKey) :
    seen (r.deliver e) k = if keyOf e = k then hear (seen r k) e else seen r k := by
  obtain ⟨hadm, hb⟩ | ⟨hadm, hb⟩ := Registry.deliver_replay (r := r) htype hid hseq
  · rw [hb]
    refine seen_absorb r e k (fun _ => by simp [htype, createsContext]) (fun x hx => ?_)
    obtain ⟨entry, hg, rfl⟩ := Option.map_eq_some_iff.mp hx
    exact hadm entry hg
  · rw [hb]
    split_ifs with hk
    · subst hk
      unfold Registry.Admits at hadm
      push Not at hadm
      obtain ⟨entry, hg, hle⟩ := hadm
      simp [hear, seen, hg, seenOf, hle]
    · rfl

/-- a terminator removes what is stale -/
theorem deliver_end {r : Registry} (h : r.Inv) {e : DriverEvent} (ht : isTerminator e = true) (k : ContextKey) :
    seen (r.deliver e) k = (seen r k).bind fun x => if x.stale then none else some x := by
  have hlife : isLifecycleEvent e.type = true := by
    simp only [isTerminator, Bool.and_eq_true, beq_iff_eq] at ht
    rw [ht.1]; rfl
  have hb : r.deliver e = (r.raise e.eventSequence).rescanComplete (r.raise e.eventSequence).highestSequence := by
    simp [Registry.deliver, Registry.apply, hlife, ht]
  rw [hb]
  simp only [seen, Registry.rescanComplete, Table.get?_retain, Registry.raise]
  cases hg : r.contexts.get? k with
  | none => rfl
  | some entry =>
    have hle : entry.lastSequence ≤ max r.highestSequence e.eventSequence := (h k entry hg).trans (le_max_left _ _)
    cases hs : entry.stale with
    | true => simp only [Option.bind_some, hs, true_and, if_pos hle]; simp [seenOf, hs]
    | false => simp [seenOf, hs]

/-! ## The conditions -/

/-- the first half of a list up to an element, and what is behind it -/
theorem split_getElem? {β : Type} {u : List β} {i : ℕ} {p : β} (h : u[i]? = some p) :
    u = u.take i ++ p :: u.drop (i + 1) ∧ u.eraseIdx i = u.take i ++ u.drop (i + 1) := by
  obtain ⟨hi, hp⟩ := List.getElem?_eq_some_iff.mp h
  refine ⟨?_, List.eraseIdx_eq_take_drop_succ u i⟩
  rw [← hp, List.cons_getElem_drop_succ, List.take_append_drop]

namespace Link

variable {α : Type}

/-- nothing is dropped and the one connection stays: sends succeed, the queue has room, nobody hangs up or restarts -/
def Lossless (l : Link α) : Op α → Prop
  | .driver (.connect r) | .driver (.replaySend r) | .driver (.drain r) | .driver (.handle r) => r = .sent
  | .driver (.enqueue _) => l.driver.queue.length < kQueueCapacity
  | .driver .hangup | .driver .restart | .daemon .restart => False
  | _ => True

/-- the orders in which nothing that matters is overtaken; each is about the calls of one context -/
def Orderly (l : Link α) : Op α → Prop
  | .driver (.stamp i) => ∀ p ∈ l.driver.unstamped[i]?,
      (decisive p.event.type = true → ∀ rp ∈ l.driver.replay, rp.number < p.collection →
        ∀ r ∈ rp.unsent, r.contextInstanceId ≠ p.event.contextInstanceId) ∧
      ((∃ v, p.event.type = switchType v) → ∀ q ∈ l.driver.unstamped.take i,
        q.event.contextInstanceId = p.event.contextInstanceId → setsState q.event.type = false)
  | .driver (.enqueue i) => ∀ e ∈ l.driver.stamped[i]?, ∀ e' ∈ l.driver.stamped,
      e'.contextInstanceId = e.contextInstanceId → decisive e'.type = true → e.eventSequence ≤ e'.eventSequence
  | _ => True

/-- a condition on every step of a run -/
def Along (P : Link α → Op α → Prop) (a : Applier α) : Link α → List (Op α) → Prop
  | _, [] => True
  | l, op :: ops => P l op ∧ Along P a (step a l op) ops

/-- every call has returned, everything is sent, and the daemon has read all of it -/
def Quiescent (l : Link α) : Prop :=
  l.driver.unstamped = [] ∧ l.driver.stamped = [] ∧ l.driver.queue = [] ∧ l.driver.replay = none ∧
    ∀ w ∈ l.line, (l.wires w).up = []

/-! ## One connection -/

/-- there is no connection yet, or one that both ends hold -/
structure Single (l : Link α) : Prop where
  off : l.driver.socket = none → l.nextWire = 0 ∧ l.received = [] ∧ l.driver.replay = none
  on : ∀ w, l.driver.socket = some w → l.line = [w] ∧ (l.wires w).driverOpen = true

/-- what every queued event looks like -/
structure Sound (d : Driver α) : Prop where
  pending : ∀ p ∈ d.unstamped, isLifecycleEvent p.event.type = true
  stamped : ∀ e ∈ d.stamped ++ d.queue, isLifecycleEvent e.type = true ∧ e.bootId = d.bootId ∧ 0 < e.eventSequence

/-- the registry once everything that was sent is read -/
def eventual (l : Link α) : Registry := Registry.deliverAll {} (l.stream.map Frame.event)

theorem eventual_inv (l : Link α) : l.eventual.Inv := Registry.deliverAll_inv Registry.inv_init _

@[simp] theorem eventual_setDriver (l : Link α) (d : Driver α) : (l.setDriver d).eventual = l.eventual := rfl

def statusOf (c : DriverContext α) : Status := ⟨c.record.enabled, c.switched, c.reconfigured⟩

/-- context `c` on its way through the link -/
def track (l : Link α) (c : ℕ) : Track where
  born := decide (0 < c) && decide (c < l.driver.nextContextInstanceId)
  status := (l.driver.contexts.get? c).map statusOf
  unstamped := l.driver.unstamped.filter fun p => p.event.contextInstanceId = c
  stamped := l.driver.stamped.filter fun e => e.contextInstanceId = c
  queue := l.driver.queue.filter fun e => e.contextInstanceId = c
  running := l.driver.replay.map Replay.number
  unsent := (l.driver.replay.map Replay.unsent).getD [] |>.filter fun e => e.contextInstanceId = c ∧ e.contextInstanceId ≠ 0
  collections := l.driver.collections.length
  nextSequence := l.driver.nextSequence
  entry := seen l.eventual ⟨l.driver.bootId, c⟩

end Link

/-- nothing happens to the context -/
theorem Track.Step.refl (t : Track) : Track.Step t t := Track.Step.skip t t.nextSequence false le_rfl (by simp)

namespace Link

variable {α : Type}

/-! ## Publisher calls -/

/-- a step that changes nothing about `c` but what the registry will have seen of it -/
theorem track_aside {l m : Link α} {c : ℕ} (hboot : m.driver.bootId = l.driver.bootId)
    (hborn : (0 < c ∧ c < m.driver.nextContextInstanceId) ↔ (0 < c ∧ c < l.driver.nextContextInstanceId))
    (hstatus : (m.driver.contexts.get? c).map statusOf = (l.driver.contexts.get? c).map statusOf)
    (hun : (m.driver.unstamped.filter fun p => p.event.contextInstanceId = c) =
      l.driver.unstamped.filter fun p => p.event.contextInstanceId = c)
    (hst : (m.driver.stamped.filter fun e => e.contextInstanceId = c) =
      l.driver.stamped.filter fun e => e.contextInstanceId = c)
    (hq : (m.driver.queue.filter fun e => e.contextInstanceId = c) =
      l.driver.queue.filter fun e => e.contextInstanceId = c)
    (hreplay : m.driver.replay = l.driver.replay) (hcoll : m.driver.collections = l.driver.collections) :
    m.track c = { l.track c with
      nextSequence := m.driver.nextSequence
      entry := seen m.eventual ⟨l.driver.bootId, c⟩ } := by
  refine Track.ext ?_ hstatus hun hst hq (congrArg (Option.map Replay.number) hreplay) ?_
    (congrArg List.length hcoll) rfl ?_
  · show (decide (0 < c) && decide (c < m.driver.nextContextInstanceId)) = (decide (0 < c) && decide (c < _))
    rw [← Bool.decide_and, ← Bool.decide_and]
    exact decide_eq_decide.mpr hborn
  · simp only [track, hreplay]
  · simp only [track, hboot]

/-- a driver step that changes nothing about `c` -/
theorem track_same (l : Link α) (d : Driver α) (c : ℕ) (hboot : d.bootId = l.driver.bootId)
    (hborn : (0 < c ∧ c < d.nextContextInstanceId) ↔ (0 < c ∧ c < l.driver.nextContextInstanceId))
    (hstatus : (d.contexts.get? c).map statusOf = (l.driver.contexts.get? c).map statusOf)
    (hun : (d.unstamped.filter fun p => p.event.contextInstanceId = c) =
      l.driver.unstamped.filter fun p => p.event.contextInstanceId = c)
    (hst : (d.stamped.filter fun e => e.contextInstanceId = c) = l.driver.stamped.filter fun e => e.contextInstanceId = c)
    (hq : (d.queue.filter fun e => e.contextInstanceId = c) = l.driver.queue.filter fun e => e.contextInstanceId = c)
    (hreplay : d.replay = l.driver.replay) (hcoll : d.collections = l.driver.collections) :
    (l.setDriver d).track c = { l.track c with nextSequence := d.nextSequence } :=
  track_aside (l := l) (m := l.setDriver d) hboot hborn hstatus hun hst hq hreplay hcoll

theorem track_register (l : Link α) (a : Applier α) (audioSessionId ioId : ℕ) (hpos : 0 < l.driver.nextContextInstanceId)
    (c : ℕ) : Track.Step (l.track c) ((l.setDriver (l.driver.register a.fresh audioSessionId ioId)).track c) := by
  by_cases hc : l.driver.nextContextInstanceId = c
  · subst hc
    have hstep := Track.Step.create (l.track l.driver.nextContextInstanceId)
      (makeEvent .contextCreated l.driver.nextContextInstanceId { audioSessionId, ioId }) (by simp [track]) rfl
    convert hstep using 1
    simp [track, Driver.register, Driver.pend, List.filter_append, makeEvent, statusOf, hpos]
  · have hsame := track_same l (l.driver.register a.fresh audioSessionId ioId) c rfl
      (by simp only [Driver.register, Driver.pend]; omega)
      (by simp [Driver.register, Driver.pend, Table.get?_put_ne _ _ hc])
      (by simp [Driver.register, Driver.pend, List.filter_append, makeEvent, hc]) rfl rfl rfl rfl
    rw [hsame]
    exact Track.Step.refl _

theorem introduced_of {d : Driver α} {l : Link α} (hd : l.driver = d) {id : ℕ} (h : d.registering id = false) :
    (l.track id).Introduced := by
  subst hd
  simp only [Driver.registering, Bool.or_eq_false_iff, List.any_eq_false, Bool.and_eq_true, beq_iff_eq, not_and] at h
  intro e he
  simp only [track, List.mem_append, List.mem_filter, List.mem_map, decide_eq_true_eq] at he
  rcases he with ⟨he, hid⟩ | ⟨p, ⟨hp, hid⟩, rfl⟩
  · exact fun htype => h.2 e he htype hid
  · exact fun htype => h.1 p hp htype hid

theorem track_publish (l : Link α) (id : ℕ) (change : DriverContext α → Option (DriverContext α × DriverEventType))
    (hch : ∀ c c' type, change c = some (c', type) → (statusOf c).Changes type (statusOf c')) (c : ℕ) :
    Track.Step (l.track c) ((l.setDriver (l.driver.publish id change)).track c) := by
  unfold Driver.publish
  cases hreg : l.driver.registering id with
  | true => exact Track.Step.refl _
  | false =>
    simp only [Bool.false_eq_true, if_false]
    split
    · exact Track.Step.refl _
    · rename_i x hx
      split
      · exact Track.Step.refl _
      · rename_i x' type hchange
        by_cases hc : id = c
        · subst hc
          have hstep := Track.Step.publish (l.track id) (statusOf x) (statusOf x') (makeEvent type id x'.record)
            (by simp [track, hx]) (introduced_of rfl hreg) (hch x x' type hchange)
          convert hstep using 1
          simp [track, Driver.pend, List.filter_append, makeEvent]
          rfl
        · have hsame := track_same l ({ l.driver with contexts := l.driver.contexts.put id x' }.pend
            (makeEvent type id x'.record)) c rfl Iff.rfl (by simp [Driver.pend, Table.get?_put_ne _ _ hc])
            (by simp [Driver.pend, List.filter_append, makeEvent, hc]) rfl rfl rfl rfl
          rw [hsame]
          exact Track.Step.refl _

theorem track_unregister (l : Link α) (id : ℕ) (c : ℕ) :
    Track.Step (l.track c) ((l.setDriver (l.driver.unregister id)).track c) := by
  unfold Driver.unregister
  cases hreg : l.driver.registering id with
  | true => exact Track.Step.refl _
  | false =>
    simp only [Bool.false_eq_true, if_false]
    split
    · exact Track.Step.refl _
    · rename_i x hx
      by_cases hc : id = c
      · subst hc
        have hstep := Track.Step.release (l.track id) (statusOf x)
          (makeEvent .contextReleased id { x.record with enabled := false }) (by simp [track, hx])
          (introduced_of rfl hreg) rfl
        convert hstep using 1
        simp [track, Driver.pend, List.filter_append, makeEvent, Table.get?_erase]
        rfl
      · have hsame := track_same l ({ l.driver with contexts := l.driver.contexts.erase id }.pend
          (makeEvent .contextReleased id { x.record with enabled := false })) c rfl Iff.rfl
          (by simp [Driver.pend, Table.get?_erase, hc])
          (by simp [Driver.pend, List.filter_append, makeEvent, hc]) rfl rfl rfl rfl
        rw [hsame]
        exact Track.Step.refl _

theorem track_stamp (l : Link α) (i : ℕ) (hord : Orderly l (.driver (.stamp i))) (c : ℕ) :
    Track.Step (l.track c) ((l.setDriver (l.driver.stamp i)).track c) := by
  unfold Driver.stamp
  split
  · exact Track.Step.refl _
  · rename_i p hp
    obtain ⟨hsplit, herase⟩ := split_getElem? hp
    obtain ⟨hunsent, horder⟩ := hord p hp
    by_cases hc : p.event.contextInstanceId = c
    · subst hc
      have hstep := Track.Step.stamp (l.track p.event.contextInstanceId)
        ((l.driver.unstamped.take i).filter fun q => q.event.contextInstanceId = p.event.contextInstanceId)
        ((l.driver.unstamped.drop (i + 1)).filter fun q => q.event.contextInstanceId = p.event.contextInstanceId)
        p (l.driver.mark p.event) ?_ rfl rfl ?_ ?_
      · convert hstep using 1
        simp [track, herase, List.filter_append, Driver.mark]
      · show l.driver.unstamped.filter _ = _
        conv_lhs => rw [hsplit]
        simp [List.filter_append]
      · intro hdec n hn hlt
        obtain ⟨rp, hrp, rfl⟩ := Option.map_eq_some_iff.mp hn
        simp only [track, hrp, Option.map_some, Option.getD_some]
        refine List.filter_eq_nil_iff.mpr fun r hr => ?_
        simp [hunsent hdec rp hrp hlt r hr]
      · intro v hv q hq
        obtain ⟨hq, hid⟩ := List.mem_filter.mp hq
        exact horder ⟨v, hv⟩ q hq (by simpa using hid)
    · have hsame := track_same l { l.driver with
          unstamped := l.driver.unstamped.eraseIdx i
          stamped := l.driver.stamped ++ [l.driver.mark p.event]
          nextSequence := l.driver.nextSequence + 1 } c rfl Iff.rfl rfl ?_ ?_ rfl rfl rfl
      · rw [hsame]
        exact Track.Step.skip (l.track c) _ false (Nat.le_succ _) (by simp)
      · rw [herase]
        conv_rhs => rw [hsplit]
        simp [List.filter_append, hc]
      · simp [List.filter_append, Driver.mark, hc]

theorem track_enqueue (l : Link α) (i : ℕ) (hloss : Lossless l (.driver (.enqueue i)))
    (hord : Orderly l (.driver (.enqueue i))) (c : ℕ) :
    Track.Step (l.track c) ((l.setDriver (l.driver.enqueue i)).track c) := by
  unfold Driver.enqueue
  split
  · exact Track.Step.refl _
  · rename_i e he
    obtain ⟨hsplit, herase⟩ := split_getElem? he
    rw [if_neg (by simpa [Lossless] using hloss)]
    by_cases hc : e.contextInstanceId = c
    · subst hc
      have hstep := Track.Step.enqueue (l.track e.contextInstanceId)
        ((l.driver.stamped.take i).filter fun f => f.contextInstanceId = e.contextInstanceId)
        ((l.driver.stamped.drop (i + 1)).filter fun f => f.contextInstanceId = e.contextInstanceId) e ?_ ?_
      · convert hstep using 1
        simp [track, herase, List.filter_append]
      · show l.driver.stamped.filter _ = _
        conv_lhs => rw [hsplit]
        simp [List.filter_append]
      · intro e' he' hdec
        obtain ⟨hmem, hid⟩ := List.mem_filter.mp he'
        exact hord e he e' hmem (by simpa using hid) hdec
    · have hsame := track_same l { l.driver with
          stamped := l.driver.stamped.eraseIdx i
          queue := l.driver.queue ++ [e] } c rfl Iff.rfl rfl rfl ?_ ?_ rfl rfl
      · rw [hsame]
        exact Track.Step.refl _
      · rw [herase]
        conv_rhs => rw [hsplit]
        simp [List.filter_append, hc]
      · simp [List.filter_append, hc]

theorem track_touch (l : Link α) (id : ℕ) (f : α → α) (c : ℕ) :
    Track.Step (l.track c) ((l.setDriver (l.driver.touch id f)).track c) := by
  unfold Driver.touch
  split
  · exact Track.Step.refl _
  · rename_i x hx
    have hsame := track_same l { l.driver with contexts := l.driver.contexts.put id { x with ext := f x.ext } } c rfl
      Iff.rfl ?_ rfl rfl rfl rfl rfl
    · rw [hsame]
      exact Track.Step.refl _
    · simp only [Table.get?_put]
      split_ifs with hc
      · rw [← hc, hx]; rfl
      · rfl

theorem track_collect (l : Link α) (hok : l.driver.Ok) (c : ℕ) :
    Track.Step (l.track c) ((l.setDriver l.driver.collect).track c) := by
  unfold Driver.collect
  split_ifs with hready
  · have hnone : l.driver.replay = none := by simpa using hready.2.2
    have hstep := Track.Step.collect (l.track c)
      (l.driver.collectRescanEvents.filter fun e => e.contextInstanceId = c ∧ e.contextInstanceId ≠ 0)
      (by simp [track, hnone]) (fun r hr => ?_) (fun hsome => ?_)
    · convert hstep using 1
      simp [track]
      rfl
    · obtain ⟨hmem, hid⟩ := List.mem_filter.mp hr
      simp only [decide_eq_true_eq] at hid
      rcases List.mem_append.mp hmem with hmem | hmem
      · obtain ⟨p, hp, rfl⟩ := List.mem_map.mp hmem
        obtain rfl : p.1 = c := hid.1
        exact ⟨statusOf p.2, by simp [track, (Table.mem_entries_iff _ _ _).mp hp], rfl⟩
      · rw [List.mem_singleton.mp hmem] at hid
        exact absurd rfl hid.2
    · simp only [track, Option.isSome_map] at hsome
      obtain ⟨x, hx⟩ := Option.isSome_iff_exists.mp hsome
      have hpos := hok.live c hsome
      refine List.ne_nil_of_mem (a := makeEvent .rescanResponse c x.record) (List.mem_filter.mpr ⟨?_, ?_⟩)
      · exact List.mem_append_left _ (List.mem_map.mpr ⟨(c, x), (Table.mem_entries_iff _ _ _).mpr hx, rfl⟩)
      · simp [makeEvent]
        omega
  · exact Track.Step.refl _

/-! ## The bridge thread -/

theorem eventual_append {l m : Link α} {f : Frame} (h : m.stream = l.stream ++ [f]) :
    m.eventual = l.eventual.deliver f.event := by
  simp [eventual, h, Registry.deliverAll]

theorem eventual_congr {l m : Link α} (h : m.stream = l.stream) : m.eventual = l.eventual := by
  rw [eventual, h, eventual]

theorem deliver_ignored (r : Registry) {e : DriverEvent} (h : isLifecycleEvent e.type = false) : r.deliver e = r := by
  simp [Registry.deliver, Registry.apply, h]

/-- on an open connection a send succeeds, and its frame ends the stream -/
theorem sendEvent_sent {l : Link α} (h : l.Shape) {w : ℕ} (hs : l.driver.socket = some w)
    (ho : (l.wires w).daemonOpen = true) (f : Frame) :
    (l.sendEvent .sent f).2 = true ∧ (l.sendEvent .sent f).1.driver = l.driver ∧
      (l.sendEvent .sent f).1.stream = l.stream ++ [f] := by
  have hb : l.sendEvent .sent f = (l.setWire w { l.wires w with up := (l.wires w).up ++ [f] }, true) := by
    simp [sendEvent, hs, ho]
  rw [hb]
  exact ⟨rfl, rfl, h.wired.stream_append hs ho f⟩

theorem sendStamped_sent {l : Link α} (h : l.Shape) {w : ℕ} (hs : l.driver.socket = some w)
    (ho : (l.wires w).daemonOpen = true) (e : DriverEvent) (tag : Tag) :
    (l.sendStamped .sent e tag).2 = true ∧
      (l.sendStamped .sent e tag).1.driver = { l.driver with nextSequence := l.driver.nextSequence + 1 } ∧
      (l.sendStamped .sent e tag).1.stream = l.stream ++ [⟨l.driver.mark e, tag, l.driver.phase⟩] :=
  sendEvent_sent h.nextSequence hs ho _

/-- a context after the bridge thread has sent a frame -/
theorem track_sent {l m : Link α} {f : Frame} (hstream : m.stream = l.stream ++ [f]) (n : ℕ)
    (queue : List DriverEvent) (replay : Option Replay) (rescan : Bool) (socket : Option ℕ)
    (hd : m.driver = { l.driver with
      nextSequence := n, queue := queue, replay := replay, rescanRequested := rescan, socket := socket }) (c : ℕ) :
    m.track c = { l.track c with
      nextSequence := n
      queue := queue.filter fun e => e.contextInstanceId = c
      running := replay.map Replay.number
      unsent := (replay.map Replay.unsent).getD [] |>.filter fun e => e.contextInstanceId = c ∧ e.contextInstanceId ≠ 0
      entry := seen (l.eventual.deliver f.event) ⟨l.driver.bootId, c⟩ } := by
  unfold track
  rw [hd, eventual_append hstream]

/-- the bridge sends something of its own: a sequence number is used up, and the registry does not care -/
theorem track_sent_aside {l m : Link α} {f : Frame} (hstream : m.stream = l.stream ++ [f])
    (hf : isLifecycleEvent f.event.type = false) (rescan : Bool) (socket : Option ℕ)
    (hd : m.driver = { l.driver with
      nextSequence := l.driver.nextSequence + 1, rescanRequested := rescan, socket := socket }) (c : ℕ) :
    Track.Step (l.track c) (m.track c) := by
  rw [track_sent hstream _ _ _ _ _ hd, deliver_ignored _ hf]
  exact Track.Step.skip (l.track c) _ false (Nat.le_succ _) (by simp)

theorem track_connect {l : Link α} (h : l.Shape) (c : ℕ) : Track.Step (l.track c) ((l.connect .sent).track c) := by
  unfold connect
  by_cases hidle : l.driver.started ∧ l.driver.socket.isNone ∧ l.driver.replay.isNone
  · have ho : (l.openWire.wires l.nextWire).daemonOpen = true := by rw [openWire_new]
    obtain ⟨hsent, hd, hstream⟩ := sendStamped_sent h.openWire (w := l.nextWire) rfl ho { type := .driverHello } .live
    rw [h.wired.openWire_stream] at hstream
    simp only [if_pos hidle, hsent, if_true]
    generalize l.openWire.sendStamped .sent { type := .driverHello } .live = p at *
    refine track_sent_aside (m := p.1.setDriver { p.1.driver with rescanRequested := true }) hstream rfl true
      (some l.nextWire) ?_ c
    rw [setDriver_driver, hd]
    rfl
  · rw [if_neg hidle]
    exact Track.Step.refl _

/-- while a connection is up or a replay runs, there is an open connection -/
theorem Single.socket_open {l : Link α} (h : l.Shape) (hsingle : l.Single) (hon : l.driver.socket ≠ none ∨
    l.driver.replay ≠ none) : ∃ w, l.driver.socket = some w ∧ (l.wires w).daemonOpen = true := by
  cases hs : l.driver.socket with
  | some w => exact ⟨w, rfl, h.wired.isOpen w (by rw [(hsingle.on w hs).1]; simp)⟩
  | none =>
    rcases hon with hon | hon
    · exact absurd hs hon
    · exact absurd (hsingle.off hs).2.2 hon

theorem track_replaySend {l : Link α} (h : l.Shape) (hsingle : l.Single) (c : ℕ) :
    Track.Step (l.track c) ((l.replaySend .sent).track c) := by
  unfold replaySend
  split
  · exact Track.Step.refl _
  · rename_i rp hrp
    obtain ⟨w, hw, ho⟩ := hsingle.socket_open h (.inr (by simp [hrp]))
    obtain ⟨hnumber, roster, es, hroster, hzero, hues, hes⟩ := h.driver.replay rp hrp
    have hrun : (l.track c).running = some rp.number := by simp [track, hrp]
    split
    · rename_i hnil
      simp [hues] at hnil
    · rename_i e rest hue
      obtain ⟨hsent, hd, hstream⟩ := sendStamped_sent h hw ho e (.replay rp.number)
      have hun : (l.track c).unsent = (e :: rest).filter fun e => e.contextInstanceId = c ∧ e.contextInstanceId ≠ 0 := by
        simp only [track, hrp, hue, Option.map_some, Option.getD_some]
      simp only [hsent, Bool.true_and]
      generalize l.sendStamped .sent e (.replay rp.number) = p at *
      rw [track_sent (l := l) (m := p.1.setDriver { p.1.driver with
          replay := if (!rest.isEmpty) = true then some { rp with unsent := rest } else none }) hstream
        (l.driver.nextSequence + 1) l.driver.queue (if (!rest.isEmpty) = true then some { rp with unsent := rest } else none)
        l.driver.rescanRequested l.driver.socket (by rw [setDriver_driver, hd])]
      rw [hues] at hue
      cases es with
      | nil =>
        -- the terminator
        obtain ⟨rfl, rfl⟩ := List.cons.inj hue
        have hun' : (l.track c).unsent = [] := by rw [hun]; simp
        rw [deliver_end l.eventual_inv rfl]
        convert Track.Step.terminate (l.track c) rp.number hrun hun' using 1
        simp [track, hrp, hues]
      | cons e' es' =>
        obtain ⟨rfl, hrest⟩ := List.cons.inj hue
        obtain ⟨htype, hmem⟩ := hes e' List.mem_cons_self
        have hid : e'.contextInstanceId ≠ 0 := fun hz => hzero (hz ▸ hmem)
        have hmore : (!rest.isEmpty) = true := by rw [← hrest]; simp
        rw [deliver_replayed (e := l.driver.mark e') htype hid h.driver.sequence]
        by_cases hc : e'.contextInstanceId = c
        · have hstep := Track.Step.replay (l.track c) rp.number e' (l.driver.mark e')
            (rest.filter fun e => e.contextInstanceId = c ∧ e.contextInstanceId ≠ 0)
            hrun (by rw [hun, List.filter_cons_of_pos (by simp [hid, ← hc])]) htype rfl rfl
          convert hstep using 1
          have hkey : keyOf (l.driver.mark e') = ⟨l.driver.bootId, c⟩ := by rw [← hc]; rfl
          simp [hmore, hkey, track, hrp]
        · have hskip := Track.Step.skip (l.track c) (l.driver.nextSequence + 1) false (Nat.le_succ _) (by simp)
          have hkey : keyOf (l.driver.mark e') ≠ ⟨l.driver.bootId, c⟩ :=
            fun h => hc (congrArg ContextKey.contextInstanceId h)
          rw [List.filter_cons_of_neg (by simp [hc])] at hun
          convert hskip using 1
          simp only [hmore, if_true, Option.map_some, Option.getD_some, if_neg hkey, ← hun, mark, Bool.false_eq_true,
            if_false, ← hrun]
          rfl

theorem track_drain {l : Link α} (h : l.Shape) (hsingle : l.Single) (hsound : Sound l.driver)
    (hlive : ∀ c, ∀ e ∈ (l.track c).path, e.type ≠ .rescanResponse) (c : ℕ) :
    Track.Step (l.track c) ((l.drain .sent).track c) := by
  unfold drain
  split_ifs with hidle
  · exact Track.Step.refl _
  · push Not at hidle
    have hnone : l.driver.replay = none := by simpa using hidle.1
    have hrun : (l.track c).running = none := by simp [track, hnone]
    split
    · exact Track.Step.refl _
    · rename_i e rest hq
      obtain ⟨w, hw, ho⟩ := hsingle.socket_open h (.inl (by simpa using hidle.2))
      have h' : (l.setDriver { l.driver with queue := rest }).Shape :=
        h.aside ⟨rfl, rfl, rfl, rfl, fun hok => ⟨hok.ids, hok.live, hok.sequence, hok.replay⟩⟩
      obtain ⟨hsent, hd, hstream⟩ := sendEvent_sent h' hw ho ⟨e, .live, l.driver.phase⟩
      obtain ⟨hlife, hboot, hseq⟩ := hsound.stamped e (by simp [hq])
      obtain ⟨gap, hgap⟩ := deliver_live l.eventual_inv hlife
        (hlive e.contextInstanceId e (by simp [Track.path, track, hq])) hseq
      have hkey : keyOf e = ⟨l.driver.bootId, c⟩ ↔ e.contextInstanceId = c := by simp [keyOf, hboot]
      simp only [hsent, if_true]
      rw [track_sent (l := l) hstream l.driver.nextSequence rest l.driver.replay l.driver.rescanRequested
        l.driver.socket hd, hgap]
      by_cases hc : e.contextInstanceId = c
      · have hstep := Track.Step.drain (l.track c) e (rest.filter fun e => e.contextInstanceId = c) gap hrun
          (by simp [track, hq, hc])
        convert hstep using 1
        simp [hkey.mpr hc, track]
      · have hskip := Track.Step.skip (l.track c) l.driver.nextSequence gap le_rfl (fun _ => hrun)
        convert hskip using 1
        simp [mt hkey.mp hc, track, hq, hc]

theorem track_handle {l : Link α} (h : l.Shape) (hsingle : l.Single) (a : Applier α) (c : ℕ) :
    Track.Step (l.track c) ((handle a l .sent).track c) := by
  unfold handle
  split_ifs with hidle
  · exact Track.Step.refl _
  · split
    · exact Track.Step.refl _
    · rename_i w hw
      have ho := h.wired.isOpen w (by rw [(hsingle.on w hw).1]; simp)
      split
      · exact Track.Step.refl _
      · rename_i rest _
        have hsame := track_aside (l := l) (m := (l.setWire w { l.wires w with down := rest }).setDriver
          { l.driver with rescanRequested := true }) (c := c) rfl Iff.rfl rfl rfl rfl rfl rfl rfl
        rw [hsame, eventual_setDriver, eventual_congr (stream_setWire l w { l.wires w with down := rest } rfl)]
        exact Track.Step.refl _
      · rename_i cmd rest _
        have h₁ := h.setWire w { l.wires w with down := rest } rfl rfl
        have hstream₁ := stream_setWire l w { l.wires w with down := rest } rfl
        generalize hl₁ : l.setWire w { l.wires w with down := rest } = l₁ at *
        have hd₁ : l₁.driver = l.driver := by rw [← hl₁]; rfl
        have ho₁ : (l₁.wires w).daemonOpen = true := by rw [← hl₁, setWire_self]; exact ho
        -- the fan-out changes what the contexts hold, and nothing the publisher records
        have hstatus : (((applySnapshotCommand a l₁.driver.contexts cmd).1.get? c).map statusOf) =
            (l.driver.contexts.get? c).map statusOf := by
          rw [hd₁]
          simp only [applySnapshotCommand, Table.get?_retain]
          cases l.driver.contexts.get? c <;> rfl
        unfold handleSnapshotCommand
        simp only
        generalize hl₂ : (l₁.setDriver { l₁.driver with contexts := (applySnapshotCommand a l₁.driver.contexts cmd).1 }).note
          (.handled cmd l₁.driver.contexts) = l₂
        have hd₂ : l₂.driver = { l.driver with contexts := (applySnapshotCommand a l₁.driver.contexts cmd).1 } := by
          rw [← hl₂, note_driver, setDriver_driver, hd₁]
        have h₂ : l₂.Shape := by
          rw [← hl₂]
          refine Shape.note (h₁.aside (d := { l₁.driver with contexts := (applySnapshotCommand a l₁.driver.contexts cmd).1 })
            ⟨rfl, rfl, rfl, rfl, fun hok => hok.contexts _ fun id hid => ?_⟩) _
          rwa [applySnapshotCommand_isSome] at hid
        have hstream₂ : l₂.stream = l.stream := by
          rw [← hl₂]
          exact hstream₁
        have hsame₂ : l₂.track c = l.track c := by
          have := track_aside (l := l) (m := l₂) (c := c) (by rw [hd₂]) (by rw [hd₂]) (by rw [hd₂]; exact hstatus)
            (by rw [hd₂]) (by rw [hd₂]) (by rw [hd₂]) (by rw [hd₂]) (by rw [hd₂])
          rw [this, eventual_congr hstream₂, hd₂]
          rfl
        split_ifs
        · rw [hsame₂]
          exact Track.Step.refl _
        · have hs₂ : l₂.driver.socket = some w := by rw [hd₂]; exact hw
          have ho₂ : (l₂.wires w).daemonOpen = true := by rw [← hl₂]; exact ho₁
          obtain ⟨-, hd₃, hstream₃⟩ := sendStamped_sent h₂ hs₂ ho₂
            (replyEvent cmd (applySnapshotCommand a l₁.driver.contexts cmd).2) (.reply cmd.ticket)
          rw [← hsame₂]
          refine track_sent_aside hstream₃ ?_ l₂.driver.rescanRequested l₂.driver.socket hd₃ c
          simp only [Driver.mark, replyEvent]
          split_ifs <;> rfl

/-! ## The connection stays -/

theorem Single.setDriver {l : Link α} (h : l.Single) {d : Driver α} (hs : d.socket = l.driver.socket)
    (hr : l.driver.socket = none → d.replay = none) : (l.setDriver d).Single :=
  ⟨fun hn => ⟨(h.off (hs.symm.trans hn)).1, (h.off (hs.symm.trans hn)).2.1, hr (hs.symm.trans hn)⟩,
    fun w hw => h.on w (hs.symm.trans hw)⟩

theorem Single.aside {l : Link α} (h : l.Single) {d : Driver α} (hd : l.driver.Aside d) : (l.setDriver d).Single :=
  h.setDriver hd.socket fun hn => hd.replay.trans (h.off hn).2.2

theorem Single.note {l : Link α} (h : l.Single) (n : Note α) : (l.note n).Single := ⟨h.off, h.on⟩

theorem Single.setWire {l : Link α} (h : l.Single) (w : ℕ) (x : Wire) (ho : x.driverOpen = (l.wires w).driverOpen) :
    (l.setWire w x).Single := by
  refine ⟨h.off, fun v hv => ⟨(h.on v hv).1, ?_⟩⟩
  by_cases hvw : v = w
  · subst hvw
    rw [setWire_self, ho]
    exact (h.on v hv).2
  · rw [setWire_ne l x hvw]
    exact (h.on v hv).2

theorem Single.sendEvent {l : Link α} (h : l.Single) {w : ℕ} (hs : l.driver.socket = some w)
    (ho : (l.wires w).daemonOpen = true) (f : Frame) : (l.sendEvent .sent f).1.Single := by
  have hb : l.sendEvent .sent f = (l.setWire w { l.wires w with up := (l.wires w).up ++ [f] }, true) := by
    simp [Link.sendEvent, hs, ho]
  rw [hb]
  exact h.setWire w _ rfl

theorem Single.sendStamped {l : Link α} (h : l.Single) {w : ℕ} (hs : l.driver.socket = some w)
    (ho : (l.wires w).daemonOpen = true) (e : DriverEvent) (tag : Tag) : (l.sendStamped .sent e tag).1.Single :=
  (h.setDriver (d := { l.driver with nextSequence := l.driver.nextSequence + 1 }) rfl
    (fun hn => (h.off hn).2.2)).sendEvent hs ho _

theorem Single.openWire {l : Link α} (h : l.Single) (hshape : l.Shape) (hs : l.driver.socket = none) :
    l.openWire.Single := by
  refine ⟨fun hn => (by cases hn), fun w hw => ?_⟩
  obtain rfl := Option.some.inj hw
  have hline : l.line = [] := by
    refine List.eq_nil_iff_forall_not_mem.mpr fun v hv => ?_
    have := hshape.wired.old v hv
    rw [(h.off hs).1] at this
    omega
  exact ⟨by rw [openWire_line, hline]; rfl, by rw [openWire_new]⟩

theorem stepDriver_single (a : Applier α) {l : Link α} (h : l.Single) (hshape : l.Shape) {op : DriverOp α}
    (hloss : Lossless l (.driver op)) : (stepDriver a l op).Single := by
  cases op with
  | register audioSessionId ioId => exact (h.aside (Driver.register_aside _ _ _ _)).note _
  | publishConfigured id sampleRate channelMask => exact h.aside (Driver.publish_aside _ _ _)
  | publishEnabled id enabled => exact h.aside (Driver.publish_aside _ _ _)
  | publishGenerations id resourceGeneration graphGeneration => exact h.aside (Driver.publish_aside _ _ _)
  | publishTelemetry id bypassReason => exact h.aside (Driver.publish_aside _ _ _)
  | unregister id => exact h.aside (Driver.unregister_aside _ _)
  | stamp i => exact h.aside (Driver.stamp_aside _ _)
  | enqueue i => exact h.aside (Driver.enqueue_aside _ _)
  | touch id f => exact h.aside (Driver.touch_aside _ _ _)
  | hangup => exact hloss.elim
  | restart => exact hloss.elim
  | collect =>
    refine h.setDriver ?_ fun hn => ?_
    · unfold Driver.collect
      split_ifs <;> rfl
    · rw [Driver.collect, if_neg (by simp [hn])]
      exact (h.off hn).2.2
  | connect r =>
    obtain rfl : r = .sent := hloss
    show (l.connect .sent).Single
    unfold connect
    by_cases hidle : l.driver.started ∧ l.driver.socket.isNone ∧ l.driver.replay.isNone
    · have hnone : l.driver.socket = none := by simpa using hidle.2.1
      have ho : (l.openWire.wires l.nextWire).daemonOpen = true := by rw [openWire_new]
      have h' := (h.openWire hshape hnone).sendStamped (w := l.nextWire) rfl ho { type := .driverHello } .live
      obtain ⟨hsent, hd, -⟩ := sendStamped_sent hshape.openWire (w := l.nextWire) rfl ho { type := .driverHello } .live
      simp only [if_pos hidle, hsent, if_true]
      exact h'.setDriver rfl (fun hn => by rw [hd] at hn; cases hn)
    · rw [if_neg hidle]
      exact h
  | replaySend r =>
    obtain rfl : r = .sent := hloss
    show (l.replaySend .sent).Single
    unfold replaySend
    split
    · exact h
    · rename_i rp hrp
      obtain ⟨w, hw, ho⟩ := h.socket_open hshape (.inr (by simp [hrp]))
      split
      · exact h.setDriver rfl (fun _ => rfl)
      · rename_i e rest _
        obtain ⟨-, hd, -⟩ := sendStamped_sent hshape hw ho e (.replay rp.number)
        refine (h.sendStamped hw ho e (.replay rp.number)).setDriver rfl fun hn => ?_
        rw [hd] at hn
        exact absurd (hw.symm.trans hn) (by simp)
  | drain r =>
    obtain rfl : r = .sent := hloss
    show (l.drain .sent).Single
    unfold drain
    split_ifs with hidle
    · exact h
    · push Not at hidle
      split
      · exact h
      · rename_i e rest _
        obtain ⟨w, hw, ho⟩ := h.socket_open hshape (.inl (by simpa using hidle.2))
        have h' : (l.setDriver { l.driver with queue := rest }).Shape :=
          hshape.aside ⟨rfl, rfl, rfl, rfl, fun hok => ⟨hok.ids, hok.live, hok.sequence, hok.replay⟩⟩
        obtain ⟨hsent, -, -⟩ := sendEvent_sent h' hw ho ⟨e, .live, l.driver.phase⟩
        simp only [hsent, if_true]
        exact (h.setDriver (d := { l.driver with queue := rest }) rfl (fun hn => (h.off hn).2.2)).sendEvent hw ho _
  | handle r =>
    obtain rfl : r = .sent := hloss
    show (Link.handle a l .sent).Single
    unfold Link.handle
    split_ifs with hidle
    · exact h
    · split
      · exact h
      · rename_i w hw
        have ho := hshape.wired.isOpen w (by rw [(h.on w hw).1]; simp)
        split
        · exact h
        · rename_i rest _
          exact (h.setWire w { l.wires w with down := rest } rfl).setDriver rfl (fun hn => (h.off hn).2.2)
        · rename_i c rest _
          have h₁ := h.setWire w { l.wires w with down := rest } rfl
          unfold handleSnapshotCommand
          simp only
          have h₂ := (h₁.setDriver (d := { (l.setWire w { l.wires w with down := rest }).driver with
            contexts := (applySnapshotCommand a l.driver.contexts c).1 }) rfl (fun hn => (h.off hn).2.2)).note
            (.handled c l.driver.contexts)
          split_ifs
          · exact h₂
          · refine h₂.sendStamped (w := w) hw ?_ _ _
            show ((l.setWire w _).wires w).daemonOpen = true
            rw [setWire_self]
            exact ho

/-- the daemon takes up the one connection, reads from it and writes to it: nothing of the stream is lost -/
theorem stepDaemon_single {l : Link α} (h : l.Single) (hshape : l.Shape) {op : DaemonOp}
    (hloss : Lossless l (.daemon op)) : (l.stepDaemon op).Single ∧ (l.stepDaemon op).stream = l.stream := by
  have hdown : ∀ (m : Link α), m.Single → ∀ frame ok,
      (m.sendDown frame ok).1.Single ∧ (m.sendDown frame ok).1.stream = m.stream := fun m hm frame ok => by
    unfold sendDown
    split
    · exact ⟨hm, rfl⟩
    · split_ifs
      · exact ⟨hm.setWire _ _ rfl, stream_setWire m _ _ rfl⟩
      · exact ⟨hm, rfl⟩
  -- with a client there is a socket, and the client is the one connection
  have hclient : ∀ w, w ∈ l.line → l.driver.socket = some w := fun w hw => by
    cases hs : l.driver.socket with
    | none =>
      have := hshape.wired.old w hw
      rw [(h.off hs).1] at this
      omega
    | some v =>
      rw [(h.on v hs).1] at hw
      rw [List.mem_singleton.mp hw]
  cases op with
  | restart => exact hloss.elim
  | take => exact ⟨⟨h.off, h.on⟩, rfl⟩
  | send c ok =>
    show (l.sendSnapshotCommand c ok).1.Single ∧ (l.sendSnapshotCommand c ok).1.stream = _
    obtain ⟨h₁, h₂⟩ := hdown l h (.command c) ok
    unfold sendSnapshotCommand
    simp only
    split_ifs
    · exact ⟨⟨h₁.off, h₁.on⟩, h₂⟩
    · exact ⟨h₁, h₂⟩
  | accept =>
    show l.acceptPending.Single ∧ l.acceptPending.stream = _
    unfold acceptPending
    split
    · exact ⟨h, rfl⟩
    · rename_i w rest hback
      have hs := hclient w (by simp [line, hback])
      have hline := (h.on w hs).1
      have hnone : l.client = none := by
        cases hc : l.client with
        | none => rfl
        | some v => simp [line, hc, hback] at hline
      have hrest : rest = [] := by simpa [line, hnone, hback] using hline
      subst hrest
      have hdrop : l.dropClient = l := by simp [dropClient, hnone]
      rw [hdrop]
      refine ⟨⟨fun hn => h.off hn, fun v hv => ⟨?_, (h.on v hv).2⟩⟩, ?_⟩
      · obtain rfl : w = v := Option.some.inj (hs.symm.trans hv)
        rfl
      · simp [stream, line, hnone, hback]
  | recv rescanSent =>
    show (l.recv rescanSent).1.Single ∧ (l.recv rescanSent).1.stream = _
    unfold recv
    split
    · exact ⟨h, rfl⟩
    · rename_i w hw
      have hs := hclient w (by simp [line, hw])
      split
      · rename_i f rest hup
        have h₁ : ({ l with received := l.received ++ [f] }.setWire w { l.wires w with up := rest } : Link α).Single := by
          refine Single.setWire (l := { l with received := l.received ++ [f] }) ⟨fun hn => ?_, h.on⟩ w _ rfl
          exact absurd (hs.symm.trans hn) (by simp)
        have h₂ := stream_take hshape.wired hw hup
        generalize ({ l with received := l.received ++ [f] }.setWire w { l.wires w with up := rest } : Link α) = m at *
        unfold process
        simp only
        split_ifs
        · exact ⟨⟨h₁.off, h₁.on⟩, h₂⟩
        · obtain ⟨h₃, h₄⟩ := hdown { m with registry := m.registry.deliver f.event } ⟨h₁.off, h₁.on⟩ .rescan rescanSent
          exact ⟨h₃, h₄.trans h₂⟩
        · exact ⟨⟨h₁.off, h₁.on⟩, h₂⟩
      · rw [if_pos (h.on w hs).2]
        exact ⟨h, rfl⟩

/-! ## What is queued -/

theorem Sound.pend {d : Driver α} (h : Sound d) {contexts : Table ℕ (DriverContext α)} {n : ℕ} {b : Bool}
    {e : DriverEvent} (he : isLifecycleEvent e.type = true) :
    Sound ({ d with contexts := contexts, nextContextInstanceId := n, started := b }.pend e) := by
  refine ⟨fun p hp => ?_, h.stamped⟩
  rcases List.mem_append.mp hp with hp | hp
  · exact h.pending p hp
  · rw [List.mem_singleton.mp hp]
    exact he

theorem Sound.publish {d : Driver α} (h : Sound d) (id : ℕ)
    (change : DriverContext α → Option (DriverContext α × DriverEventType))
    (hch : ∀ c c' type, change c = some (c', type) → isLifecycleEvent type = true) : Sound (d.publish id change) := by
  unfold Driver.publish
  split_ifs
  · exact h
  · split
    · exact h
    · split
      · exact h
      · rename_i c' type hchange
        exact h.pend (hch _ _ _ hchange)

theorem stepDriver_sound (a : Applier α) {l : Link α} (h : Sound l.driver) (hshape : l.Shape) {op : DriverOp α}
    (hloss : Lossless l (.driver op)) : Sound (stepDriver a l op).driver := by
  cases op with
  | register audioSessionId ioId => exact h.pend rfl
  | publishConfigured id sampleRate channelMask =>
    show Sound (l.driver.publishConfigured id sampleRate channelMask)
    refine h.publish id _ fun c c' type hc => ?_
    obtain ⟨-, rfl⟩ := Prod.mk.inj (Option.some.inj hc)
    rfl
  | publishEnabled id enabled =>
    show Sound (l.driver.publishEnabled id enabled)
    refine h.publish id _ fun c c' type hc => ?_
    obtain ⟨-, rfl⟩ := Prod.mk.inj (Option.some.inj hc)
    cases enabled <;> rfl
  | publishGenerations id resourceGeneration graphGeneration =>
    refine h.publish id _ fun c c' type hc => ?_
    split_ifs at hc
    obtain ⟨-, rfl⟩ := Prod.mk.inj (Option.some.inj hc)
    rfl
  | publishTelemetry id bypassReason =>
    refine h.publish id _ fun c c' type hc => ?_
    split_ifs at hc
    obtain ⟨-, rfl⟩ := Prod.mk.inj (Option.some.inj hc)
    rfl
  | unregister id =>
    show Sound (l.driver.unregister id)
    unfold Driver.unregister
    split_ifs
    · exact h
    · split
      · exact h
      · exact h.pend rfl
  | stamp i =>
    show Sound (l.driver.stamp i)
    unfold Driver.stamp
    split
    · exact h
    · rename_i p hp
      have hlife := h.pending p (List.mem_of_getElem? hp)
      refine ⟨fun q hq => h.pending q (List.mem_of_mem_eraseIdx hq), fun e he => ?_⟩
      simp only [List.mem_append, List.mem_singleton] at he
      rcases he with (he | rfl) | he
      · exact h.stamped e (List.mem_append_left _ he)
      · exact ⟨hlife, rfl, hshape.driver.sequence⟩
      · exact h.stamped e (List.mem_append_right _ he)
  | enqueue i =>
    show Sound (l.driver.enqueue i)
    unfold Driver.enqueue
    split
    · exact h
    · rename_i e he
      have hmem := List.mem_of_getElem? he
      split_ifs
      · exact ⟨h.pending, fun f hf => h.stamped f ((List.mem_append.mp hf).elim
          (fun hf => List.mem_append_left _ (List.mem_of_mem_eraseIdx hf)) (List.mem_append_right _))⟩
      · refine ⟨h.pending, fun f hf => h.stamped f ?_⟩
        simp only [List.mem_append, List.mem_singleton] at hf ⊢
        rcases hf with hf | hf | rfl
        · exact .inl (List.mem_of_mem_eraseIdx hf)
        · exact .inr hf
        · exact .inl hmem
  | touch id f =>
    show Sound (l.driver.touch id f)
    unfold Driver.touch
    split
    · exact h
    · exact ⟨h.pending, h.stamped⟩
  | collect =>
    show Sound l.driver.collect
    unfold Driver.collect
    split_ifs
    · exact ⟨h.pending, h.stamped⟩
    · exact h
  | hangup => exact hloss.elim
  | restart => exact hloss.elim
  | connect r =>
    show Sound (l.connect r).driver
    unfold connect
    by_cases hidle : l.driver.started ∧ l.driver.socket.isNone ∧ l.driver.replay.isNone
    · obtain ⟨socket, dropped, -, hd⟩ := sendStamped_driver l.openWire r { type := .driverHello } .live
      simp only [if_pos hidle]
      split_ifs
      · rw [setDriver_driver, hd]
        exact ⟨h.pending, h.stamped⟩
      · rw [hd]
        exact ⟨h.pending, h.stamped⟩
    · rw [if_neg hidle]
      exact h
  | replaySend r =>
    show Sound (l.replaySend r).driver
    unfold replaySend
    split
    · exact h
    · rename_i rp _
      split
      · exact ⟨h.pending, h.stamped⟩
      · rename_i e rest _
        obtain ⟨socket, dropped, -, hd⟩ := sendStamped_driver l r e (.replay rp.number)
        simp only [setDriver_driver, hd]
        exact ⟨h.pending, h.stamped⟩
  | drain r =>
    show Sound (l.drain r).driver
    unfold drain
    split_ifs
    · exact h
    · split
      · exact h
      · rename_i e rest hq
        obtain ⟨socket, dropped, -, hd⟩ := sendEvent_driver (l.setDriver { l.driver with queue := rest }) r
          ⟨e, .live, l.driver.phase⟩
        have hrest : ∀ f ∈ l.driver.stamped ++ rest, f ∈ l.driver.stamped ++ l.driver.queue := fun f hf => by
          simp only [hq, List.mem_append, List.mem_cons] at hf ⊢
          tauto
        simp only
        split_ifs
        · rw [hd]
          exact ⟨h.pending, fun f hf => h.stamped f (hrest f hf)⟩
        · rw [setDriver_driver, hd]
          exact ⟨h.pending, fun f hf => h.stamped f (by rw [hq]; exact hf)⟩
  | handle r =>
    show Sound (Link.handle a l r).driver
    unfold Link.handle
    split_ifs
    · exact h
    · split
      · exact h
      · rename_i w _
        split
        · exact h
        · exact ⟨h.pending, h.stamped⟩
        · rename_i c rest _
          unfold handleSnapshotCommand
          simp only
          split_ifs
          · exact ⟨h.pending, h.stamped⟩
          · obtain ⟨socket, dropped, -, hd⟩ := sendStamped_driver
              (((l.setWire w { l.wires w with down := rest }).setDriver { l.driver with
                contexts := (applySnapshotCommand a l.driver.contexts c).1 }).note (.handled c l.driver.contexts)) r
              (replyEvent c (applySnapshotCommand a l.driver.contexts c).2) (.reply c.ticket)
            exact hd ▸ ⟨h.pending, h.stamped⟩

/-! ## Every step, and every run -/

/-- everything the simulation rests on -/
structure Calm (l : Link α) : Prop where
  shape : l.Shape
  single : l.Single
  sound : Sound l.driver
  tracks : ∀ c, (l.track c).Inv

/-- **Every step of a lossless and orderly link is a step of every context's track.** -/
theorem step_track (a : Applier α) {l : Link α} (h : l.Calm) {op : Op α} (hloss : Lossless l op)
    (hord : Orderly l op) (c : ℕ) : Track.Step (l.track c) ((step a l op).track c) := by
  cases op with
  | daemon op =>
    have hd := stepDaemon_driver l op
    obtain ⟨-, hstream⟩ := stepDaemon_single h.single h.shape hloss
    have hsame := track_aside (l := l) (m := l.stepDaemon op) (c := c) (by rw [hd]) (by rw [hd]) (by rw [hd])
      (by rw [hd]) (by rw [hd]) (by rw [hd]) (by rw [hd]) (by rw [hd])
    show Track.Step (l.track c) ((l.stepDaemon op).track c)
    rw [hsame, eventual_congr hstream, hd]
    exact Track.Step.refl _
  | driver op =>
    cases op with
    | register audioSessionId ioId => exact track_register l a audioSessionId ioId h.shape.driver.ids c
    | publishConfigured id sampleRate channelMask =>
      refine track_publish l id _ (fun x x' type hx => ?_) c
      obtain ⟨rfl, rfl⟩ := Prod.mk.inj (Option.some.inj hx)
      exact Status.Changes.configured (statusOf x)
    | publishEnabled id enabled =>
      refine track_publish l id _ (fun x x' type hx => ?_) c
      obtain ⟨rfl, rfl⟩ := Prod.mk.inj (Option.some.inj hx)
      exact Status.Changes.switched (statusOf x) enabled
    | publishGenerations id resourceGeneration graphGeneration =>
      refine track_publish l id _ (fun x x' type hx => ?_) c
      split_ifs at hx
      obtain ⟨rfl, rfl⟩ := Prod.mk.inj (Option.some.inj hx)
      exact Status.Changes.generations (statusOf x)
    | publishTelemetry id bypassReason =>
      refine track_publish l id _ (fun x x' type hx => ?_) c
      split_ifs at hx
      obtain ⟨rfl, rfl⟩ := Prod.mk.inj (Option.some.inj hx)
      exact Status.Changes.telemetry (statusOf x)
    | unregister id => exact track_unregister l id c
    | stamp i => exact track_stamp l i hord c
    | enqueue i => exact track_enqueue l i hloss hord c
    | connect r =>
      obtain rfl : r = .sent := hloss
      exact track_connect h.shape c
    | hangup => exact hloss.elim
    | collect => exact track_collect l h.shape.driver c
    | replaySend r =>
      obtain rfl : r = .sent := hloss
      exact track_replaySend h.shape h.single c
    | drain r =>
      obtain rfl : r = .sent := hloss
      exact track_drain h.shape h.single h.sound (fun c => (h.tracks c).ok.live) c
    | handle r =>
      obtain rfl : r = .sent := hloss
      exact track_handle h.shape h.single a c
    | touch id f => exact track_touch l id f c
    | restart => exact hloss.elim

theorem step_calm (a : Applier α) {l : Link α} (h : l.Calm) {op : Op α} (hloss : Lossless l op)
    (hord : Orderly l op) : (step a l op).Calm where
  shape := step_shape a h.shape op
  single := by
    cases op with
    | driver op => exact stepDriver_single a h.single h.shape hloss
    | daemon op => exact (stepDaemon_single h.single h.shape hloss).1
  sound := by
    cases op with
    | driver op => exact stepDriver_sound a h.sound h.shape hloss
    | daemon op =>
      show Sound (l.stepDaemon op).driver
      rw [stepDaemon_driver]
      exact h.sound
  tracks := fun c => (step_track a h hloss hord c).inv (h.tracks c)

theorem init_calm (bootId : ℕ) : (init bootId : Link α).Calm where
  shape := init_shape bootId
  single := ⟨fun _ => ⟨rfl, rfl, rfl⟩, fun _ hw => by cases hw⟩
  sound := ⟨by simp [init], by simp [init]⟩
  tracks := fun c =>
    { ok :=
        { unborn := fun _ => ⟨rfl, rfl, rfl, rfl⟩
          fresh := by simp [track, init]
          seen := by simp [track, init, eventual, stream, line, seen, Registry.deliverAll]
          sorted := List.Pairwise.nil
          taken := List.Pairwise.nil
          known := by simp [track, init]
          newest := by simp [track, init]
          idle := fun _ => rfl
          confirming := by simp [track, init]
          births := .inl ⟨by simp [Track.Introduced, track, init], by simp [track, init]⟩
          live := by simp [Track.path, track, init] }
      dead := fun _ hb => by
        have hc : 0 < c ∧ c < 1 := by simpa [track, init] using hb
        omega
      alive := by simp [track, init] }

/-- **The track invariant holds over every lossless and orderly run.** -/
theorem run_calm (a : Applier α) {l : Link α} (h : l.Calm) (ops : List (Op α)) (hloss : Along Lossless a l ops)
    (hord : Along Orderly a l ops) : (run a l ops).Calm := by
  induction ops generalizing l with
  | nil => exact h
  | cons op ops ih => exact ih (step_calm a h hloss.1 hord.1) hloss.2 hord.2

end Link

open Link

/-- **Agreement on a lossless connection.** In every run on one connection without drops in which, for each context, a
release or an enable call taken after a collection is not stamped while that collection's event is unsent, no event
overtakes a release or an enable event on its way to the queue, and no enable call is stamped before an earlier call that
sets the state: once everything is delivered, the registry has exactly the publisher's contexts, and its state agrees
with the enabled flag of every context whose enable state was published and that was not configured since. -/
theorem registry_agrees {α : Type} (a : Applier α) (bootId : ℕ) (ops : List (Op α))
    (hloss : Link.Along Lossless a (init bootId) ops) (hord : Link.Along Orderly a (init bootId) ops)
    (hquiet : Quiescent (run a (init bootId) ops)) :
    (∀ c, ((run a (init bootId) ops).registry.contexts.get? ⟨bootId, c⟩).isSome ↔
      ((run a (init bootId) ops).driver.contexts.get? c).isSome) ∧
    ∀ c x, (run a (init bootId) ops).driver.contexts.get? c = some x → x.switched = true → x.reconfigured = false →
      ∃ entry, (run a (init bootId) ops).registry.contexts.get? ⟨bootId, c⟩ = some entry ∧
        entry.state = if x.record.enabled then .active else .inactive := by
  have hcalm := run_calm a (init_calm bootId) ops hloss hord
  have hheard := run_heard a bootId ops
  have hboot := run_bootId a bootId ops
  generalize run a (init bootId) ops = l at *
  obtain ⟨hun, hst, hq, -, hup⟩ := hquiet
  have hstream : l.stream = l.received := by
    have hnil : l.line.flatMap (fun w => (l.wires w).up) = [] := List.flatMap_eq_nil_iff.mpr hup
    rw [stream, hnil, List.append_nil]
  have hreg : l.eventual = l.registry := by rw [eventual, hstream, hheard]
  have hsettled : ∀ c, _ := fun c => (hcalm.tracks c).settled (by simp [Track.path, track, hun, hst, hq])
  simp only [track, seen, hreg, hboot, Option.isSome_map] at hsettled
  refine ⟨fun c => (hsettled c).1, fun c x hx hsw hre => ?_⟩
  obtain ⟨y, hy, hstate⟩ := (hsettled c).2 (statusOf x) (by simp [hx]) hsw hre
  obtain ⟨entry, hentry, rfl⟩ := Option.map_eq_some_iff.mp hy
  exact ⟨entry, hentry, hstate⟩

/-! ## Two runs -/

/-- a context appears, is enabled and configured in order, and everything is delivered -/
def enabledInOrder : List (Op Unit) :=
  [.driver (.register 5 6), .driver (.stamp 0), .driver (.enqueue 0), .driver (.connect .sent),
    .driver (.publishEnabled 1 true), .driver .collect, .driver (.stamp 0), .driver (.enqueue 0),
    .driver (.replaySend .sent), .driver (.replaySend .sent), .driver (.drain .sent), .driver (.drain .sent),
    .daemon .accept, .daemon (.recv true), .daemon (.recv true), .daemon (.recv true), .daemon (.recv true),
    .daemon (.recv true)]

theorem enabled_in_order_agrees :
    ((run inert (init 7) enabledInOrder).registry.contexts.get? ⟨7, 1⟩).map ContextEntry.state = some .active := by
  have hloss : Link.Along Lossless inert (init 7) enabledInOrder := by
    simp only [enabledInOrder, Link.Along, Lossless, and_true, true_and]
    decide
  have hord : Link.Along Orderly inert (init 7) enabledInOrder := by
    simp only [enabledInOrder, Link.Along, Orderly, and_true, true_and]
    decide
  have hquiet : Quiescent (run inert (init 7) enabledInOrder) := by
    unfold Quiescent
    decide
  obtain ⟨-, h⟩ := registry_agrees inert 7 enabledInOrder hloss hord hquiet
  obtain ⟨entry, hentry, hstate⟩ := h 1 _ rfl rfl rfl
  rw [hentry, Option.map_some, hstate]
  rfl

/-- the release is taken after the collection and stamped before the collected event is: the event overtakes it -/
def releaseOvertaken : List (Op Unit) :=
  [.driver (.register 5 6), .driver (.stamp 0), .driver (.enqueue 0), .driver (.connect .sent), .driver .collect,
    .driver (.unregister 1), .driver (.stamp 0), .driver (.enqueue 0), .driver (.replaySend .sent),
    .driver (.replaySend .sent), .driver (.drain .sent), .driver (.drain .sent), .daemon .accept, .daemon (.recv true),
    .daemon (.recv true), .daemon (.recv true), .daemon (.recv true), .daemon (.recv true)]

/-- without the order the property fails: the release is dropped as a duplicate and the dead context stays -/
theorem released_context_stays : ¬ ∀ ops : List (Op Unit), Link.Along Lossless inert (init 7) ops →
    Quiescent (run inert (init 7) ops) → ∀ c,
      (((run inert (init 7) ops).registry.contexts.get? ⟨7, c⟩).isSome ↔
        ((run inert (init 7) ops).driver.contexts.get? c).isSome) ∧
      ∀ x, (run inert (init 7) ops).driver.contexts.get? c = some x → x.switched = true →
        ∃ entry, (run inert (init 7) ops).registry.contexts.get? ⟨7, c⟩ = some entry ∧
          entry.state = if x.record.enabled then .active else .inactive := by
  intro h
  have hloss : Link.Along Lossless inert (init 7) releaseOvertaken := by
    simp only [releaseOvertaken, Link.Along, Lossless, and_true, true_and]
    decide
  have hquiet : Quiescent (run inert (init 7) releaseOvertaken) := by
    unfold Quiescent
    decide
  have hdead := (h releaseOvertaken hloss hquiet 1).1.mp (by decide)
  revert hdead
  decide

end ViperFx.Channel
