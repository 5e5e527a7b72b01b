/-
Reconciliation by replay: what the registry holds once it has applied the terminator of a rescan.

The frames of a replay reach the daemon as one block, so the terminator finds what the registry held before the block,
refreshed by those frames of it that were not dropped on the way. A context survives the terminator when its entry is not
stale at that point. Nothing marks entries stale when a connection is replaced, and a frame that lost the race against an
older sequence number refreshes nothing, so the outcome depends on what the registry held before.

Results:
  · run_heard                         : the registry is what the frames read so far make of it
  · Blocks.split_last                 : up to a terminator, the stream is what came before and the replay's own frames
  · replay_reconciles_iff             : exactly when a replay leaves the registry equal to the collected contexts
-/
import ViperFx.Channel.Stream

namespace ViperFx.Channel

open ViperFx.Core ViperFx.Protocol ViperFx.Daemon

namespace Link

variable {α : Type}

/-! ## The registry as a fold -/

/-- the registry is what the frames read since the daemon started make of it -/
def Heard (l : Link α) : Prop := l.registry = Registry.deliverAll {} (l.received.map Frame.event)

/-- answers to snapshot commands say nothing about contexts -/
theorem deliver_answer (r : Registry) {e : DriverEvent}
    (h : e.type = .snapshotAppliedAck ∨ e.type = .snapshotAppliedNack) : r.deliver e = r := by
  rcases h with h | h <;> simp [Registry.deliver, Registry.apply, isLifecycleEvent, h]

@[simp] theorem sendDown_registry (l : Link α) (frame : Down) (ok : Bool) :
    (l.sendDown frame ok).1.registry = l.registry := by
  unfold sendDown
  split
  · rfl
  · split_ifs <;> rfl

@[simp] theorem sendDown_received (l : Link α) (frame : Down) (ok : Bool) :
    (l.sendDown frame ok).1.received = l.received := by
  unfold sendDown
  split
  · rfl
  · split_ifs <;> rfl

theorem process_registry (l : Link α) (f : Frame) (rescanSent : Bool) :
    (l.process f rescanSent).registry = l.registry.deliver f.event := by
  unfold process
  simp only
  split_ifs with ha hg
  · exact (deliver_answer l.registry ha).symm
  · exact sendDown_registry _ _ _
  · rfl

theorem process_received (l : Link α) (f : Frame) (rescanSent : Bool) :
    (l.process f rescanSent).received = l.received := by
  unfold process
  simp only
  split_ifs with ha hg
  · rfl
  · exact sendDown_received _ _ _
  · rfl

theorem dropClient_heard {l : Link α} (h : l.Heard) : l.dropClient.Heard := by
  unfold Heard dropClient at *
  split <;> exact h

theorem recv_heard {l : Link α} (h : l.Heard) (rescanSent : Bool) : (l.recv rescanSent).1.Heard := by
  unfold recv
  split
  · exact h
  · rename_i w _
    split
    · rename_i f rest _
      unfold Heard
      rw [process_registry, process_received]
      simp only [setWire, List.map_append, Registry.deliverAll, List.foldl_append, List.map_cons, List.map_nil,
        List.foldl_cons, List.foldl_nil]
      rw [h]
      rfl
    · split_ifs
      · exact h
      · exact dropClient_heard h

theorem stepDaemon_heard {l : Link α} (h : l.Heard) (op : DaemonOp) : (l.stepDaemon op).Heard := by
  cases op with
  | accept =>
    show l.acceptPending.Heard
    unfold acceptPending
    split
    · exact h
    · exact dropClient_heard h
  | recv rescanSent => exact recv_heard h rescanSent
  | send c ok =>
    show (l.sendSnapshotCommand c ok).1.Heard
    unfold Heard sendSnapshotCommand at *
    simp only
    split_ifs <;> simpa using h
  | take => exact h
  | restart => rfl

/-- **The registry is a fold of what was read**, over every run. -/
theorem run_heard (a : Applier α) (bootId : ℕ) (ops : List (Op α)) : (run a (init bootId) ops).Heard := by
  suffices h : ∀ l : Link α, l.Heard → (run a l ops).Heard from h _ rfl
  induction ops with
  | nil => exact fun l h => h
  | cons op ops ih =>
    refine fun l h => ih _ ?_
    cases op with
    | driver op =>
      have hext := stepDriver_ext a l op
      exact hext.registry.trans (h.trans (by rw [← hext.received]; rfl))
    | daemon op => exact stepDaemon_heard h op

/-! ## One replay in the stream -/

/-- frames in order of phase, up to phase `m`: what is below `m`, and then what has phase `m` -/
theorem split_at_phase {s : List Frame} (h : s.Pairwise fun f g => Precedes f g.phase) {m : ℕ}
    (hle : ∀ f ∈ s, f.phase ≤ m) : s = s.filter (fun f => f.phase ≠ m) ++ s.filter (fun f => f.phase = m) := by
  induction s with
  | nil => rfl
  | cons f s ih =>
    have ih' := ih (List.Pairwise.of_cons h) (fun g hg => hle g (List.mem_cons_of_mem _ hg))
    by_cases hf : f.phase = m
    · -- everything behind `f` has phase `m` too
      have hall : ∀ g ∈ s, g.phase = m := fun g hg =>
        le_antisymm (hle g (List.mem_cons_of_mem _ hg)) (hf ▸ (List.rel_of_pairwise_cons h hg).1)
      have hnone : s.filter (fun g => g.phase ≠ m) = [] := by
        refine List.filter_eq_nil_iff.mpr fun g hg => ?_
        simp [hall g hg]
      rw [hnone, List.nil_append] at ih'
      simp only [List.filter_cons, hf, ne_eq, not_true_eq_false, decide_false, decide_true, if_true, hnone]
      simpa using ih'
    · simp only [List.filter_cons, hf, ne_eq, not_false_eq_true, decide_true, decide_false, if_true, List.cons_append]
      exact congrArg (f :: ·) ih'

theorem Good.tag_iff {d : Driver α} {f : Frame} (h : Good d f) (n : ℕ) : f.tag = .replay n ↔ f.phase = 2 * n + 1 := by
  unfold Good at h
  cases ht : f.tag with
  | replay m =>
    simp only [ht] at h
    rw [h.1]
    simp
  | live =>
    simp only [ht] at h
    constructor
    · intro hn; cases hn
    · intro hn; omega
  | reply ticket =>
    simp only [ht] at h
    constructor
    · intro hn; cases hn
    · intro hn; omega

theorem stepDaemon_driver (l : Link α) (op : DaemonOp) : (l.stepDaemon op).driver = l.driver := by
  have hdown : ∀ (l : Link α) frame ok, (l.sendDown frame ok).1.driver = l.driver := fun l frame ok => by
    unfold sendDown
    split
    · rfl
    · split_ifs <;> rfl
  have hdrop : ∀ l : Link α, l.dropClient.driver = l.driver := fun l => by
    unfold dropClient
    split <;> rfl
  cases op with
  | accept =>
    show l.acceptPending.driver = _
    unfold acceptPending
    split
    · rfl
    · exact hdrop l
  | recv rescanSent =>
    show (l.recv rescanSent).1.driver = _
    unfold recv
    split
    · rfl
    · split
      · unfold process
        simp only
        split_ifs
        · rfl
        · exact hdown _ _ _
        · rfl
      · split_ifs
        · rfl
        · exact hdrop l
  | send c ok =>
    show (l.sendSnapshotCommand c ok).1.driver = _
    unfold sendSnapshotCommand
    simp only
    split_ifs <;> exact hdown _ _ _
  | take => rfl
  | restart => rfl

theorem run_bootId (a : Applier α) (bootId : ℕ) (ops : List (Op α)) :
    (run a (init bootId) ops).driver.bootId = bootId := by
  suffices h : ∀ l : Link α, (run a l ops).driver.bootId = l.driver.bootId from h _
  induction ops with
  | nil => exact fun l => rfl
  | cons op ops ih =>
    refine fun l => (ih _).trans ?_
    cases op with
    | driver op => exact (stepDriver_ext a l op).bootId
    | daemon op => exact congrArg Driver.bootId (stepDaemon_driver l op)

/-- the registry as it was before the frames of replay `n` -/
def registryBefore (l : Link α) (n : ℕ) : Registry :=
  Registry.deliverAll {} ((l.received.filter fun f => f.tag ≠ .replay n).map Frame.event)

/-- the frames of replay `n` that were read -/
def replayed (l : Link α) (n : ℕ) : List Frame := l.received.filter fun f => f.tag = .replay n

/-- what is known when a frame of replay `n` is the next to be read: the rest of the block is behind us, in one piece,
and none of it was a terminator -/
theorem Shape.replay_block {l : Link α} (h : l.Shape) {w n : ℕ} {t : Frame} {post : List Frame}
    (hclient : l.client = some w) (hup : (l.wires w).up = t :: post) (htag : t.tag = .replay n) :
    l.received = (l.received.filter fun f => f.tag ≠ .replay n) ++ l.replayed n ∧
      ∀ f ∈ l.replayed n, Good l.driver f ∧ f.event.contextInstanceId ≠ 0 := by
  have hsub : (l.received ++ [t]).Sublist l.stream := by
    refine List.Sublist.append_left ?_ _
    have hline : l.line = w :: l.backlog := by simp [line, hclient]
    rw [hline, List.flatMap_cons, hup]
    exact List.singleton_sublist.mpr (by simp)
  have hgood : ∀ f ∈ l.received ++ [t], Good l.driver f := fun f hf => h.blocks.good f (hsub.subset hf)
  have hsorted := h.blocks.sorted.sublist hsub
  have hphase : t.phase = 2 * n + 1 := ((hgood t (by simp)).tag_iff n).mp htag
  rw [List.pairwise_append] at hsorted
  obtain ⟨hrecv, -, hlast⟩ := hsorted
  have hle : ∀ f ∈ l.received, Precedes f (2 * n + 1) := fun f hf => hphase ▸ hlast f hf t (by simp)
  have hiff : ∀ f ∈ l.received, (f.tag = .replay n ↔ f.phase = 2 * n + 1) :=
    fun f hf => (hgood f (List.mem_append_left _ hf)).tag_iff n
  constructor
  · have hsplit := split_at_phase hrecv (fun f hf => (hle f hf).1)
    have h₁ : l.received.filter (fun f => f.phase ≠ 2 * n + 1) = l.received.filter fun f => f.tag ≠ .replay n :=
      List.filter_congr fun f hf => by simp [hiff f hf]
    have h₂ : l.received.filter (fun f => f.phase = 2 * n + 1) = l.replayed n :=
      List.filter_congr fun f hf => by simp [hiff f hf]
    rwa [h₁, h₂] at hsplit
  · intro f hf
    obtain ⟨hmem, ht⟩ := List.mem_filter.mp hf
    have hp := (hiff f hmem).mp (by simpa using ht)
    exact ⟨hgood f (List.mem_append_left _ hmem), (hle f hmem).2 hp (by omega)⟩

end Link

open Link

/-- the keys of the registry are the contexts in `roster`, all of this boot -/
def Reconciled (r : Registry) (bootId : ℕ) (roster : List ℕ) : Prop :=
  ∀ k, (r.contexts.get? k).isSome ↔ ∃ c ∈ roster, k = ⟨bootId, c⟩

/-- **Exactly when a replay reconciles.** In every run, with any drops, broken connections and restarts: once the
terminator of replay `n` is applied, the registry holds exactly the contexts of collection `n` if and only if, before
the frames of that replay, every entry that was not stale belonged to a collected context, and every collected context
had such an entry or has a frame of the replay read with a sequence above the one the registry had for it. -/
theorem replay_reconciles_iff {α : Type} (a : Applier α) (bootId : ℕ) (ops : List (Op α)) (w n : ℕ) (t : Frame)
    (post : List Frame) (roster : List ℕ) (rescanSent : Bool)
    (hclient : (run a (init bootId) ops).client = some w)
    (hup : ((run a (init bootId) ops).wires w).up = t :: post) (htag : t.tag = .replay n)
    (hterm : isTerminator t.event = true)
    (hroster : (run a (init bootId) ops).driver.collections[n]? = some roster) :
    Reconciled (step a (run a (init bootId) ops) (.daemon (.recv rescanSent))).registry bootId roster ↔
      (∀ k, ((run a (init bootId) ops).registryBefore n).Confirmed k → ∃ c ∈ roster, k = ⟨bootId, c⟩) ∧
      ∀ c ∈ roster, ((run a (init bootId) ops).registryBefore n).Confirmed ⟨bootId, c⟩ ∨
        ∃ f ∈ (run a (init bootId) ops).replayed n, f.event.contextInstanceId = c ∧
          ((run a (init bootId) ops).registryBefore n).Admits ⟨bootId, c⟩ f.event.eventSequence := by
  have hshape := run_shape a bootId ops
  have hheard := run_heard a bootId ops
  have hboot := run_bootId a bootId ops
  generalize run a (init bootId) ops = l at *
  obtain ⟨hsplit, hblock⟩ := hshape.replay_block hclient hup htag
  -- every frame of the block is about a collected context of this boot
  have hframe : ∀ f ∈ l.replayed n, f.event.type = .rescanResponse ∧ f.event.bootId = bootId ∧
      0 < f.event.eventSequence ∧ f.event.contextInstanceId ∈ roster := by
    intro f hf
    obtain ⟨hg, hid⟩ := hblock f hf
    have hft : f.tag = .replay n := by simpa using (List.mem_filter.mp hf).2
    simp only [Good, hft] at hg
    obtain ⟨-, hty, hb, hs, roster', hr', -, hc⟩ := hg
    obtain rfl : roster = roster' := Option.some.inj (hroster.symm.trans hr')
    exact ⟨hty, hb.trans hboot, hs, hc.resolve_left hid⟩
  -- the terminator keeps what the block confirms
  have hreg : l.registry = (l.registryBefore n).deliverAll ((l.replayed n).map Frame.event) := by
    rw [hheard, registryBefore, Registry.deliverAll, Registry.deliverAll, Registry.deliverAll, ← List.foldl_append,
      ← List.map_append, ← hsplit]
  have hkeys : ∀ k, ((step a l (.daemon (.recv rescanSent))).registry.contexts.get? k).isSome ↔
      (l.registryBefore n).Confirmed k ∨
        ∃ f ∈ l.replayed n, keyOf f.event = k ∧ (l.registryBefore n).Admits k f.event.eventSequence := by
    intro k
    have hstep : (step a l (.daemon (.recv rescanSent))).registry = l.registry.deliver t.event := by
      show (l.recv rescanSent).1.registry = _
      unfold recv
      simp only [hclient, hup]
      exact process_registry _ _ _
    rw [hstep, Registry.deliver_terminator (hheard ▸ Registry.deliverAll_inv Registry.inv_init _) hterm, hreg,
      Registry.deliverAll_confirmed (by simpa using fun f hf => (hframe f hf).1)
        (by simpa using fun f hf => (hblock f hf).2) (by simpa using fun f hf => (hframe f hf).2.2.1)]
    simp
  constructor
  · intro h
    refine ⟨fun k hk => (h k).mp ((hkeys k).mpr (.inl hk)), fun c hc => ?_⟩
    rcases (hkeys _).mp ((h ⟨bootId, c⟩).mpr ⟨c, hc, rfl⟩) with hk | ⟨f, hf, hkey, hadm⟩
    · exact .inl hk
    · exact .inr ⟨f, hf, congrArg ContextKey.contextInstanceId hkey, hadm⟩
  · rintro ⟨hdead, hlive⟩ k
    rw [hkeys]
    constructor
    · rintro (hk | ⟨f, hf, rfl, -⟩)
      · exact hdead k hk
      · obtain ⟨-, hb, -, hc⟩ := hframe f hf
        exact ⟨_, hc, by rw [keyOf, hb]⟩
    · rintro ⟨c, hc, rfl⟩
      rcases hlive c hc with hk | ⟨f, hf, hid, hadm⟩
      · exact .inl hk
      · obtain ⟨-, hb, -⟩ := hframe f hf
        exact .inr ⟨f, hf, by rw [keyOf, hb, hid], hadm⟩

/-! ## Two runs -/

/-- contexts that take no commands -/
def inert : Applier Unit := ⟨(), fun _ _ => ((), {})⟩

/-- a context appears, the driver connects, and everything up to the terminator is read -/
def firstReplay : List (Op Unit) :=
  [.driver (.register 5 6), .driver (.stamp 0), .driver (.enqueue 0), .driver (.connect .sent), .driver .collect,
    .driver (.replaySend .sent), .driver (.replaySend .sent), .daemon .accept, .daemon (.recv true),
    .daemon (.recv true)]

/-- a daemon that starts with an empty registry is told about the one context there is -/
theorem first_replay_reconciles :
    Reconciled (step inert (run inert (init 7) firstReplay) (.daemon (.recv true))).registry 7 [1] := by
  refine (replay_reconciles_iff inert 7 firstReplay 0 0
    ⟨{ type := .rescanResponse, bootId := 7, eventSequence := 4 }, .replay 0, 1⟩ [] [1] true
    (by decide) (by decide) (by decide) (by decide) (by decide)).mpr ⟨fun k hk => ?_, fun c hc => .inr ?_⟩
  · obtain ⟨entry, hg, -⟩ := hk
    cases hg
  · refine ⟨⟨{ makeEvent .rescanResponse 1 { audioSessionId := 5, ioId := 6 } with bootId := 7, eventSequence := 3 },
      .replay 0, 1⟩, by decide, (List.mem_singleton.mp hc).symm, fun entry hg => ?_⟩
    cases hg

/-- the calls that publish a lifecycle event, and the restart that starts publishing anew -/
def publishes : Op Unit → Bool
  | .driver (.register _ _) | .driver (.publishConfigured _ _ _) | .driver (.publishEnabled _ _)
  | .driver (.publishGenerations _ _ _) | .driver (.publishTelemetry _ _) | .driver (.unregister _)
  | .driver .restart => true
  | _ => false

/-- the release of the context is dropped on a full socket, the driver reconnects and collects nothing -/
def lostRelease : List (Op Unit) :=
  firstReplay ++ [.daemon (.recv true), .driver (.unregister 1), .driver (.stamp 0), .driver (.enqueue 0),
    .driver (.drain .sent), .driver (.drain .again), .driver .hangup, .daemon (.recv true), .daemon (.recv true),
    .driver (.connect .sent)]

/-- the dead context survives the replay: its entry was never marked stale -/
theorem dead_context_survives : ¬ ∀ (before after : List (Op Unit)) (w : ℕ) (t : Frame) (post : List Frame),
    (run inert (init 7) before).driver.replay = none →
    (run inert (init 7) before).driver.rescanRequested = true →
    (run inert (init 7) before).driver.socket.isSome = true →
    (∀ op ∈ after, publishes op = false) →
    (run inert (init 7) (before ++ .driver .collect :: after)).client = some w →
    ((run inert (init 7) (before ++ .driver .collect :: after)).wires w).up = t :: post →
    t.tag = .replay (run inert (init 7) before).driver.collections.length → isTerminator t.event = true →
    Reconciled (step inert (run inert (init 7) (before ++ .driver .collect :: after)) (.daemon (.recv true))).registry 7
      (run inert (init 7) before).driver.contexts.keys := by
  intro h
  have hfail := h lostRelease [.driver (.replaySend .sent), .daemon .accept, .daemon (.recv true)] 1
    ⟨{ type := .rescanResponse, bootId := 7, eventSequence := 7 }, .replay 1, 3⟩ []
    (by decide) (by decide) (by decide) (by decide) (by decide) (by decide) (by decide) (by decide)
  have hkey := (hfail ⟨7, 1⟩).mp (by decide)
  revert hkey
  decide

end ViperFx.Channel
