/-
The frames on their way to the daemon, over every run of the link.

The bridge thread has one connection at a time and the daemon reads connections in the order they were made, so all the
frames the daemon has read or may still read form one stream, and a send adds to its end. Between a collection and its
terminator the bridge thread sends nothing else, so in the stream the frames of one replay form a block. Dropped frames
make the block shorter, and the daemon cannot tell. The phases written on the frames make "one block" a statement about
sorted numbers.

Results:
  · sendEvent_cases, stepDriver_ext   : what the daemon can see of a driver step
  · Wired.stream_append               : a send adds to the end of the stream
  · step_shape, run_shape             : the stream is a sequence of blocks, over every run
-/
import ViperFx.Channel.Machine

namespace ViperFx.Channel

open ViperFx.Core ViperFx.Protocol ViperFx.Daemon

/-! ## What one send can do -/

namespace Link

variable {α : Type}

@[simp] theorem setDriver_driver (l : Link α) (d : Driver α) : (l.setDriver d).driver = d := rfl
@[simp] theorem setDriver_wires (l : Link α) (d : Driver α) : (l.setDriver d).wires = l.wires := rfl
@[simp] theorem note_driver (l : Link α) (n : Note α) : (l.note n).driver = l.driver := rfl
@[simp] theorem note_wires (l : Link α) (n : Note α) : (l.note n).wires = l.wires := rfl
@[simp] theorem setWire_driver (l : Link α) (w : ℕ) (x : Wire) : (l.setWire w x).driver = l.driver := rfl
@[simp] theorem setWire_self (l : Link α) (w : ℕ) (x : Wire) : (l.setWire w x).wires w = x := by simp [setWire]

theorem setWire_ne (l : Link α) {w v : ℕ} (x : Wire) (h : v ≠ w) : (l.setWire w x).wires v = l.wires v := by
  simp [setWire, h]

/-- closing the driver's end loses no frame that is already on its way to the daemon -/
@[simp] theorem closeConnection_up (l : Link α) (v : ℕ) : (l.closeConnection.wires v).up = (l.wires v).up := by
  unfold closeConnection
  split
  · rfl
  · rename_i w _
    by_cases h : v = w
    · subst h; simp
    · simp [setWire_ne l _ h]

/-- a send appends its frame to the connection, or drops it, or closes the connection -/
theorem sendEvent_cases (l : Link α) (r : SendResult) (f : Frame) :
    (l.driver.socket = none ∧ l.sendEvent r f = (l, false)) ∨
    (∃ w, l.driver.socket = some w ∧ (l.wires w).daemonOpen = true ∧ r = .sent ∧
      l.sendEvent r f = (l.setWire w { l.wires w with up := (l.wires w).up ++ [f] }, true)) ∨
    (∃ w, l.driver.socket = some w ∧ r = .again ∧ l.sendEvent r f =
      (l.setDriver { l.driver with droppedEvents := l.driver.droppedEvents + 1 }, true)) ∨
    (∃ w, l.driver.socket = some w ∧ (r = .broken ∨ (l.wires w).daemonOpen = false) ∧
      l.sendEvent r f = (l.closeConnection, false)) := by
  cases hs : l.driver.socket with
  | none => exact .inl ⟨rfl, by simp [sendEvent, hs]⟩
  | some w =>
    refine .inr ?_
    cases ho : (l.wires w).daemonOpen with
    | false => exact .inr (.inr ⟨w, rfl, .inr ho, by simp [sendEvent, hs, ho]⟩)
    | true =>
      cases r with
      | sent => exact .inl ⟨w, rfl, ho, rfl, by simp [sendEvent, hs, ho]⟩
      | again => exact .inr (.inl ⟨w, rfl, rfl, by simp [sendEvent, hs, ho]⟩)
      | broken => exact .inr (.inr ⟨w, rfl, .inl rfl, by simp [sendEvent, hs, ho]⟩)

/-- what the daemon can see of a driver step: its own end is untouched, every connection may gain frames towards the
daemon and lose frames towards the driver, and open ends may close -/
structure Ext (l l' : Link α) : Prop where
  client : l'.client = l.client
  registry : l'.registry = l.registry
  received : l'.received = l.received
  outcome : l'.outcome = l.outcome
  sent : l'.sent = l.sent
  bootId : l'.driver.bootId = l.driver.bootId
  nextWire : l.nextWire ≤ l'.nextWire
  backlog : ∃ more, l'.backlog = l.backlog ++ more ∧ ∀ w ∈ more, l.nextWire ≤ w
  trace : ∃ notes, l'.trace = notes ++ l.trace
  up : ∀ w < l.nextWire, ∃ more, (l'.wires w).up = (l.wires w).up ++ more
  down : ∀ w < l.nextWire, ∃ k, (l'.wires w).down = (l.wires w).down.drop k
  daemonOpen : ∀ w < l.nextWire, (l'.wires w).daemonOpen = (l.wires w).daemonOpen
  driverOpen : ∀ w < l.nextWire, (l'.wires w).driverOpen = true → (l.wires w).driverOpen = true

theorem Ext.of_driver (l : Link α) (d : Driver α) (h : d.bootId = l.driver.bootId) : Ext l (l.setDriver d) :=
  { client := rfl, registry := rfl, received := rfl, outcome := rfl, sent := rfl, bootId := h, nextWire := le_rfl,
    backlog := ⟨[], (List.append_nil _).symm, by simp⟩, trace := ⟨[], rfl⟩, up := fun _ _ => ⟨[], by simp⟩,
    down := fun _ _ => ⟨0, rfl⟩, daemonOpen := fun _ _ => rfl, driverOpen := fun _ _ h => h }

theorem Ext.refl (l : Link α) : Ext l l := Ext.of_driver l l.driver rfl

theorem Ext.trans {l₁ l₂ l₃ : Link α} (h : Ext l₁ l₂) (h' : Ext l₂ l₃) : Ext l₁ l₃ where
  client := h'.client.trans h.client
  registry := h'.registry.trans h.registry
  received := h'.received.trans h.received
  outcome := h'.outcome.trans h.outcome
  sent := h'.sent.trans h.sent
  bootId := h'.bootId.trans h.bootId
  nextWire := h.nextWire.trans h'.nextWire
  backlog := by
    obtain ⟨m, hm, hf⟩ := h.backlog
    obtain ⟨m', hm', hf'⟩ := h'.backlog
    refine ⟨m ++ m', by rw [hm', hm, List.append_assoc], fun w hw => ?_⟩
    rcases List.mem_append.mp hw with hw | hw
    · exact hf w hw
    · exact h.nextWire.trans (hf' w hw)
  trace := by
    obtain ⟨n, hn⟩ := h.trace
    obtain ⟨n', hn'⟩ := h'.trace
    exact ⟨n' ++ n, by rw [hn', hn, List.append_assoc]⟩
  up := fun w hw => by
    obtain ⟨m, hm⟩ := h.up w hw
    obtain ⟨m', hm'⟩ := h'.up w (lt_of_lt_of_le hw h.nextWire)
    exact ⟨m ++ m', by rw [hm', hm, List.append_assoc]⟩
  down := fun w hw => by
    obtain ⟨k, hk⟩ := h.down w hw
    obtain ⟨k', hk'⟩ := h'.down w (lt_of_lt_of_le hw h.nextWire)
    exact ⟨k + k', by rw [hk', hk, List.drop_drop]⟩
  daemonOpen := fun w hw => (h'.daemonOpen w (lt_of_lt_of_le hw h.nextWire)).trans (h.daemonOpen w hw)
  driverOpen := fun w hw ho => h.driverOpen w hw (h'.driverOpen w (lt_of_lt_of_le hw h.nextWire) ho)

/-- a change of one connection within what a driver step may do to it -/
theorem Ext.of_wire (l : Link α) (w : ℕ) (x : Wire) (hup : ∃ more, x.up = (l.wires w).up ++ more)
    (hdown : ∃ k, x.down = (l.wires w).down.drop k) (hd : x.daemonOpen = (l.wires w).daemonOpen)
    (ho : x.driverOpen = true → (l.wires w).driverOpen = true) : Ext l (l.setWire w x) :=
  { Ext.refl l with
    up := fun v _ => by
      by_cases h : v = w
      · subst h; simpa using hup
      · exact ⟨[], by simp [setWire_ne l x h]⟩
    down := fun v _ => by
      by_cases h : v = w
      · subst h; simpa using hdown
      · exact ⟨0, by simp [setWire_ne l x h]⟩
    daemonOpen := fun v _ => by
      by_cases h : v = w
      · subst h; simpa using hd
      · simp [setWire_ne l x h]
    driverOpen := fun v _ => by
      by_cases h : v = w
      · subst h; simpa using ho
      · simp [setWire_ne l x h] }

theorem closeConnection_ext (l : Link α) : Ext l l.closeConnection := by
  unfold closeConnection
  split
  · exact Ext.refl l
  · rename_i w _
    refine (Ext.of_wire l w { l.wires w with driverOpen := false } ⟨[], by simp⟩ ⟨0, rfl⟩ rfl (by simp)).trans ?_
    exact Ext.of_driver _ _ rfl

theorem sendEvent_ext (l : Link α) (r : SendResult) (f : Frame) : Ext l (l.sendEvent r f).1 := by
  obtain ⟨-, hb⟩ | ⟨w, -, -, -, hb⟩ | ⟨w, -, -, hb⟩ | ⟨w, -, -, hb⟩ := sendEvent_cases l r f
  · rw [hb]; exact Ext.refl l
  · rw [hb]; exact Ext.of_wire l w _ ⟨[f], rfl⟩ ⟨0, rfl⟩ rfl id
  · rw [hb]; exact Ext.of_driver l _ rfl
  · rw [hb]; exact closeConnection_ext l

theorem sendStamped_ext (l : Link α) (r : SendResult) (e : DriverEvent) (tag : Tag) :
    Ext l (l.sendStamped r e tag).1 :=
  (Ext.of_driver l { l.driver with nextSequence := l.driver.nextSequence + 1 } rfl).trans (sendEvent_ext _ r _)

/-- a new connection changes nothing about the old ones -/
theorem openWire_ext (l : Link α) : Ext l l.openWire := by
  have hold : ∀ w < l.nextWire, l.openWire.wires w = l.wires w :=
    fun w hw => setWire_ne l _ (Nat.ne_of_lt hw)
  exact
    { Ext.refl l with
      nextWire := Nat.le_succ _
      backlog := ⟨[l.nextWire], rfl, by simp⟩
      up := fun w hw => ⟨[], by simp [hold w hw]⟩
      down := fun w hw => ⟨0, by simp [hold w hw]⟩
      daemonOpen := fun w hw => by simp [hold w hw]
      driverOpen := fun w hw => by simp [hold w hw] }

theorem note_ext (l : Link α) (n : Note α) : Ext l (l.note n) := { Ext.refl l with trace := ⟨[n], rfl⟩ }

theorem connect_ext (l : Link α) (r : SendResult) : Ext l (l.connect r) := by
  unfold connect
  simp only
  have h := (openWire_ext l).trans (sendStamped_ext l.openWire r { type := .driverHello } .live)
  split_ifs
  · exact h.trans (Ext.of_driver _ _ rfl)
  · exact h
  · exact Ext.refl l

theorem replaySend_ext (l : Link α) (r : SendResult) : Ext l (l.replaySend r) := by
  unfold replaySend
  split
  · exact Ext.refl l
  · split
    · exact Ext.of_driver l _ rfl
    · exact (sendStamped_ext l r _ _).trans (Ext.of_driver _ _ rfl)

theorem drain_ext (l : Link α) (r : SendResult) : Ext l (l.drain r) := by
  unfold drain
  split_ifs
  · exact Ext.refl l
  · split
    · exact Ext.refl l
    · rename_i e rest _
      have h := (Ext.of_driver l { l.driver with queue := rest } rfl).trans
        (sendEvent_ext _ r ⟨e, .live, l.driver.phase⟩)
      simp only
      split_ifs
      · exact h
      · exact h.trans (Ext.of_driver _ _ rfl)

theorem handleSnapshotCommand_ext (a : Applier α) (l : Link α) (c : Command) (r : SendResult) :
    Ext l (handleSnapshotCommand a l c r) := by
  unfold handleSnapshotCommand
  simp only
  have h := (Ext.of_driver l { l.driver with contexts := (applySnapshotCommand a l.driver.contexts c).1 } rfl).trans
    (note_ext _ (.handled c l.driver.contexts))
  split_ifs
  · exact h
  · exact h.trans (sendStamped_ext _ r _ _)

theorem handle_ext (a : Applier α) (l : Link α) (r : SendResult) : Ext l (handle a l r) := by
  unfold handle
  split_ifs
  · exact Ext.refl l
  · split
    · exact Ext.refl l
    · rename_i w _
      split
      · exact Ext.refl l
      · rename_i rest hdown
        exact (Ext.of_wire l w { l.wires w with down := rest } ⟨[], by simp⟩ ⟨1, by simp [hdown]⟩ rfl id).trans
          (Ext.of_driver _ _ rfl)
      · rename_i c rest hdown
        exact (Ext.of_wire l w { l.wires w with down := rest } ⟨[], by simp⟩ ⟨1, by simp [hdown]⟩ rfl id).trans
          (handleSnapshotCommand_ext a _ c r)

theorem publish_bootId (d : Driver α) (id : ℕ)
    (change : DriverContext α → Option (DriverContext α × DriverEventType)) : (d.publish id change).bootId = d.bootId := by
  unfold Driver.publish
  split_ifs
  · rfl
  · split
    · rfl
    · split <;> rfl

/-- **The daemon's view of a driver step.** -/
theorem stepDriver_ext (a : Applier α) (l : Link α) (op : DriverOp α) : Ext l (stepDriver a l op) := by
  cases op with
  | register audioSessionId ioId =>
    exact (Ext.of_driver l (l.driver.register a.fresh audioSessionId ioId) rfl).trans (note_ext _ _)
  | publishConfigured id sampleRate channelMask => exact Ext.of_driver l _ (publish_bootId _ _ _)
  | publishEnabled id enabled => exact Ext.of_driver l _ (publish_bootId _ _ _)
  | publishGenerations id resourceGeneration graphGeneration => exact Ext.of_driver l _ (publish_bootId _ _ _)
  | publishTelemetry id bypassReason => exact Ext.of_driver l _ (publish_bootId _ _ _)
  | unregister id =>
    refine Ext.of_driver l _ ?_
    unfold Driver.unregister
    split_ifs
    · rfl
    · split <;> rfl
  | stamp i =>
    refine Ext.of_driver l _ ?_
    unfold Driver.stamp
    split <;> rfl
  | enqueue i =>
    refine Ext.of_driver l _ ?_
    unfold Driver.enqueue
    split
    · rfl
    · split_ifs <;> rfl
  | collect =>
    refine Ext.of_driver l _ ?_
    unfold Driver.collect
    split_ifs <;> rfl
  | connect r => exact connect_ext l r
  | hangup =>
    show Ext l l.hangup
    unfold hangup
    split_ifs
    · exact closeConnection_ext l
    · exact Ext.refl l
  | replaySend r => exact replaySend_ext l r
  | drain r => exact drain_ext l r
  | handle r => exact handle_ext a l r
  | touch id f =>
    refine Ext.of_driver l _ ?_
    unfold Driver.touch
    split <;> rfl
  | restart =>
    have h := closeConnection_ext l
    exact (h.trans (Ext.of_driver _ { bootId := l.driver.bootId, collections := l.driver.collections }
      h.bootId.symm)).trans (note_ext _ _)

/-! ## The stream of frames -/

/-- the connections the daemon holds, in the order it will read them -/
def line (l : Link α) : List ℕ := l.client.toList ++ l.backlog

/-- every frame the daemon has read, or may still read, in that order -/
def stream (l : Link α) : List Frame := l.received ++ l.line.flatMap fun w => (l.wires w).up

/-- the driver holds the newest connection, and the daemon reads connections in the order they were made -/
structure Wired (l : Link α) : Prop where
  sorted : l.line.Pairwise (· < ·)
  old : ∀ w ∈ l.line, w < l.nextWire
  isOpen : ∀ w ∈ l.line, (l.wires w).daemonOpen = true
  newest : ∀ w, l.driver.socket = some w → w + 1 = l.nextWire
  held : ∀ w, l.driver.socket = some w → (l.wires w).daemonOpen = true → w ∈ l.line

theorem Wired.line_eq {l : Link α} (h : l.Wired) {w : ℕ} (hs : l.driver.socket = some w)
    (ho : (l.wires w).daemonOpen = true) : ∃ front, l.line = front ++ [w] ∧ w ∉ front := by
  obtain ⟨front, back, hl⟩ := List.append_of_mem (h.held w hs ho)
  have hsorted := h.sorted
  rw [hl, List.pairwise_append, List.pairwise_cons] at hsorted
  obtain ⟨-, ⟨hback, -⟩, hfront⟩ := hsorted
  have hnil : back = [] := by
    refine List.eq_nil_iff_forall_not_mem.mpr fun v hv => ?_
    have h₁ := hback v hv
    have h₂ := h.old v (by simp [hl, hv])
    have h₃ := h.newest w hs
    omega
  subst hnil
  exact ⟨front, hl, fun hw => Nat.lt_irrefl w (hfront w hw w (by simp))⟩

/-- a frame on the newest connection is the last of the stream -/
theorem Wired.stream_append {l : Link α} (h : l.Wired) {w : ℕ} (hs : l.driver.socket = some w)
    (ho : (l.wires w).daemonOpen = true) (f : Frame) :
    (l.setWire w { l.wires w with up := (l.wires w).up ++ [f] }).stream = l.stream ++ [f] := by
  obtain ⟨front, hl, hw⟩ := h.line_eq hs ho
  have hl' : (l.setWire w { l.wires w with up := (l.wires w).up ++ [f] }).line = front ++ [w] := hl
  have hfront : front.flatMap (fun v => ((l.setWire w { l.wires w with up := (l.wires w).up ++ [f] }).wires v).up) =
      front.flatMap (fun v => (l.wires v).up) := by
    refine List.flatMap_congr fun v hv => ?_
    have hne : v ≠ w := by
      rintro rfl
      exact hw hv
    rw [setWire_ne l _ hne]
  unfold stream
  rw [hl', hl, List.flatMap_append, List.flatMap_append, hfront]
  simp [setWire]

/-! ## Blocks -/

/-- a frame of a replay is marked with the replay's phase and describes one of the contexts it collected, or ends it -/
def Good (d : Driver α) (f : Frame) : Prop :=
  match f.tag with
  | .replay n => f.phase = 2 * n + 1 ∧ f.event.type = .rescanResponse ∧ f.event.bootId = d.bootId ∧
      0 < f.event.eventSequence ∧ ∃ roster, d.collections[n]? = some roster ∧ 0 ∉ roster ∧
      (f.event.contextInstanceId = 0 ∨ f.event.contextInstanceId ∈ roster)
  | _ => f.phase % 2 = 0

/-- `f` may stand before what is sent in this phase: it is not later, and it has not ended the phase's replay -/
def Precedes (f : Frame) (phase : ℕ) : Prop :=
  f.phase ≤ phase ∧ (f.phase = phase → phase % 2 = 1 → f.event.contextInstanceId ≠ 0)

theorem Precedes.mono {f : Frame} {p q : ℕ} (h : Precedes f p) (hpq : p ≤ q) : Precedes f q := by
  refine ⟨h.1.trans hpq, fun hq hodd => h.2 (le_antisymm h.1 (hq ▸ hpq)) ?_⟩
  have := h.1
  obtain rfl : p = q := by omega
  exact hodd

/-- what the stream of a run looks like: good frames in order of phase, and nothing of a replay behind its terminator -/
structure Blocks (d : Driver α) (s : List Frame) : Prop where
  good : ∀ f ∈ s, Good d f
  sorted : s.Pairwise fun f g => Precedes f g.phase
  bound : ∀ f ∈ s, Precedes f d.phase

/-- the driver moves on: collections are only ever added, and the phase grows -/
structure Later (d d' : Driver α) : Prop where
  bootId : d'.bootId = d.bootId
  phase : d.phase ≤ d'.phase
  collections : d.collections <+: d'.collections

theorem Good.later {d d' : Driver α} {f : Frame} (h : Good d f) (hl : Later d d') : Good d' f := by
  unfold Good at h ⊢
  cases ht : f.tag with
  | replay n =>
    simp only [ht] at h ⊢
    obtain ⟨hp, hty, hb, hs, roster, hr, hz, hc⟩ := h
    obtain ⟨more, hmore⟩ := hl.collections
    refine ⟨hp, hty, hb.trans hl.bootId.symm, hs, roster, ?_, hz, hc⟩
    rw [← hmore, List.getElem?_append_left (List.getElem?_eq_some_iff.mp hr).1, hr]
  | live => simpa only [ht] using h
  | reply ticket => simpa only [ht] using h

theorem Blocks.mono {d d' : Driver α} {s s' : List Frame} (h : Blocks d s) (hs : s'.Sublist s) (hl : Later d d') :
    Blocks d' s' where
  good := fun f hf => (h.good f (hs.subset hf)).later hl
  sorted := h.sorted.sublist hs
  bound := fun f hf => (h.bound f (hs.subset hf)).mono hl.phase

theorem Blocks.append {d d' : Driver α} {s : List Frame} (h : Blocks d s) (hl : Later d d') {f : Frame} (hg : Good d f)
    (hp : f.phase = d.phase) (hf : Precedes f d'.phase) : Blocks d' (s ++ [f]) where
  good := fun g hgm => by
    rcases List.mem_append.mp hgm with hold | hnew
    · exact (h.good g hold).later hl
    · rw [List.mem_singleton.mp hnew]
      exact hg.later hl
  sorted := by
    refine List.pairwise_append.mpr ⟨h.sorted, List.pairwise_singleton _ _, fun g hgm f' hf' => ?_⟩
    rw [List.mem_singleton.mp hf', hp]
    exact h.bound g hgm
  bound := fun g hgm => by
    rcases List.mem_append.mp hgm with hold | hnew
    · exact (h.bound g hold).mono hl.phase
    · rw [List.mem_singleton.mp hnew]
      exact hf

end Link

/-- the driver's own bookkeeping: ids and sequences start at 1, and a running replay is the newest collection -/
structure Driver.Ok {α : Type} (d : Driver α) : Prop where
  ids : 0 < d.nextContextInstanceId
  live : ∀ id, (d.contexts.get? id).isSome → 0 < id
  sequence : 0 < d.nextSequence
  replay : ∀ rp, d.replay = some rp → rp.number + 1 = d.collections.length ∧
    ∃ roster es, d.collections[rp.number]? = some roster ∧ 0 ∉ roster ∧
      rp.unsent = es ++ [{ type := .rescanResponse }] ∧
      ∀ e ∈ es, e.type = .rescanResponse ∧ e.contextInstanceId ∈ roster

/-- a step of the publisher's callers: the bridge thread's own state stays, and the bookkeeping stays right -/
structure Driver.Aside {α : Type} (d d' : Driver α) : Prop where
  bootId : d'.bootId = d.bootId
  socket : d'.socket = d.socket
  replay : d'.replay = d.replay
  collections : d'.collections = d.collections
  ok : d.Ok → d'.Ok

namespace Driver

variable {α : Type}

theorem Aside.refl (d : Driver α) : Aside d d := ⟨rfl, rfl, rfl, rfl, id⟩

theorem Aside.phase_eq {d d' : Driver α} (h : Aside d d') : d'.phase = d.phase := by
  unfold phase
  rw [h.replay, h.collections]

theorem register_aside (d : Driver α) (fresh : α) (audioSessionId ioId : ℕ) :
    Aside d (d.register fresh audioSessionId ioId) := by
  refine ⟨rfl, rfl, rfl, rfl, fun h => ⟨Nat.succ_pos _, fun id hid => ?_, h.sequence, h.replay⟩⟩
  simp only [register, pend, Table.get?_put] at hid
  split_ifs at hid with hk
  · exact hk ▸ h.ids
  · exact h.live id hid

/-- contexts that were there keep their id, whatever else the table does -/
theorem Ok.contexts {d : Driver α} (h : d.Ok) {contexts : Table ℕ (DriverContext α)} (unstamped : List Pending)
    (hsub : ∀ id, (contexts.get? id).isSome → (d.contexts.get? id).isSome) :
    Ok { d with contexts, unstamped } :=
  ⟨h.ids, fun id hid => h.live id (hsub id hid), h.sequence, h.replay⟩

theorem publish_aside (d : Driver α) (id : ℕ)
    (change : DriverContext α → Option (DriverContext α × DriverEventType)) : Aside d (d.publish id change) := by
  unfold publish
  split_ifs
  · exact Aside.refl d
  · split
    · exact Aside.refl d
    · rename_i c hc
      split
      · exact Aside.refl d
      · refine ⟨rfl, rfl, rfl, rfl, fun h => h.contexts _ fun x hx => ?_⟩
        simp only [Table.get?_put] at hx
        split_ifs at hx with hk
        · simp [← hk, hc]
        · exact hx

theorem unregister_aside (d : Driver α) (id : ℕ) : Aside d (d.unregister id) := by
  unfold unregister
  split_ifs
  · exact Aside.refl d
  · split
    · exact Aside.refl d
    · refine ⟨rfl, rfl, rfl, rfl, fun h => h.contexts _ fun x hx => ?_⟩
      simp only [Table.get?_erase] at hx
      split_ifs at hx
      · cases hx
      · exact hx

theorem stamp_aside (d : Driver α) (i : ℕ) : Aside d (d.stamp i) := by
  unfold stamp
  split
  · exact Aside.refl d
  · exact ⟨rfl, rfl, rfl, rfl, fun h => ⟨h.ids, h.live, Nat.succ_pos _, h.replay⟩⟩

theorem enqueue_aside (d : Driver α) (i : ℕ) : Aside d (d.enqueue i) := by
  unfold enqueue
  split
  · exact Aside.refl d
  · split_ifs <;> exact ⟨rfl, rfl, rfl, rfl, fun h => ⟨h.ids, h.live, h.sequence, h.replay⟩⟩

theorem touch_aside (d : Driver α) (id : ℕ) (f : α → α) : Aside d (d.touch id f) := by
  unfold touch
  split
  · exact Aside.refl d
  · rename_i c hc
    refine ⟨rfl, rfl, rfl, rfl, fun h => h.contexts _ fun x hx => ?_⟩
    simp only [Table.get?_put] at hx
    split_ifs at hx with hk
    · simp [← hk, hc]
    · exact hx

theorem Ok.zero_notMem {d : Driver α} (h : d.Ok) : 0 ∉ d.contexts.keys := fun hz =>
  Nat.lt_irrefl 0 (h.live 0 ((Table.mem_keys_iff _ _).mp hz))

theorem collect_ok {d : Driver α} (h : d.Ok) : d.collect.Ok := by
  unfold collect
  split_ifs
  · refine ⟨h.ids, h.live, h.sequence, fun rp hrp => ?_⟩
    obtain rfl := Option.some.inj hrp
    refine ⟨by simp, d.contexts.keys, _, by simp, h.zero_notMem, rfl, fun e he => ?_⟩
    obtain ⟨p, hp, rfl⟩ := List.mem_map.mp he
    exact ⟨rfl, List.mem_map.mpr ⟨p, hp, rfl⟩⟩
  · exact h

end Driver

namespace Link

variable {α : Type}

/-- the invariant of every run -/
structure Shape (l : Link α) : Prop where
  wired : l.Wired
  driver : l.driver.Ok
  blocks : Blocks l.driver l.stream

/-- a step that leaves the stream alone -/
theorem Shape.setDriver {l : Link α} (h : l.Shape) {d : Driver α} (hok : d.Ok)
    (hsocket : ∀ w, d.socket = some w → l.driver.socket = some w) (hlater : Later l.driver d) :
    (l.setDriver d).Shape where
  wired := ⟨h.wired.sorted, h.wired.old, h.wired.isOpen, fun w hw => h.wired.newest w (hsocket w hw),
    fun w hw => h.wired.held w (hsocket w hw)⟩
  driver := hok
  blocks := h.blocks.mono (List.Sublist.refl _) hlater

theorem Shape.aside {l : Link α} (h : l.Shape) {d : Driver α} (hd : l.driver.Aside d) : (l.setDriver d).Shape :=
  h.setDriver (hd.ok h.driver) (fun _ hw => hd.socket ▸ hw)
    ⟨hd.bootId, hd.phase_eq.ge, hd.collections ▸ List.prefix_refl _⟩

theorem Shape.note {l : Link α} (h : l.Shape) (n : Note α) : (l.note n).Shape :=
  ⟨⟨h.wired.sorted, h.wired.old, h.wired.isOpen, h.wired.newest, h.wired.held⟩, h.driver, h.blocks⟩

theorem stream_setWire (l : Link α) (w : ℕ) (x : Wire) (hup : x.up = (l.wires w).up) :
    (l.setWire w x).stream = l.stream := by
  have hups : ∀ v, ((l.setWire w x).wires v).up = (l.wires v).up := fun v => by
    by_cases hv : v = w
    · subst hv; simp [hup]
    · rw [setWire_ne l x hv]
  unfold stream
  exact congrArg (l.received ++ ·) (List.flatMap_congr fun v _ => hups v)

/-- a step that changes no frame on its way to the daemon and no open end of the daemon's -/
theorem Shape.setWire {l : Link α} (h : l.Shape) (w : ℕ) (x : Wire) (hup : x.up = (l.wires w).up)
    (ho : x.daemonOpen = (l.wires w).daemonOpen) : (l.setWire w x).Shape := by
  have hopen : ∀ v, ((l.setWire w x).wires v).daemonOpen = (l.wires v).daemonOpen := fun v => by
    by_cases hv : v = w
    · subst hv; simp [ho]
    · rw [setWire_ne l x hv]
  refine ⟨⟨h.wired.sorted, h.wired.old, fun v hv => (hopen v).trans (h.wired.isOpen v hv), h.wired.newest,
    fun v hv ho => h.wired.held v hv ((hopen v).symm.trans ho)⟩, h.driver, ?_⟩
  rw [stream_setWire l w x hup]
  exact h.blocks

theorem Shape.closeConnection {l : Link α} (h : l.Shape) : l.closeConnection.Shape := by
  unfold Link.closeConnection
  split
  · exact h
  · rename_i w hw
    exact (h.setWire w { l.wires w with driverOpen := false } rfl rfl).setDriver
      ⟨h.driver.ids, h.driver.live, h.driver.sequence, h.driver.replay⟩ (fun _ hv => by cases hv)
      ⟨rfl, le_rfl, List.prefix_refl _⟩

/-- the driver after a send: only the socket and the drop counter differ -/
theorem sendEvent_driver (l : Link α) (r : SendResult) (f : Frame) :
    ∃ socket dropped, (socket = l.driver.socket ∨ socket = none) ∧
      (l.sendEvent r f).1.driver = { l.driver with socket := socket, droppedEvents := dropped } := by
  obtain ⟨-, hb⟩ | ⟨w, -, -, -, hb⟩ | ⟨w, -, -, hb⟩ | ⟨w, hw, -, hb⟩ := sendEvent_cases l r f
  · exact ⟨_, _, .inl rfl, by rw [hb]⟩
  · exact ⟨_, _, .inl rfl, by rw [hb]; rfl⟩
  · exact ⟨_, _, .inl rfl, by rw [hb]; rfl⟩
  · exact ⟨none, _, .inr rfl, by rw [hb]; simp [Link.closeConnection, hw]; rfl⟩

/-- a frame is sent and the driver moves on: the frame ends the stream -/
theorem Shape.sendThen {l : Link α} (h : l.Shape) (r : SendResult) {f : Frame} (hgood : Good l.driver f)
    (hphase : f.phase = l.driver.phase) {d : Driver α} (hok : d.Ok)
    (hsocket : d.socket = (l.sendEvent r f).1.driver.socket) (hlater : Later l.driver d) (hf : Precedes f d.phase) :
    ((l.sendEvent r f).1.setDriver d).Shape := by
  obtain ⟨-, hb⟩ | ⟨w, hw, ho, -, hb⟩ | ⟨w, -, -, hb⟩ | ⟨w, -, -, hb⟩ := sendEvent_cases l r f
  · rw [hb] at hsocket ⊢
    exact h.setDriver hok (fun v hv => hsocket ▸ hv) hlater
  · have hstream := h.wired.stream_append hw ho f
    rw [hb] at hsocket ⊢
    replace hsocket : d.socket = some w := hsocket.trans hw
    refine ⟨⟨h.wired.sorted, h.wired.old, fun v hv => ?_, fun v hv => ?_, fun v hv _ => ?_⟩, hok, ?_⟩
    · by_cases hvw : v = w
      · subst hvw; simp [ho]
      · rw [setDriver_wires, setWire_ne l _ hvw]; exact h.wired.isOpen v hv
    · exact h.wired.newest v (hw.trans (hsocket.symm.trans hv))
    · obtain rfl : w = v := Option.some.inj (hsocket.symm.trans hv)
      exact h.wired.held w hw ho
    · show Blocks d (l.setWire w _).stream
      rw [hstream]
      exact h.blocks.append hlater hgood hphase hf
  · rw [hb] at hsocket ⊢
    exact h.setDriver hok (fun v hv => hsocket ▸ hv) hlater
  · rw [hb] at hsocket ⊢
    have hboot := (closeConnection_ext l).bootId
    obtain ⟨hp, hc⟩ : l.closeConnection.driver.phase = l.driver.phase ∧
        l.closeConnection.driver.collections = l.driver.collections := by
      unfold Link.closeConnection
      split <;> exact ⟨rfl, rfl⟩
    exact h.closeConnection.setDriver hok (fun v hv => hsocket ▸ hv)
      ⟨hlater.bootId.trans hboot.symm, hp ▸ hlater.phase, hc ▸ hlater.collections⟩

/-- a frame sent between replays -/
theorem Shape.sendEvent {l : Link α} (h : l.Shape) (r : SendResult) {f : Frame} (hgood : Good l.driver f)
    (hphase : f.phase = l.driver.phase) (heven : f.phase % 2 = 0) : (l.sendEvent r f).1.Shape := by
  obtain ⟨socket, dropped, -, hd⟩ := sendEvent_driver l r f
  have h' := h.sendThen r hgood hphase (d := { l.driver with socket := socket, droppedEvents := dropped })
    ⟨h.driver.ids, h.driver.live, h.driver.sequence, h.driver.replay⟩ (by rw [hd]) ⟨rfl, le_rfl, List.prefix_refl _⟩
    ⟨hphase.le, fun hp hodd => by rw [← hp] at hodd; omega⟩
  rw [← hd] at h'
  exact h'

/-! ## Every step of the driver -/

/-- between replays the phase is even, and every frame but a replay's may be sent -/
theorem good_of_idle {d : Driver α} (h : d.replay = none) (e : DriverEvent) {tag : Tag}
    (htag : ∀ n, tag ≠ .replay n) : Good d ⟨e, tag, d.phase⟩ := by
  have heven : d.phase % 2 = 0 := by simp [Driver.phase, h]
  unfold Good
  split
  · exact absurd (by assumption) (htag _)
  · exact heven

theorem Shape.nextSequence {l : Link α} (h : l.Shape) :
    (l.setDriver { l.driver with nextSequence := l.driver.nextSequence + 1 }).Shape :=
  h.setDriver ⟨h.driver.ids, h.driver.live, Nat.succ_pos _, h.driver.replay⟩ (fun _ hv => hv)
    ⟨rfl, le_rfl, List.prefix_refl _⟩

theorem Shape.sendStamped {l : Link α} (h : l.Shape) (r : SendResult) (e : DriverEvent) (tag : Tag)
    (hidle : l.driver.replay = none) (htag : ∀ n, tag ≠ .replay n) : (l.sendStamped r e tag).1.Shape := by
  have heven : l.driver.phase % 2 = 0 := by simp [Driver.phase, hidle]
  exact h.nextSequence.sendEvent r (good_of_idle hidle _ htag) rfl heven

theorem sendStamped_driver (l : Link α) (r : SendResult) (e : DriverEvent) (tag : Tag) :
    ∃ socket dropped, (socket = l.driver.socket ∨ socket = none) ∧ (l.sendStamped r e tag).1.driver =
      { l.driver with nextSequence := l.driver.nextSequence + 1, socket := socket, droppedEvents := dropped } :=
  sendEvent_driver (l.setDriver { l.driver with nextSequence := l.driver.nextSequence + 1 }) r _

theorem openWire_line (l : Link α) : l.openWire.line = l.line ++ [l.nextWire] := (List.append_assoc _ _ _).symm

theorem openWire_new (l : Link α) : l.openWire.wires l.nextWire = { driverOpen := true, daemonOpen := true } :=
  setWire_self l _ _

theorem Wired.openWire_old {l : Link α} (h : l.Wired) : ∀ w ∈ l.line, l.openWire.wires w = l.wires w :=
  fun w hw => setWire_ne l _ (Nat.ne_of_lt (h.old w hw))

theorem Wired.openWire_stream {l : Link α} (h : l.Wired) : l.openWire.stream = l.stream := by
  unfold stream
  rw [openWire_line, List.flatMap_append, List.flatMap_congr fun w hw => congrArg Wire.up (h.openWire_old w hw)]
  simp only [List.flatMap_cons, List.flatMap_nil, openWire_new, List.append_nil]
  rfl

theorem Shape.openWire {l : Link α} (h : l.Shape) : l.openWire.Shape := by
  have hline := openWire_line l
  have hold := h.wired.openWire_old
  have hnew := openWire_new l
  have hstream := h.wired.openWire_stream
  refine ⟨⟨?_, ?_, ?_, ?_, ?_⟩, ⟨h.driver.ids, h.driver.live, h.driver.sequence, h.driver.replay⟩, ?_⟩
  · rw [hline]
    refine List.pairwise_append.mpr ⟨h.wired.sorted, List.pairwise_singleton _ _, fun v hv w hw => ?_⟩
    rw [List.mem_singleton.mp hw]
    exact h.wired.old v hv
  · rw [hline]
    intro w hw
    rcases List.mem_append.mp hw with hw | hw
    · exact Nat.lt_succ_of_lt (h.wired.old w hw)
    · rw [List.mem_singleton.mp hw]; exact Nat.lt_succ_self _
  · rw [hline]
    intro w hw
    rcases List.mem_append.mp hw with hw | hw
    · rw [hold w hw]; exact h.wired.isOpen w hw
    · rw [List.mem_singleton.mp hw, hnew]
  · intro w hw
    obtain rfl := Option.some.inj hw
    rfl
  · intro w hw _
    obtain rfl := Option.some.inj hw
    simp [hline]
  · rw [hstream]
    exact h.blocks.mono (List.Sublist.refl _) ⟨rfl, le_rfl, List.prefix_refl _⟩

theorem Shape.connect {l : Link α} (h : l.Shape) (r : SendResult) : (l.connect r).Shape := by
  unfold Link.connect
  by_cases hidle : l.driver.started ∧ l.driver.socket.isNone ∧ l.driver.replay.isNone
  · have hnone : l.driver.replay = none := by simpa using hidle.2.2
    have h' := h.openWire.sendStamped r { type := .driverHello } .live hnone (fun _ => by simp)
    simp only [if_pos hidle]
    split_ifs
    · exact h'.aside ⟨rfl, rfl, rfl, rfl, fun ho => ⟨ho.ids, ho.live, ho.sequence, ho.replay⟩⟩
    · exact h'
  · rw [if_neg hidle]
    exact h

theorem Shape.replaySend {l : Link α} (h : l.Shape) (r : SendResult) : (l.replaySend r).Shape := by
  unfold Link.replaySend
  split
  · exact h
  · rename_i rp hrp
    obtain ⟨hnumber, roster, es, hroster, hzero, hues, hes⟩ := h.driver.replay rp hrp
    have hphase : l.driver.phase = 2 * rp.number + 1 := by simp [Driver.phase, hrp]
    split
    · rename_i hnil
      simp [hues] at hnil
    · rename_i e rest hue
      obtain ⟨socket, dropped, -, hd⟩ := sendStamped_driver l r e (.replay rp.number)
      have hcons : es ++ [{ type := .rescanResponse }] = e :: rest := hues.symm.trans hue
      -- `e` is the terminator and the last one, or it describes a collected context and more is to come
      have he : e.type = .rescanResponse ∧ ((e.contextInstanceId = 0 ∧ rest = []) ∨
          (e.contextInstanceId ∈ roster ∧ ∃ es', rest = es' ++ [{ type := .rescanResponse }] ∧ ∀ e' ∈ es', e' ∈ es)) := by
        cases es with
        | nil =>
          obtain ⟨rfl, rfl⟩ := List.cons.inj hcons
          exact ⟨rfl, .inl ⟨rfl, rfl⟩⟩
        | cons e' es' =>
          obtain ⟨rfl, rfl⟩ := List.cons.inj hcons
          have he' := hes e' List.mem_cons_self
          exact ⟨he'.1, .inr ⟨he'.2, es', rfl, fun x hx => List.mem_cons_of_mem _ hx⟩⟩
      refine h.nextSequence.sendThen r (f := ⟨l.driver.mark e, .replay rp.number, l.driver.phase⟩)
        ⟨hphase, he.1, rfl, h.driver.sequence, roster, hroster, hzero, he.2.imp And.left And.left⟩ rfl
        ⟨?_, ?_, ?_, fun rp' hrp' => ?_⟩ rfl ⟨?_, ?_, ?_⟩ ?_
      · rw [hd]; exact h.driver.ids
      · rw [hd]; exact h.driver.live
      · rw [hd]; exact Nat.succ_pos _
      · simp only at hrp'
        split_ifs at hrp' with hmore
        obtain rfl := Option.some.inj hrp'
        rw [hd]
        rcases he.2 with ⟨-, hnil⟩ | ⟨-, es', hrest, hsub⟩
        · simp [hnil] at hmore
        · exact ⟨hnumber, roster, es', hroster, hzero, hrest, fun e' he' => hes e' (hsub e' he')⟩
      · rw [hd]; rfl
      · rw [hd]
        simp only [setDriver_driver, Driver.phase, hrp]
        split_ifs
        · exact le_rfl
        · simp only
          omega
      · rw [hd]; exact List.prefix_refl _
      · rw [hd]
        simp only [Driver.phase, hrp]
        split_ifs with hmore
        · refine ⟨le_rfl, fun _ _ => ?_⟩
          rcases he.2 with ⟨-, hnil⟩ | ⟨hmem, -⟩
          · simp [hnil] at hmore
          · exact fun hz => hzero (hz ▸ hmem)
        · exact ⟨by simp only; omega, fun hp => by simp only at hp; omega⟩

theorem Shape.drain {l : Link α} (h : l.Shape) (r : SendResult) : (l.drain r).Shape := by
  unfold Link.drain
  split_ifs with hidle
  · exact h
  · push Not at hidle
    have hnone : l.driver.replay = none := by simpa using hidle.1
    split
    · exact h
    · rename_i e rest _
      have h' := (h.aside (d := { l.driver with queue := rest })
        ⟨rfl, rfl, rfl, rfl, fun ho => ⟨ho.ids, ho.live, ho.sequence, ho.replay⟩⟩).sendEvent r (f := ⟨e, .live, l.driver.phase⟩)
        (good_of_idle (d := { l.driver with queue := rest }) hnone _ (fun _ => by simp)) rfl
        (by simp [Driver.phase, hnone])
      simp only
      split_ifs
      · exact h'
      · exact h'.aside ⟨rfl, rfl, rfl, rfl, fun ho => ⟨ho.ids, ho.live, ho.sequence, ho.replay⟩⟩

/-- the fan-out of a command keeps the set of contexts -/
theorem applySnapshotCommand_isSome (a : Applier α) (contexts : Table ℕ (DriverContext α)) (c : Command) (id : ℕ) :
    ((applySnapshotCommand a contexts c).1.get? id).isSome = (contexts.get? id).isSome := by
  simp only [applySnapshotCommand, Table.get?_retain]
  cases contexts.get? id <;> rfl

theorem Shape.handleSnapshotCommand {l : Link α} (h : l.Shape) (a : Applier α) (c : Command) (r : SendResult)
    (hnone : l.driver.replay = none) : (Link.handleSnapshotCommand a l c r).Shape := by
  unfold Link.handleSnapshotCommand
  simp only
  have h' : ((l.setDriver { l.driver with contexts := (applySnapshotCommand a l.driver.contexts c).1 }).note
      (.handled c l.driver.contexts)).Shape := by
    refine Shape.note (h.aside (d := { l.driver with contexts := (applySnapshotCommand a l.driver.contexts c).1 })
      ⟨rfl, rfl, rfl, rfl, fun ho => ho.contexts _ fun id hid => ?_⟩) _
    rwa [applySnapshotCommand_isSome] at hid
  split_ifs
  · exact h'
  · exact h'.sendStamped r _ _ hnone (fun _ => by simp)

theorem Shape.handle {l : Link α} (h : l.Shape) (a : Applier α) (r : SendResult) : (Link.handle a l r).Shape := by
  unfold Link.handle
  split_ifs with hidle
  · exact h
  · have hnone : l.driver.replay = none := by simpa using hidle
    split
    · exact h
    · rename_i w _
      split
      · exact h
      · rename_i rest _
        have h' := h.setWire w { l.wires w with down := rest } rfl rfl
        exact h'.aside ⟨rfl, rfl, rfl, rfl, fun ho => ⟨ho.ids, ho.live, ho.sequence, ho.replay⟩⟩
      · rename_i c rest _
        exact (h.setWire w { l.wires w with down := rest } rfl rfl).handleSnapshotCommand a c r hnone

theorem Shape.collect {l : Link α} (h : l.Shape) : (l.setDriver l.driver.collect).Shape := by
  have hok := Driver.collect_ok h.driver
  unfold Driver.collect at hok ⊢
  split_ifs at hok ⊢ with hready
  · have hnone : l.driver.replay = none := by simpa using hready.2.2
    refine h.setDriver hok (fun _ hv => hv) ⟨rfl, ?_, List.prefix_append _ _⟩
    simp only [Driver.phase, hnone]
    omega
  · exact h

theorem Shape.restartDriver {l : Link α} (h : l.Shape) : l.restartDriver.Shape := by
  refine Shape.note ?_ _
  have hboot := (closeConnection_ext l).bootId
  have hphase : l.closeConnection.driver.phase = l.driver.phase := by
    unfold Link.closeConnection
    split <;> rfl
  have hcoll : l.closeConnection.driver.collections = l.driver.collections := by
    unfold Link.closeConnection
    split <;> rfl
  have hok : Driver.Ok ({ bootId := l.driver.bootId, collections := l.driver.collections } : Driver α) :=
    ⟨Nat.one_pos, fun id hid => absurd hid (by simp), Nat.one_pos, fun rp hrp => by cases hrp⟩
  refine h.closeConnection.setDriver hok (fun w hw => by cases hw) ⟨hboot.symm, ?_, hcoll ▸ List.prefix_refl _⟩
  rw [hphase]
  unfold Driver.phase
  cases hrp : l.driver.replay with
  | none => exact le_rfl
  | some rp =>
    have := (h.driver.replay rp hrp).1
    simp only
    omega

/-- **One step of the driver keeps the shape of the stream.** -/
theorem stepDriver_shape (a : Applier α) {l : Link α} (h : l.Shape) (op : DriverOp α) : (stepDriver a l op).Shape := by
  cases op with
  | register audioSessionId ioId => exact (h.aside (Driver.register_aside _ _ _ _)).note _
  | publishConfigured id sampleRate channelMask => exact h.aside (Driver.publish_aside _ _ _)
  | publishEnabled id enabled => exact h.aside (Driver.publish_aside _ _ _)
  | publishGenerations id resourceGeneration graphGeneration => exact h.aside (Driver.publish_aside _ _ _)
  | publishTelemetry id bypassReason => exact h.aside (Driver.publish_aside _ _ _)
  | unregister id => exact h.aside (Driver.unregister_aside _ _)
  | stamp i => exact h.aside (Driver.stamp_aside _ _)
  | enqueue i => exact h.aside (Driver.enqueue_aside _ _)
  | collect => exact h.collect
  | connect r => exact h.connect r
  | hangup =>
    show l.hangup.Shape
    unfold hangup
    split_ifs
    · exact h.closeConnection
    · exact h
  | replaySend r => exact h.replaySend r
  | drain r => exact h.drain r
  | handle r => exact h.handle a r
  | touch id f => exact h.aside (Driver.touch_aside _ _ _)
  | restart => exact h.restartDriver

/-! ## Every step of the daemon -/

/-- the daemon lets go of some connections: it closes its end, and the frames there are lost -/
theorem Shape.drop {l : Link α} (h : l.Shape) {l' : Link α} (hdriver : l'.driver = l.driver)
    (hnext : l'.nextWire = l.nextWire) (hline : l'.line.Sublist l.line) (hstream : l'.stream.Sublist l.stream)
    (hheld : ∀ w ∈ l'.line, (l'.wires w).daemonOpen = true)
    (hopen : ∀ w, (l'.wires w).daemonOpen = true → (l.wires w).daemonOpen = true ∧ (w ∈ l.line → w ∈ l'.line)) :
    l'.Shape where
  wired :=
    { sorted := h.wired.sorted.sublist hline
      old := fun w hw => hnext ▸ h.wired.old w (hline.subset hw)
      isOpen := hheld
      newest := fun w hw => hnext ▸ h.wired.newest w (hdriver ▸ hw)
      held := fun w hw ho => (hopen w ho).2 (h.wired.held w (hdriver ▸ hw) (hopen w ho).1) }
  driver := hdriver ▸ h.driver
  blocks := hdriver ▸ h.blocks.mono hstream ⟨rfl, le_rfl, List.prefix_refl _⟩

/-- the client is read before the connections that wait -/
theorem Wired.backlog_ne {l : Link α} (h : l.Wired) {w : ℕ} (hw : l.client = some w) : ∀ v ∈ l.backlog, v ≠ w := by
  have hs := h.sorted
  rw [show l.line = w :: l.backlog by simp [line, hw], List.pairwise_cons] at hs
  exact fun v hv => Nat.ne_of_gt (hs.1 v hv)

/-- the frames of a dropped connection are lost -/
theorem dropClient_stream {l : Link α} (h : l.Wired) : l.dropClient.stream.Sublist l.stream := by
  unfold Link.dropClient
  split
  · exact List.Sublist.refl _
  · rename_i w hw
    have hups : l.backlog.flatMap (fun v => ((l.setWire w { l.wires w with daemonOpen := false }).wires v).up) =
        l.backlog.flatMap (fun v => (l.wires v).up) :=
      List.flatMap_congr fun v hv => by rw [setWire_ne l _ (h.backlog_ne hw v hv)]
    unfold stream
    rw [show l.line = w :: l.backlog by simp [line, hw], List.flatMap_cons]
    refine List.Sublist.append_left ?_ _
    exact hups ▸ List.sublist_append_right _ _

theorem Shape.dropClient {l : Link α} (h : l.Shape) : l.dropClient.Shape := by
  have hstream := dropClient_stream h.wired
  unfold Link.dropClient at hstream ⊢
  split
  · exact h
  · rename_i w hw
    have hline : l.line = w :: l.backlog := by simp [line, hw]
    have hfresh := h.wired.backlog_ne hw
    simp only [hw] at hstream
    refine h.drop rfl rfl ?_ hstream ?_ ?_
    · rw [hline]; exact List.sublist_cons_self _ _
    · intro v hv
      show ((l.setWire w _).wires v).daemonOpen = true
      rw [setWire_ne l _ (hfresh v hv)]
      exact h.wired.isOpen v (hline ▸ List.mem_cons_of_mem _ hv)
    · intro v hv
      by_cases hvw : v = w
      · subst hvw
        simp [Link.setWire] at hv
      · refine ⟨by simpa [Link.setWire, hvw] using hv, fun hvl => ?_⟩
        rw [hline] at hvl
        exact (List.mem_cons.mp hvl).resolve_left hvw

/-- the next connection is read in its place -/
theorem acceptPending_line {l : Link α} {w : ℕ} {rest : List ℕ} (hback : l.backlog = w :: rest) :
    ({ l.dropClient with backlog := rest, client := some w } : Link α).line = l.dropClient.line := by
  have hline : l.dropClient.line = w :: rest := by
    unfold Link.dropClient
    split
    · rename_i hnone; simp [line, hnone, hback]
    · exact hback
  rw [hline]
  rfl

theorem acceptPending_stream {l : Link α} (h : l.Wired) : l.acceptPending.stream.Sublist l.stream := by
  unfold Link.acceptPending
  split
  · exact List.Sublist.refl _
  · rename_i w rest hback
    have heq : ({ l.dropClient with backlog := rest, client := some w } : Link α).stream = l.dropClient.stream := by
      unfold stream
      rw [acceptPending_line hback]
    rw [heq]
    exact dropClient_stream h

theorem Shape.acceptPending {l : Link α} (h : l.Shape) : l.acceptPending.Shape := by
  unfold Link.acceptPending
  split
  · exact h
  · rename_i w rest hback
    have heq := acceptPending_line hback
    refine h.dropClient.drop rfl rfl (heq ▸ List.Sublist.refl _) ?_
      (fun v hv => h.dropClient.wired.isOpen v (heq ▸ hv)) (fun v hv => ⟨hv, fun hm => heq ▸ hm⟩)
    unfold stream
    rw [heq]

theorem Shape.sendDown {l : Link α} (h : l.Shape) (frame : Down) (ok : Bool) : (l.sendDown frame ok).1.Shape := by
  unfold Link.sendDown
  split
  · exact h
  · split_ifs
    · exact h.setWire _ _ rfl rfl
    · exact h

theorem Shape.process {l : Link α} (h : l.Shape) (f : Frame) (rescanSent : Bool) : (l.process f rescanSent).Shape := by
  unfold Link.process
  have hdeliver : ({ l with registry := l.registry.deliver f.event } : Link α).Shape :=
    ⟨⟨h.wired.sorted, h.wired.old, h.wired.isOpen, h.wired.newest, h.wired.held⟩, h.driver, h.blocks⟩
  simp only
  split_ifs
  · exact ⟨⟨h.wired.sorted, h.wired.old, h.wired.isOpen, h.wired.newest, h.wired.held⟩, h.driver, h.blocks⟩
  · exact hdeliver.sendDown _ _
  · exact hdeliver

/-- reading a frame moves it along the stream -/
theorem stream_take {l : Link α} (h : l.Wired) {w : ℕ} {f : Frame} {rest : List Frame} (hw : l.client = some w)
    (hup : (l.wires w).up = f :: rest) :
    ({ l with received := l.received ++ [f] }.setWire w { l.wires w with up := rest } : Link α).stream = l.stream := by
  have hline : l.line = w :: l.backlog := by simp [line, hw]
  have hline' : ({ l with received := l.received ++ [f] }.setWire w { l.wires w with up := rest } : Link α).line =
      w :: l.backlog := hline
  unfold stream
  rw [hline', hline, List.flatMap_cons, List.flatMap_cons, hup]
  have hups : l.backlog.flatMap (fun v =>
      (({ l with received := l.received ++ [f] }.setWire w { l.wires w with up := rest } : Link α).wires v).up) =
      l.backlog.flatMap (fun v => (l.wires v).up) :=
    List.flatMap_congr fun v hv => by rw [setWire_ne _ _ (h.backlog_ne hw v hv)]
  rw [hups, setWire_self]
  simp [Link.setWire]

theorem Shape.recv {l : Link α} (h : l.Shape) (rescanSent : Bool) : (l.recv rescanSent).1.Shape := by
  unfold Link.recv
  split
  · exact h
  · rename_i w hw
    split
    · rename_i f rest hup
      have hopen : ∀ v, (({ l with received := l.received ++ [f] }.setWire w { l.wires w with up := rest } :
          Link α).wires v).daemonOpen = (l.wires v).daemonOpen := fun v => by
        by_cases hv : v = w
        · subst hv; rw [setWire_self]
        · rw [setWire_ne _ _ hv]
      refine Shape.process (l := { l with received := l.received ++ [f] }.setWire w { l.wires w with up := rest })
        (h.drop rfl rfl (List.Sublist.refl _) ?_ (fun v hv => ?_) (fun v hv => ?_)) f rescanSent
      · rw [stream_take h.wired hw hup]
      · rw [hopen]
        exact h.wired.isOpen v hv
      · rw [hopen] at hv
        exact ⟨hv, id⟩
    · split_ifs
      · exact h
      · exact h.dropClient

theorem Shape.restartDaemon {l : Link α} (h : l.Shape) : l.restartDaemon.Shape := by
  refine h.drop rfl rfl (List.nil_sublist _) (List.nil_sublist _) (fun _ hw => by cases hw) (fun w hw => ?_)
  simp only [Link.restartDaemon] at hw
  split_ifs at hw with hmine
  refine ⟨hw, fun hm => absurd ?_ hmine⟩
  rcases List.mem_append.mp hm with hc | hb
  · exact .inl (by simpa [eq_comm] using hc)
  · exact .inr hb

theorem stepDaemon_shape {l : Link α} (h : l.Shape) (op : DaemonOp) : (l.stepDaemon op).Shape := by
  cases op with
  | accept => exact h.acceptPending
  | recv rescanSent => exact h.recv rescanSent
  | send c ok =>
    have h' := h.sendDown (.command c) ok
    show (l.sendSnapshotCommand c ok).1.Shape
    unfold sendSnapshotCommand
    simp only
    split_ifs
    · exact ⟨⟨h'.wired.sorted, h'.wired.old, h'.wired.isOpen, h'.wired.newest, h'.wired.held⟩, h'.driver, h'.blocks⟩
    · exact h'
  | take =>
    exact ⟨⟨h.wired.sorted, h.wired.old, h.wired.isOpen, h.wired.newest, h.wired.held⟩, h.driver, h.blocks⟩
  | restart => exact h.restartDaemon

theorem step_shape (a : Applier α) {l : Link α} (h : l.Shape) (op : Op α) : (step a l op).Shape := by
  cases op with
  | driver op => exact stepDriver_shape a h op
  | daemon op => exact stepDaemon_shape h op

theorem init_shape (bootId : ℕ) : (init bootId : Link α).Shape where
  wired := ⟨List.Pairwise.nil, by simp [line, init], by simp [line, init], by simp [init], by simp [init]⟩
  driver := ⟨Nat.one_pos, fun id hid => absurd hid (by simp [init]), Nat.one_pos, fun rp hrp => by cases hrp⟩
  blocks := ⟨by simp [stream, line, init], List.Pairwise.nil, by simp [stream, line, init]⟩

/-- **Every run keeps the stream in blocks.** -/
theorem run_shape (a : Applier α) (bootId : ℕ) (ops : List (Op α)) : (run a (init bootId) ops).Shape := by
  suffices h : ∀ l : Link α, l.Shape → (run a l ops).Shape from h _ (init_shape bootId)
  induction ops with
  | nil => exact fun l h => h
  | cons op ops ih => exact fun l h => ih _ (step_shape a h op)

end Link

end ViperFx.Channel
