/-
The commands on their way to the driver, over every run of the link.

The daemon writes commands to one connection and the bridge thread reads that connection in order, so the commands the
driver has handled, followed by those it has still to read, are a subsequence of the commands that were sent: frames
are lost with a connection and never overtaken. `Move` says what a driver step does to the contexts, to the trace and
to the commands in flight, and every result about contexts is derived from it.

Results:
  · stepDriver_move                   : everything a driver step can do to contexts, trace and commands in flight
  · stepDriver_ordered, sendSnapshotCommand_ordered : handled and unread commands are a subsequence of the sent ones
  · Closed.move                       : a predicate on contexts and their past that every step preserves holds throughout
-/
import ViperFx.Channel.Replay

namespace ViperFx.Channel

open ViperFx.Core ViperFx.Protocol ViperFx.Daemon

/-! ## Commands in flight -/

def Down.command? : Down → Option Command
  | .rescan => none
  | .command c => some c

/-- the commands the driver has handled, newest first -/
def handledCommands {α : Type} (trace : List (Note α)) : List Command := trace.filterMap fun
  | .handled c _ => some c
  | _ => none

namespace Link

variable {α : Type}

/-- the commands the bridge thread has still to read -/
def pending (l : Link α) : List Command :=
  match l.driver.socket with
  | none => []
  | some w => (l.wires w).down.filterMap Down.command?

/-- what the applier knows of a context -/
def context (l : Link α) (id : ℕ) : Option α := (l.driver.contexts.get? id).map DriverContext.ext

/-- the driver's end of a connection is open only on its socket -/
def OpenEnds (l : Link α) : Prop := ∀ w, (l.wires w).driverOpen = true → l.driver.socket = some w

/-- a step that leaves contexts and trace alone; it may lose the commands in flight -/
structure Passive (l l' : Link α) : Prop where
  context : ∀ id, l'.context id = l.context id
  trace : l'.trace = l.trace
  pending : l'.pending = l.pending ∨ l'.pending = []
  ends : l.OpenEnds → l'.OpenEnds

theorem Passive.refl (l : Link α) : Passive l l := ⟨fun _ => rfl, rfl, .inl rfl, id⟩

theorem Passive.trans {l₁ l₂ l₃ : Link α} (h : Passive l₁ l₂) (h' : Passive l₂ l₃) : Passive l₁ l₃ where
  context := fun id => (h'.context id).trans (h.context id)
  trace := h'.trace.trans h.trace
  pending := by
    rcases h'.pending with hp | hp
    · rw [hp]
      exact h.pending
    · exact .inr hp
  ends := fun he => h'.ends (h.ends he)

theorem Passive.of_driver (l : Link α) (d : Driver α) (hsocket : d.socket = l.driver.socket)
    (hcontext : ∀ id, (d.contexts.get? id).map DriverContext.ext = l.context id) : Passive l (l.setDriver d) where
  context := hcontext
  trace := rfl
  pending := by
    left
    unfold Link.pending
    rw [setDriver_driver, setDriver_wires, hsocket]
  ends := fun he w hw => hsocket.trans (he w hw)

/-- the bookkeeping of the driver's threads -/
theorem Passive.aside (l : Link α) {d : Driver α} (h : l.driver.Aside d) (hcontexts : d.contexts = l.driver.contexts) :
    Passive l (l.setDriver d) := Passive.of_driver l d h.socket fun id => by rw [hcontexts, Link.context]

theorem closeConnection_passive (l : Link α) : Passive l l.closeConnection := by
  unfold closeConnection
  split
  · exact Passive.refl l
  · rename_i w hw
    refine ⟨fun _ => rfl, rfl, .inr rfl, fun he v hv => ?_⟩
    by_cases hvw : v = w
    · subst hvw
      simp at hv
    · rw [setDriver_wires, setWire_ne l _ hvw] at hv
      exact absurd (Option.some.inj ((he v hv).symm.trans hw)) hvw

/-- a wire changes, but not the frames on their way to the driver nor its open end -/
theorem Passive.of_wire (l : Link α) (w : ℕ) (x : Wire) (hdown : x.down = (l.wires w).down)
    (hopen : x.driverOpen = (l.wires w).driverOpen) : Passive l (l.setWire w x) where
  context := fun _ => rfl
  trace := rfl
  pending := by
    left
    unfold Link.pending
    rw [setWire_driver]
    split
    · rfl
    · rename_i v _
      by_cases hv : v = w
      · subst hv
        rw [setWire_self, hdown]
      · rw [setWire_ne l x hv]
  ends := fun he v hv => by
    by_cases hvw : v = w
    · subst hvw
      rw [setWire_self, hopen] at hv
      exact he v hv
    · rw [setWire_ne l x hvw] at hv
      exact he v hv

theorem sendEvent_passive (l : Link α) (r : SendResult) (f : Frame) : Passive l (l.sendEvent r f).1 := by
  obtain ⟨-, hb⟩ | ⟨w, -, -, -, hb⟩ | ⟨w, -, -, hb⟩ | ⟨w, -, -, hb⟩ := sendEvent_cases l r f
  · rw [hb]
    exact Passive.refl l
  · rw [hb]
    exact Passive.of_wire l w _ rfl rfl
  · rw [hb]
    exact Passive.of_driver l _ rfl fun _ => rfl
  · rw [hb]
    exact closeConnection_passive l

theorem sendStamped_passive (l : Link α) (r : SendResult) (e : DriverEvent) (tag : Tag) :
    Passive l (l.sendStamped r e tag).1 :=
  (Passive.of_driver l { l.driver with nextSequence := l.driver.nextSequence + 1 } rfl fun _ => rfl).trans
    (sendEvent_passive _ r _)

/-- a new connection has no commands on it, and there was none before -/
theorem openWire_passive (l : Link α) (hsocket : l.driver.socket = none) : Passive l l.openWire where
  context := fun _ => rfl
  trace := rfl
  pending := by
    right
    simp [Link.pending, openWire, setWire]
  ends := fun he w hw => by
    by_cases hwn : w = l.nextWire
    · rw [hwn]
      rfl
    · have hw' : (l.wires w).driverOpen = true := by
        simpa [openWire, setWire, Function.update_of_ne hwn] using hw
      exact absurd (hsocket.symm.trans (he w hw')) (by simp)

theorem connect_passive (l : Link α) (r : SendResult) : Passive l (l.connect r) := by
  unfold connect
  simp only
  split_ifs with hc hs
  · have h := (openWire_passive l (Option.isNone_iff_eq_none.mp hc.2.1)).trans
      (sendStamped_passive l.openWire r { type := .driverHello } .live)
    exact h.trans (Passive.of_driver _ _ rfl fun _ => rfl)
  · exact (openWire_passive l (Option.isNone_iff_eq_none.mp hc.2.1)).trans
      (sendStamped_passive l.openWire r { type := .driverHello } .live)
  · exact Passive.refl l

theorem replaySend_passive (l : Link α) (r : SendResult) : Passive l (l.replaySend r) := by
  unfold replaySend
  split
  · exact Passive.refl l
  · split
    · exact Passive.of_driver l _ rfl fun _ => rfl
    · exact (sendStamped_passive l r _ _).trans (Passive.of_driver _ _ rfl fun _ => rfl)

theorem drain_passive (l : Link α) (r : SendResult) : Passive l (l.drain r) := by
  unfold drain
  split_ifs
  · exact Passive.refl l
  · split
    · exact Passive.refl l
    · rename_i e rest _
      have h := (Passive.of_driver l { l.driver with queue := rest } rfl fun _ => rfl).trans
        (sendEvent_passive _ r ⟨e, .live, l.driver.phase⟩)
      simp only
      split_ifs
      · exact h
      · exact h.trans (Passive.of_driver _ _ rfl fun _ => rfl)

/-- a published change is a change of the record -/
theorem publish_passive (l : Link α) (id : ℕ)
    (change : DriverContext α → Option (DriverContext α × DriverEventType))
    (hchange : ∀ c c' type, change c = some (c', type) → c'.ext = c.ext) :
    Passive l (l.setDriver (l.driver.publish id change)) := by
  refine Passive.of_driver l _ (Driver.publish_aside l.driver id change).socket fun x => ?_
  unfold Driver.publish
  split_ifs
  · rfl
  · split
    · rfl
    · rename_i c hc
      split
      · rfl
      · rename_i c' type hcc
        simp only [Driver.pend, Table.get?_put, Link.context]
        split_ifs with hx
        · subst hx
          simp [hc, hchange c c' type hcc]
        · rfl

/-! ## What a driver step can do -/

/-- everything a driver step can do to the contexts, the trace and the commands in flight -/
inductive Move (a : Applier α) (op : DriverOp α) (l l' : Link α) : Prop
  | passive (h : Passive l l')
  | registered (id : ℕ)
      (hcontext : ∀ x, l'.context x = if id = x then some a.fresh else l.context x)
      (htrace : l'.trace = .registered id (l.registry.contexts.get? ⟨l.driver.bootId, id⟩).isSome :: l.trace)
      (hpending : l'.pending = l.pending) (hends : l.OpenEnds → l'.OpenEnds)
  | released (id : ℕ) (hcontext : ∀ x, l'.context x = if id = x then none else l.context x)
      (htrace : l'.trace = l.trace) (hpending : l'.pending = l.pending) (hends : l.OpenEnds → l'.OpenEnds)
  | worked (id : ℕ) (f : α → α) (hop : op = .touch id f)
      (hcontext : ∀ x, l'.context x = if id = x then (l.context x).map f else l.context x)
      (htrace : l'.trace = l.trace) (hpending : l'.pending = l.pending) (hends : l.OpenEnds → l'.OpenEnds)
  | handled (c : Command) (rest : List Command) (hread : l.pending = c :: rest)
      (hcontext : ∀ x, l'.context x = (l.context x).map fun y => (a.run y c).1)
      (htrace : l'.trace = .handled c l.driver.contexts :: l.trace)
      (hpending : l'.pending = rest ∨ l'.pending = []) (hends : l.OpenEnds → l'.OpenEnds)
  | restarted (hcontext : ∀ x, l'.context x = none) (htrace : l'.trace = .restarted :: l.trace)
      (hpending : l'.pending = []) (hends : l.OpenEnds → l'.OpenEnds)

theorem applySnapshotCommand_get? (a : Applier α) (contexts : Table ℕ (DriverContext α)) (c : Command) (id : ℕ) :
    (applySnapshotCommand a contexts c).1.get? id =
      (contexts.get? id).map fun x => { x with ext := (a.run x.ext c).1 } := by
  simp only [applySnapshotCommand, Table.get?_retain]
  cases contexts.get? id <;> rfl

/-- the fan-out accepts when there is a context and no context refuses -/
theorem foldAcks_accepted (acks : List SnapshotAck) :
    (foldAcks acks).accepted = true ↔ acks ≠ [] ∧ ∀ ack ∈ acks, ack.accepted = true := by
  have hfold : ∀ (acks : List SnapshotAck) (ack : SnapshotAck), (acks.foldl combine ack).accepted = true ↔
      ack.accepted = true ∧ ∀ one ∈ acks, one.accepted = true := by
    intro acks
    induction acks with
    | nil => simp
    | cons one acks ih =>
      intro ack
      rw [List.foldl_cons, ih]
      cases hone : one.accepted <;> cases hack : ack.accepted <;> simp [combine, hone, hack]
  cases acks with
  | nil => simp [foldAcks]
  | cons ack acks => simp [foldAcks, hfold]

theorem applySnapshotCommand_accepted (a : Applier α) (contexts : Table ℕ (DriverContext α)) (c : Command)
    (h : (applySnapshotCommand a contexts c).2.accepted = true) (id : ℕ) (y : DriverContext α)
    (hy : contexts.get? id = some y) : (a.run y.ext c).2.accepted = true := by
  refine ((foldAcks_accepted _).mp h).2 _ (List.mem_map.mpr ⟨(id, y), ?_, rfl⟩)
  exact (Table.mem_entries_iff _ _ _).mpr hy

/-- a command that was read is fanned out, noted and answered -/
theorem handleSnapshotCommand_move (a : Applier α) (op : DriverOp α) (l : Link α) (w : ℕ) (c : Command)
    (rest : List Down) (r : SendResult) (hw : l.driver.socket = some w) (hdown : (l.wires w).down = .command c :: rest) :
    Move a op l (handleSnapshotCommand a (l.setWire w { l.wires w with down := rest }) c r) := by
  have hread : l.pending = c :: rest.filterMap Down.command? := by
    simp [Link.pending, hw, hdown, Down.command?]
  set m := ((l.setWire w { l.wires w with down := rest }).setDriver
    { l.driver with contexts := (applySnapshotCommand a l.driver.contexts c).1 }).note
      (.handled c l.driver.contexts) with hm
  have hcontext : ∀ x, m.context x = (l.context x).map fun y => (a.run y c).1 := by
    intro x
    simp only [hm, Link.context, note_driver, setDriver_driver, applySnapshotCommand_get?, Option.map_map]
    rfl
  have hpending : m.pending = rest.filterMap Down.command? := by
    simp [hm, Link.pending, hw, setWire]
  have hends : l.OpenEnds → m.OpenEnds := by
    intro he v hv
    refine he v ?_
    by_cases hvw : v = w
    · subst hvw
      simpa [hm] using hv
    · simpa [hm, setWire_ne l _ hvw] using hv
  unfold handleSnapshotCommand
  simp only
  split_ifs
  · exact .handled c _ hread hcontext rfl (.inl hpending) hends
  · have hp := sendStamped_passive m r (replyEvent c (applySnapshotCommand a l.driver.contexts c).2) (.reply c.ticket)
    refine .handled c _ hread (fun x => (hp.context x).trans (hcontext x)) hp.trace ?_ (fun he => hp.ends (hends he))
    rw [← hpending]
    exact hp.pending

theorem handle_move (a : Applier α) (op : DriverOp α) (l : Link α) (r : SendResult) : Move a op l (handle a l r) := by
  unfold handle
  split_ifs
  · exact .passive (Passive.refl l)
  · split
    · exact .passive (Passive.refl l)
    · rename_i w hw
      split
      · exact .passive (Passive.refl l)
      · rename_i rest hdown
        refine .passive ⟨fun _ => rfl, rfl, .inl ?_, fun he v hv => ?_⟩
        · simp only [Link.pending, setDriver_driver, setDriver_wires, hw, setWire_self, hdown]
          rfl
        · refine he v ?_
          by_cases hvw : v = w
          · subst hvw
            simpa using hv
          · simpa [setWire_ne l _ hvw] using hv
      · rename_i c rest hdown
        exact handleSnapshotCommand_move a op l w c rest r hw hdown

/-- **Everything a driver step can do.** -/
theorem stepDriver_move (a : Applier α) (l : Link α) (op : DriverOp α) : Move a op l (stepDriver a l op) := by
  cases op with
  | register audioSessionId ioId =>
    refine .registered l.driver.nextContextInstanceId (fun x => ?_) rfl rfl id
    simp only [stepDriver, Link.context, note_driver, setDriver_driver, Driver.register, Driver.pend, Table.get?_put]
    split_ifs <;> rfl
  | publishConfigured id sampleRate channelMask =>
    refine .passive (publish_passive l id _ fun c c' type hc => ?_)
    simp only [Option.some.injEq, Prod.mk.injEq] at hc
    rw [← hc.1]
  | publishEnabled id enabled =>
    refine .passive (publish_passive l id _ fun c c' type hc => ?_)
    simp only [Option.some.injEq, Prod.mk.injEq] at hc
    rw [← hc.1]
  | publishGenerations id resourceGeneration graphGeneration =>
    refine .passive (publish_passive l id _ fun c c' type hc => ?_)
    simp only at hc
    split_ifs at hc
    simp only [Option.some.injEq, Prod.mk.injEq] at hc
    rw [← hc.1]
  | publishTelemetry id bypassReason =>
    refine .passive (publish_passive l id _ fun c c' type hc => ?_)
    simp only at hc
    split_ifs at hc
    simp only [Option.some.injEq, Prod.mk.injEq] at hc
    rw [← hc.1]
  | unregister id =>
    simp only [stepDriver]
    have hsocket := (Driver.unregister_aside l.driver id).socket
    unfold Driver.unregister at hsocket ⊢
    split_ifs at hsocket ⊢
    · exact .passive (Passive.refl l)
    · cases hc : l.driver.contexts.get? id with
      | none => exact .passive (Passive.refl l)
      | some c =>
        refine .released id (fun x => ?_) rfl rfl fun he => he
        simp only [Link.context, setDriver_driver, Driver.pend, Table.get?_erase]
        split_ifs <;> rfl
  | stamp i =>
    refine .passive (Passive.aside l (Driver.stamp_aside _ i) ?_)
    unfold Driver.stamp
    split <;> rfl
  | enqueue i =>
    refine .passive (Passive.aside l (Driver.enqueue_aside _ i) ?_)
    unfold Driver.enqueue
    split
    · rfl
    · split_ifs <;> rfl
  | collect =>
    refine .passive (Passive.of_driver l _ ?_ fun id => ?_)
    · unfold Driver.collect
      split_ifs <;> rfl
    · unfold Driver.collect
      split_ifs <;> rfl
  | connect r => exact .passive (connect_passive l r)
  | hangup =>
    simp only [stepDriver, hangup]
    split_ifs
    · exact .passive (closeConnection_passive l)
    · exact .passive (Passive.refl l)
  | replaySend r => exact .passive (replaySend_passive l r)
  | drain r => exact .passive (drain_passive l r)
  | handle r => exact handle_move a _ l r
  | touch id f =>
    simp only [stepDriver]
    have hsocket := (Driver.touch_aside l.driver id f).socket
    refine .worked id f rfl (fun x => ?_) rfl ?_ fun he w hw => hsocket.trans (he w hw)
    · simp only [Link.context, setDriver_driver, Driver.touch]
      cases hc : l.driver.contexts.get? id with
      | none =>
        split_ifs with hx
        · subst hx
          simp [hc]
        · rfl
      | some c =>
        simp only [Table.get?_put]
        split_ifs with hx
        · subst hx
          simp [hc]
        · rfl
    · unfold Link.pending
      rw [setDriver_driver, setDriver_wires, hsocket]
  | restart =>
    have hp := closeConnection_passive l
    refine .restarted (fun x => rfl) ?_ rfl fun he w hw => ?_
    · exact congrArg (Note.restarted :: ·) hp.trace
    · have hw' : (l.closeConnection.wires w).driverOpen = true := hw
      have hnone : l.closeConnection.driver.socket = none := by
        unfold closeConnection
        split <;> simp_all
      exact absurd (hnone.symm.trans (hp.ends he w hw')) (by simp)

/-! ## Order -/

/-- the handled commands, in order, and then the unread ones -/
def conveyed (l : Link α) : List Command := (handledCommands l.trace).reverse ++ l.pending

/-- commands are lost, never overtaken -/
def Ordered (l : Link α) : Prop := l.conveyed.Sublist l.sent.reverse

@[simp] theorem handledCommands_registered (id : ℕ) (known : Bool) (trace : List (Note α)) :
    handledCommands (.registered id known :: trace) = handledCommands trace := rfl

@[simp] theorem handledCommands_handled (c : Command) (contexts : Table ℕ (DriverContext α)) (trace : List (Note α)) :
    handledCommands (.handled c contexts :: trace) = c :: handledCommands trace := rfl

@[simp] theorem handledCommands_restarted (trace : List (Note α)) :
    handledCommands (.restarted :: trace) = handledCommands trace := rfl

theorem mem_handledCommands {c : Command} {trace : List (Note α)} :
    c ∈ handledCommands trace ↔ ∃ contexts, Note.handled c contexts ∈ trace := by
  simp only [handledCommands, List.mem_filterMap]
  constructor
  · rintro ⟨n, hn, hc⟩
    cases n with
    | handled d contexts =>
      obtain rfl := Option.some.inj hc
      exact ⟨contexts, hn⟩
    | registered id known => cases hc
    | restarted => cases hc
  · rintro ⟨contexts, hn⟩
    exact ⟨_, hn, rfl⟩

/-- what a driver step conveys was on its way before -/
theorem Move.conveyed_sublist {a : Applier α} {op : DriverOp α} {l l' : Link α} (h : Move a op l l') :
    l'.conveyed.Sublist l.conveyed := by
  have hcut : ∀ {p p' : List Command}, p' = p ∨ p' = [] → p'.Sublist p := by
    rintro p p' (rfl | rfl)
    · exact List.Sublist.refl _
    · exact List.nil_sublist _
  cases h with
  | passive h =>
    rw [conveyed, h.trace]
    exact (hcut h.pending).append_left _
  | registered id hcontext htrace hpending hends => rw [conveyed, htrace, hpending]; exact List.Sublist.refl _
  | released id hcontext htrace hpending hends => rw [conveyed, htrace, hpending]; exact List.Sublist.refl _
  | worked id f hop hcontext htrace hpending hends => rw [conveyed, htrace, hpending]; exact List.Sublist.refl _
  | handled c rest hread hcontext htrace hpending hends =>
    rw [conveyed, conveyed, htrace, hread, handledCommands_handled, List.reverse_cons, List.append_assoc]
    exact ((hcut hpending).cons_cons c).append_left _
  | restarted hcontext htrace hpending hends =>
    rw [conveyed, htrace, hpending]
    exact (List.nil_sublist _).append_left _

theorem Move.ends {a : Applier α} {op : DriverOp α} {l l' : Link α} (h : Move a op l l') (he : l.OpenEnds) :
    l'.OpenEnds := by
  cases h with
  | passive h => exact h.ends he
  | registered _ _ _ _ hends => exact hends he
  | released _ _ _ _ hends => exact hends he
  | worked _ _ _ _ _ _ hends => exact hends he
  | handled _ _ _ _ _ _ hends => exact hends he
  | restarted _ _ _ hends => exact hends he

theorem stepDriver_ordered (a : Applier α) {l : Link α} (h : l.Ordered) (op : DriverOp α) :
    (stepDriver a l op).Ordered := by
  have hsent := (stepDriver_ext a l op).sent
  rw [Ordered, hsent]
  exact (stepDriver_move a l op).conveyed_sublist.trans h

/-! ## The daemon's steps -/

/-- what a daemon step that sends no command leaves alone -/
structure Reads (l l' : Link α) : Prop where
  driver : l'.driver = l.driver
  trace : l'.trace = l.trace
  pending : l'.pending = l.pending
  sent : l'.sent = l.sent
  driverOpen : ∀ w, (l'.wires w).driverOpen = (l.wires w).driverOpen

theorem Reads.refl (l : Link α) : Reads l l := ⟨rfl, rfl, rfl, rfl, fun _ => rfl⟩

theorem Reads.trans {l₁ l₂ l₃ : Link α} (h : Reads l₁ l₂) (h' : Reads l₂ l₃) : Reads l₁ l₃ :=
  ⟨h'.driver.trans h.driver, h'.trace.trans h.trace, h'.pending.trans h.pending, h'.sent.trans h.sent,
    fun w => (h'.driverOpen w).trans (h.driverOpen w)⟩

/-- the connections change, but not the commands on them nor the driver's ends -/
theorem Reads.of_wires {l l' : Link α} (hdriver : l'.driver = l.driver) (htrace : l'.trace = l.trace)
    (hsent : l'.sent = l.sent)
    (hdown : ∀ w, (l'.wires w).down.filterMap Down.command? = (l.wires w).down.filterMap Down.command?)
    (hopen : ∀ w, (l'.wires w).driverOpen = (l.wires w).driverOpen) : Reads l l' := by
  refine ⟨hdriver, htrace, ?_, hsent, hopen⟩
  unfold Link.pending
  rw [hdriver]
  split
  · rfl
  · exact hdown _

theorem Reads.of_wire (l : Link α) (w : ℕ) (x : Wire)
    (hdown : x.down.filterMap Down.command? = (l.wires w).down.filterMap Down.command?)
    (hopen : x.driverOpen = (l.wires w).driverOpen) : Reads l (l.setWire w x) := by
  refine Reads.of_wires rfl rfl rfl (fun v => ?_) fun v => ?_
  · by_cases hv : v = w
    · subst hv
      rw [setWire_self, hdown]
    · rw [setWire_ne l x hv]
  · by_cases hv : v = w
    · subst hv
      rw [setWire_self, hopen]
    · rw [setWire_ne l x hv]

theorem dropClient_reads (l : Link α) : Reads l l.dropClient := by
  unfold dropClient
  split
  · exact Reads.refl l
  · rename_i w _
    have h := Reads.of_wire l w { l.wires w with daemonOpen := false } rfl rfl
    exact ⟨h.driver, h.trace, h.pending, h.sent, h.driverOpen⟩

theorem acceptPending_reads (l : Link α) : Reads l l.acceptPending := by
  unfold acceptPending
  split
  · exact Reads.refl l
  · have h := dropClient_reads l
    exact ⟨h.driver, h.trace, h.pending, h.sent, h.driverOpen⟩

theorem sendDown_rescan_reads (l : Link α) (ok : Bool) : Reads l (l.sendDown .rescan ok).1 := by
  unfold sendDown
  split
  · exact Reads.refl l
  · split_ifs
    · exact Reads.of_wire l _ _ (by simp [Down.command?]) rfl
    · exact Reads.refl l

theorem process_reads (l : Link α) (f : Frame) (rescanSent : Bool) : Reads l (l.process f rescanSent) := by
  have h : Reads l { l with registry := l.registry.deliver f.event } := ⟨rfl, rfl, rfl, rfl, fun _ => rfl⟩
  unfold process
  split_ifs
  · exact ⟨rfl, rfl, rfl, rfl, fun _ => rfl⟩
  · exact h.trans (sendDown_rescan_reads _ rescanSent)
  · exact h

theorem recv_reads (l : Link α) (rescanSent : Bool) : Reads l (l.recv rescanSent).1 := by
  unfold recv
  split
  · exact Reads.refl l
  · rename_i w _
    split
    · rename_i f rest _
      have h : Reads l { l with received := l.received ++ [f] } := ⟨rfl, rfl, rfl, rfl, fun _ => rfl⟩
      exact (h.trans (Reads.of_wire _ w { l.wires w with up := rest } rfl rfl)).trans (process_reads _ f rescanSent)
    · split_ifs
      · exact Reads.refl l
      · exact dropClient_reads l

theorem restartDaemon_reads (l : Link α) : Reads l l.restartDaemon :=
  Reads.of_wires rfl rfl rfl (fun w => by simp only [restartDaemon]; split_ifs <;> rfl)
    fun w => by simp only [restartDaemon]; split_ifs <;> rfl

/-- a command that is sent joins the end of the ones in flight -/
theorem sendSnapshotCommand_cases (l : Link α) (he : l.OpenEnds) (c : Command) (ok : Bool) :
    ((l.sendSnapshotCommand c ok).2 = false ∧ (l.sendSnapshotCommand c ok).1 = l) ∨
    ((l.sendSnapshotCommand c ok).2 = true ∧ ∃ w, l.client = some w ∧ l.driver.socket = some w ∧
      (l.sendSnapshotCommand c ok).1 =
        { l.setWire w { l.wires w with down := (l.wires w).down ++ [.command c] } with sent := c :: l.sent } ∧
      (l.sendSnapshotCommand c ok).1.pending = l.pending ++ [c]) := by
  unfold sendSnapshotCommand sendDown
  cases hc : l.client with
  | none => exact .inl ⟨rfl, rfl⟩
  | some w =>
    simp only
    split_ifs with hok hsent
    · refine .inr ⟨rfl, w, rfl, he w hok.2, rfl, ?_⟩
      simp [Link.pending, he w hok.2, setWire, Down.command?]
    · exact absurd rfl hsent
    · rename_i hf
      cases hf
    · exact .inl ⟨rfl, rfl⟩

/-- a daemon step other than a send -/
theorem stepDaemon_reads (l : Link α) (op : DaemonOp) (hop : ∀ c ok, op ≠ .send c ok) :
    Reads l (l.stepDaemon op) := by
  cases op with
  | accept => exact acceptPending_reads l
  | recv rescanSent => exact recv_reads l rescanSent
  | send c ok => exact absurd rfl (hop c ok)
  | take => exact ⟨rfl, rfl, rfl, rfl, fun _ => rfl⟩
  | restart => exact restartDaemon_reads l

theorem Reads.ordered {l l' : Link α} (h : Reads l l') (ho : l.Ordered) : l'.Ordered := by
  unfold Ordered conveyed at ho ⊢
  rw [h.trace, h.pending, h.sent]
  exact ho

theorem Reads.ends {l l' : Link α} (h : Reads l l') (he : l.OpenEnds) : l'.OpenEnds := fun w hw => by
  rw [h.driver]
  exact he w (h.driverOpen w ▸ hw)

theorem sendSnapshotCommand_ordered {l : Link α} (h : l.Ordered) (he : l.OpenEnds) (c : Command) (ok : Bool) :
    (l.sendSnapshotCommand c ok).1.Ordered := by
  obtain ⟨-, hb⟩ | ⟨-, w, -, -, hb, hp⟩ := sendSnapshotCommand_cases l he c ok
  · rw [hb]
    exact h
  · have hs : (l.sendSnapshotCommand c ok).1.sent = c :: l.sent := by rw [hb]
    have ht : (l.sendSnapshotCommand c ok).1.trace = l.trace := by rw [hb]; rfl
    rw [Ordered, conveyed, hp, hs, ht, List.reverse_cons, ← List.append_assoc]
    exact h.append (List.Sublist.refl [c])

theorem sendSnapshotCommand_ends {l : Link α} (he : l.OpenEnds) (c : Command) (ok : Bool) :
    (l.sendSnapshotCommand c ok).1.OpenEnds := by
  obtain ⟨-, hb⟩ | ⟨-, w, -, hw, hb, -⟩ := sendSnapshotCommand_cases l he c ok
  · rw [hb]
    exact he
  · rw [hb]
    intro v hv
    refine he v ?_
    by_cases hvw : v = w
    · subst hvw
      simpa using hv
    · simpa [setWire_ne l _ hvw] using hv

/-! ## Contexts and their past -/

/-- a predicate on a context, its id and what happened so far, that every step which can touch a context preserves;
`before d c` is what is known of two commands when `d` is handled before `c`, `works` the work of a context's threads -/
structure Closed (a : Applier α) (before : Command → Command → Prop) (works : (α → α) → Prop)
    (P : ℕ → List (Note α) → α → Prop) : Prop where
  fresh : ∀ id known trace, P id (.registered id known :: trace) a.fresh
  registered : ∀ id id' known trace x, id ≠ id' → P id trace x → P id (.registered id' known :: trace) x
  worked : ∀ id f trace x, works f → P id trace x → P id trace (f x)
  handled : ∀ id (contexts : Table ℕ (DriverContext α)) c trace y, contexts.get? id = some y →
    (∀ d ∈ handledCommands trace, before d c) → P id trace y.ext →
    P id (.handled c contexts :: trace) (a.run y.ext c).1

/-- the predicate holds of every context, and held of every context when a command was handled -/
structure Throughout (P : ℕ → List (Note α) → α → Prop) (l : Link α) : Prop where
  now : ∀ id x, l.context id = some x → P id l.trace x
  past : ∀ later c contexts earlier, l.trace = later ++ .handled c contexts :: earlier →
    ∀ id y, contexts.get? id = some y → P id earlier y.ext

theorem Throughout.of_eq {P : ℕ → List (Note α) → α → Prop} {l l' : Link α} (h : Throughout P l)
    (hdriver : l'.driver = l.driver) (htrace : l'.trace = l.trace) : Throughout P l' := by
  refine ⟨fun id x hx => ?_, fun later c contexts earlier ht => h.past later c contexts earlier (htrace ▸ ht)⟩
  rw [htrace]
  refine h.now id x ?_
  rwa [Link.context, hdriver] at hx

/-- a note that is not about a command leaves the past as it was -/
theorem Throughout.past_cons {P : ℕ → List (Note α) → α → Prop} {l : Link α} (h : Throughout P l) {n : Note α}
    (hn : ∀ c contexts, n ≠ .handled c contexts) :
    ∀ later c contexts earlier, n :: l.trace = later ++ .handled c contexts :: earlier →
      ∀ id y, contexts.get? id = some y → P id earlier y.ext := by
  intro later c contexts earlier ht
  cases later with
  | nil => exact absurd (List.cons.inj ht).1 (hn c contexts)
  | cons m later => exact h.past later c contexts earlier (List.cons.inj ht).2

/-- **Whatever every step preserves holds throughout.** -/
theorem Closed.move {a : Applier α} {before : Command → Command → Prop} {works : (α → α) → Prop}
    {P : ℕ → List (Note α) → α → Prop} (hc : Closed a before works P) {op : DriverOp α}
    (hop : ∀ id f, op = .touch id f → works f) {l l' : Link α} (hm : Move a op l l')
    (hbefore : ∀ c rest, l.pending = c :: rest → ∀ d ∈ handledCommands l.trace, before d c)
    (h : Throughout P l) : Throughout P l' := by
  cases hm with
  | passive hp =>
    refine ⟨fun id x hx => ?_, fun later c contexts earlier ht => ?_⟩
    · rw [hp.trace]
      exact h.now id x ((hp.context id).symm.trans hx)
    · exact h.past later c contexts earlier (hp.trace ▸ ht)
  | registered id hcontext htrace hpending hends =>
    refine ⟨fun x y hy => ?_, ?_⟩
    · rw [hcontext] at hy
      rw [htrace]
      split_ifs at hy with hx
      · obtain rfl := Option.some.inj hy
        subst hx
        exact hc.fresh _ _ _
      · exact hc.registered x id _ _ y (Ne.symm hx) (h.now x y hy)
    · rw [htrace]
      exact h.past_cons (by simp)
  | released id hcontext htrace hpending hends =>
    refine ⟨fun x y hy => ?_, fun later c contexts earlier ht => h.past later c contexts earlier (htrace ▸ ht)⟩
    rw [hcontext] at hy
    rw [htrace]
    split_ifs at hy
    exact h.now x y hy
  | worked id f hop' hcontext htrace hpending hends =>
    refine ⟨fun x y hy => ?_, fun later c contexts earlier ht => h.past later c contexts earlier (htrace ▸ ht)⟩
    rw [hcontext] at hy
    rw [htrace]
    split_ifs at hy with hx
    · obtain ⟨y₀, hy₀, rfl⟩ := Option.map_eq_some_iff.mp hy
      exact hc.worked x f _ y₀ (hop id f hop') (h.now x y₀ hy₀)
    · exact h.now x y hy
  | handled c rest hread hcontext htrace hpending hends =>
    have hnow : ∀ id y, l.driver.contexts.get? id = some y → P id l.trace y.ext := by
      intro id y hy
      exact h.now id y.ext (by rw [Link.context, hy]; rfl)
    refine ⟨fun x y hy => ?_, fun later d contexts earlier ht id z hz => ?_⟩
    · rw [hcontext, Link.context] at hy
      rw [htrace]
      obtain ⟨y₁, hy₁, rfl⟩ := Option.map_eq_some_iff.mp hy
      obtain ⟨y₀, hy₀, rfl⟩ := Option.map_eq_some_iff.mp hy₁
      exact hc.handled x _ c _ y₀ hy₀ (hbefore c rest hread) (hnow x y₀ hy₀)
    · rw [htrace] at ht
      cases later with
      | nil =>
        obtain ⟨hnote, htail⟩ := List.cons.inj ht
        obtain ⟨rfl, rfl⟩ := Note.handled.inj hnote
        subst htail
        exact hnow id z hz
      | cons m later => exact h.past later d contexts earlier (List.cons.inj ht).2 id z hz
  | restarted hcontext htrace hpending hends =>
    refine ⟨fun x y hy => ?_, ?_⟩
    · rw [hcontext] at hy
      cases hy
    · rw [htrace]
      exact h.past_cons (by simp)

end Link

end ViperFx.Channel
