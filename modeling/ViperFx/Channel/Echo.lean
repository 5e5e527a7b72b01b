/-
Which answer the daemon has taken, over every run of the link.

The bridge thread gives at most one answer to each command it has handled, and none to a chunk that went well; the
answers travel in the stream behind one another. So the answers the daemon has heard, followed by those it may still
hear, are a subsequence of the answers that were given: they are lost with a connection or a full socket, never doubled,
never overtaken. The daemon keeps the last one it has heard. When it takes an answer under a ticket a second time, that
answer was given to a command the driver had handled after another command of the same ticket.

Results:
  · stepDriver_echoes, stepDaemon_echoes : heard and unheard answers are a subsequence of the given ones
  · Kept.take, stepDaemon_kept           : what has been taken was heard before what is kept now
  · Echoes.second                        : the second answer under a ticket is not the answer to its first command
-/
import ViperFx.Channel.Answers

namespace ViperFx.Channel

open ViperFx.Core ViperFx.Protocol ViperFx.Daemon

/-! ## Answers given and answers heard -/

/-- the answer a frame carries: the command it names and whether it is an ACK -/
def answerOf (f : Frame) : Option (Ticket × Bool) :=
  if isAnswer f.event then some ((Link.outcomeOf f).ticket, (Link.outcomeOf f).accepted) else none

theorem answerOf_eq_none {f : Frame} (h : ¬ isAnswer f.event) : answerOf f = none := by simp [answerOf, h]

section Replies

variable {α : Type} (a : Applier α)

/-- the answer the bridge thread gives once it has handled a command -/
def replyOf : Note α → Option (Ticket × Bool)
  | .handled c contexts =>
    if c.type = .snapshotChunk ∧ (Link.applySnapshotCommand a contexts c).2.accepted then none
    else some (c.ticket, (Link.applySnapshotCommand a contexts c).2.accepted)
  | _ => none

/-- the answers given, newest first -/
def replies (trace : List (Note α)) : List (Ticket × Bool) := trace.filterMap (replyOf a)

variable {a}

/-- an answer that was given is the answer to a handled command, and no ACK of a chunk -/
theorem replyOf_inv {n : Note α} {q : Ticket} {accepted : Bool} (h : replyOf a n = some (q, accepted)) :
    ∃ c contexts, n = .handled c contexts ∧ c.ticket = q ∧
      accepted = (Link.applySnapshotCommand a contexts c).2.accepted ∧
      ¬ (c.type = .snapshotChunk ∧ accepted = true) := by
  cases n with
  | handled c contexts =>
    simp only [replyOf] at h
    split_ifs at h with hc
    obtain ⟨rfl, rfl⟩ := Prod.mk.inj (Option.some.inj h)
    exact ⟨c, contexts, rfl, rfl, rfl, hc⟩
  | registered id known => cases h
  | restarted => cases h

end Replies

namespace Link

variable {α : Type}

/-- the answers the daemon has heard, in order -/
def answersHeard (l : Link α) : List (Ticket × Bool) := l.received.filterMap answerOf

/-- answers are lost, never made up, doubled or overtaken -/
def Echoes (a : Applier α) (l : Link α) : Prop := (l.stream.filterMap answerOf).Sublist (replies a l.trace).reverse

/-- what a driver step adds to the stream: no answer but those to the commands it has handled -/
def Adds (a : Applier α) (l l' : Link α) : Prop :=
  ∃ frames notes, l'.stream = l.stream ++ frames ∧ l'.trace = notes ++ l.trace ∧
    (frames.filterMap answerOf).Sublist (replies a notes).reverse

theorem Adds.echoes {a : Applier α} {l l' : Link α} (h : Adds a l l') (he : Echoes a l) : Echoes a l' := by
  obtain ⟨frames, notes, hstream, htrace, hsub⟩ := h
  rw [Echoes, hstream, htrace, replies, List.filterMap_append, List.filterMap_append, List.reverse_append]
  exact he.append hsub

theorem Adds.of_stream {a : Applier α} {l l' : Link α} (hstream : l'.stream = l.stream)
    (htrace : ∃ notes, l'.trace = notes ++ l.trace) : Adds a l l' := by
  obtain ⟨notes, htrace⟩ := htrace
  exact ⟨[], notes, by rw [hstream, List.append_nil], htrace, List.nil_sublist _⟩

theorem closeConnection_stream (l : Link α) : l.closeConnection.stream = l.stream := by
  unfold closeConnection
  split
  · rfl
  · exact stream_setWire l _ _ rfl

/-- a send adds its frame to the end of the stream, or the frame is lost -/
theorem sendEvent_stream {l : Link α} (h : l.Wired) (r : SendResult) (f : Frame) :
    (l.sendEvent r f).1.stream = l.stream ∨ (l.sendEvent r f).1.stream = l.stream ++ [f] := by
  obtain ⟨-, hb⟩ | ⟨w, hw, ho, -, hb⟩ | ⟨w, -, -, hb⟩ | ⟨w, -, -, hb⟩ := sendEvent_cases l r f
  · rw [hb]
    exact .inl rfl
  · rw [hb]
    exact .inr (h.stream_append hw ho f)
  · rw [hb]
    exact .inl rfl
  · rw [hb]
    exact .inl (closeConnection_stream l)

theorem sendStamped_stream {l : Link α} (h : l.Wired) (r : SendResult) (e : DriverEvent) (tag : Tag) :
    (l.sendStamped r e tag).1.stream = l.stream ∨
      (l.sendStamped r e tag).1.stream = l.stream ++ [⟨l.driver.mark e, tag, l.driver.phase⟩] :=
  sendEvent_stream (l := l.setDriver { l.driver with nextSequence := l.driver.nextSequence + 1 })
    ⟨h.sorted, h.old, h.isOpen, h.newest, h.held⟩ r _

/-- the stream may have grown by one frame, which is no answer -/
def GrowsPlainly (l l' : Link α) : Prop :=
  l'.stream = l.stream ∨ ∃ f, ¬ isAnswer f.event ∧ l'.stream = l.stream ++ [f]

theorem GrowsPlainly.of_sent {l l' : Link α} {f : Frame} (hf : ¬ isAnswer f.event)
    (h : l'.stream = l.stream ∨ l'.stream = l.stream ++ [f]) : GrowsPlainly l l' := h.imp id fun h => ⟨f, hf, h⟩

theorem GrowsPlainly.adds {a : Applier α} {l l' : Link α} (h : GrowsPlainly l l')
    (htrace : ∃ notes, l'.trace = notes ++ l.trace) : Adds a l l' := by
  rcases h with hstream | ⟨f, hf, hstream⟩
  · exact Adds.of_stream hstream htrace
  · obtain ⟨notes, htrace⟩ := htrace
    refine ⟨[f], notes, hstream, htrace, ?_⟩
    simp [answerOf_eq_none hf]

theorem connect_grows {l : Link α} (h : l.Shape) (r : SendResult) : GrowsPlainly l (l.connect r) := by
  unfold connect
  simp only
  have hsend := sendStamped_stream h.openWire.wired r { type := .driverHello } .live
  rw [h.wired.openWire_stream] at hsend
  have hplain : ¬ isAnswer (l.openWire.driver.mark { type := .driverHello }) := by simp [isAnswer, Driver.mark]
  split_ifs
  · exact GrowsPlainly.of_sent hplain hsend
  · exact GrowsPlainly.of_sent hplain hsend
  · exact .inl rfl

theorem replaySend_grows {l : Link α} (h : l.Shape) (hplain : l.driver.Plain) (r : SendResult) :
    GrowsPlainly l (l.replaySend r) := by
  unfold replaySend
  split
  · exact .inl rfl
  · rename_i rp hrp
    split
    · exact .inl rfl
    · rename_i e rest hrest
      have he : ¬ isAnswer e := hplain e (by simp [Driver.unsentEvents, hrp, hrest])
      exact GrowsPlainly.of_sent he (sendStamped_stream h.wired r e (.replay rp.number))

theorem drain_grows {l : Link α} (h : l.Shape) (hplain : l.driver.Plain) (r : SendResult) :
    GrowsPlainly l (l.drain r) := by
  unfold drain
  split_ifs
  · exact .inl rfl
  · split
    · exact .inl rfl
    · rename_i e rest hq
      have he : ¬ isAnswer e := hplain e (by simp [Driver.unsentEvents, hq])
      have hsend := sendEvent_stream (l := l.setDriver { l.driver with queue := rest })
        ⟨h.wired.sorted, h.wired.old, h.wired.isOpen, h.wired.newest, h.wired.held⟩ r ⟨e, .live, l.driver.phase⟩
      simp only
      split_ifs
      · exact GrowsPlainly.of_sent he hsend
      · exact GrowsPlainly.of_sent he hsend

/-- the answer to a command is the one its fan-out gave -/
theorem answerOf_reply (d : Driver α) (c : Command) (ack : SnapshotAck) (phase : ℕ) :
    answerOf ⟨d.mark (replyEvent c ack), .reply c.ticket, phase⟩ = some (c.ticket, ack.accepted) := by
  cases hack : ack.accepted <;> simp [answerOf, isAnswer, outcomeOf, replyEvent, Driver.mark, Tag.life, hack]

theorem handleSnapshotCommand_adds (a : Applier α) {l : Link α} (h : l.Wired) (c : Command) (r : SendResult) :
    Adds a l (handleSnapshotCommand a l c r) := by
  set m := (l.setDriver { l.driver with contexts := (applySnapshotCommand a l.driver.contexts c).1 }).note
    (.handled c l.driver.contexts) with hm
  have hwired : m.Wired := ⟨h.sorted, h.old, h.isOpen, h.newest, h.held⟩
  unfold handleSnapshotCommand
  simp only
  split_ifs with hsilent
  · exact Adds.of_stream rfl ⟨[.handled c l.driver.contexts], rfl⟩
  · have htrace := (sendStamped_passive m r (replyEvent c (applySnapshotCommand a l.driver.contexts c).2)
      (.reply c.ticket)).trace
    rcases sendStamped_stream hwired r (replyEvent c (applySnapshotCommand a l.driver.contexts c).2)
      (.reply c.ticket) with hstream | hstream
    · exact Adds.of_stream hstream ⟨[.handled c l.driver.contexts], htrace⟩
    · refine ⟨_, [.handled c l.driver.contexts], hstream, htrace, ?_⟩
      simp only [replies, List.filterMap_cons, List.filterMap_nil, replyOf, if_neg hsilent, answerOf_reply,
        List.reverse_singleton]
      exact List.Sublist.refl _

theorem handle_adds (a : Applier α) {l : Link α} (h : l.Shape) (r : SendResult) : Adds a l (handle a l r) := by
  unfold handle
  split_ifs
  · exact Adds.of_stream rfl ⟨[], rfl⟩
  · cases hw : l.driver.socket with
    | none => exact Adds.of_stream rfl ⟨[], rfl⟩
    | some w =>
      simp only
      cases hdown : (l.wires w).down with
      | nil => exact Adds.of_stream rfl ⟨[], rfl⟩
      | cons frame rest =>
        have hstream := stream_setWire l w { l.wires w with down := rest } rfl
        cases frame with
        | rescan => exact Adds.of_stream hstream ⟨[], rfl⟩
        | command c =>
          have hpop := (h.setWire w { l.wires w with down := rest } rfl rfl).wired
          obtain ⟨frames, notes, hs, ht, hsub⟩ := handleSnapshotCommand_adds a hpop c r
          exact ⟨frames, notes, hs.trans (by rw [hstream]), ht, hsub⟩

/-- **What a driver step adds to the stream.** -/
theorem stepDriver_adds (a : Applier α) {l : Link α} (h : l.Shape) (hplain : l.driver.Plain) (op : DriverOp α) :
    Adds a l (stepDriver a l op) := by
  have hext := (stepDriver_ext a l op).trace
  cases op with
  | connect r => exact (connect_grows h r).adds hext
  | replaySend r => exact (replaySend_grows h hplain r).adds hext
  | drain r => exact (drain_grows h hplain r).adds hext
  | handle r => exact handle_adds a h r
  | hangup =>
    refine Adds.of_stream ?_ hext
    simp only [stepDriver, hangup]
    split_ifs
    · exact closeConnection_stream l
    · rfl
  | restart => exact Adds.of_stream (closeConnection_stream l) hext
  | register _ _ | publishConfigured _ _ _ | publishEnabled _ _ | publishGenerations _ _ _ | publishTelemetry _ _
  | unregister _ | stamp _ | enqueue _ | collect | touch _ _ => exact Adds.of_stream rfl hext

theorem stepDriver_echoes (a : Applier α) {l : Link α} (h : l.Shape) (hplain : l.driver.Plain) (he : Echoes a l)
    (op : DriverOp α) : Echoes a (stepDriver a l op) := (stepDriver_adds a h hplain op).echoes he

/-! ## The daemon's end -/

theorem sendDown_stream (l : Link α) (frame : Down) (ok : Bool) : (l.sendDown frame ok).1.stream = l.stream := by
  unfold sendDown
  split
  · rfl
  · split_ifs
    · exact stream_setWire l _ _ rfl
    · rfl

theorem process_stream (l : Link α) (f : Frame) (rescanSent : Bool) : (l.process f rescanSent).stream = l.stream := by
  unfold process
  split_ifs
  · rfl
  · exact sendDown_stream { l with registry := l.registry.deliver f.event } .rescan rescanSent
  · rfl

theorem recv_stream {l : Link α} (h : l.Wired) (rescanSent : Bool) : (l.recv rescanSent).1.stream.Sublist l.stream := by
  unfold recv
  split
  · exact List.Sublist.refl _
  · rename_i w hw
    split
    · rename_i f rest hup
      rw [process_stream, stream_take h hw hup]
    · split_ifs
      · exact List.Sublist.refl _
      · exact dropClient_stream h

theorem sendSnapshotCommand_stream (l : Link α) (c : Command) (ok : Bool) :
    (l.sendSnapshotCommand c ok).1.stream = l.stream := by
  have h := sendDown_stream l (.command c) ok
  unfold sendSnapshotCommand
  simp only
  split_ifs
  · exact h
  · exact h

theorem stepDaemon_stream {l : Link α} (h : l.Wired) (op : DaemonOp) : (l.stepDaemon op).stream.Sublist l.stream := by
  cases op with
  | accept => exact acceptPending_stream h
  | recv rescanSent => exact recv_stream h rescanSent
  | send c ok =>
    simp only [stepDaemon]
    rw [sendSnapshotCommand_stream]
  | take => exact List.Sublist.refl _
  | restart => exact List.nil_sublist _

theorem sendSnapshotCommand_trace (l : Link α) (c : Command) (ok : Bool) :
    (l.sendSnapshotCommand c ok).1.trace = l.trace := by
  unfold sendSnapshotCommand sendDown
  cases l.client with
  | none => rfl
  | some w =>
    simp only
    split_ifs <;> rfl

theorem stepDaemon_trace (l : Link α) (op : DaemonOp) : (l.stepDaemon op).trace = l.trace := by
  cases op with
  | send c ok => exact sendSnapshotCommand_trace l c ok
  | accept => exact (acceptPending_reads l).trace
  | recv rescanSent => exact (recv_reads l rescanSent).trace
  | take => rfl
  | restart => rfl

theorem stepDaemon_echoes {a : Applier α} {l : Link α} (h : l.Wired) (he : Echoes a l) (op : DaemonOp) :
    Echoes a (l.stepDaemon op) := by
  rw [Echoes, stepDaemon_trace]
  exact ((stepDaemon_stream h op).filterMap answerOf).trans he

/-! ## The answer that is kept -/

/-- `k` answers to `q` were heard before the answer that is kept -/
def Kept (q : Ticket) (k : ℕ) (l : Link α) : Prop :=
  k ≤ l.answersHeard.countP (fun x => x.1 = q) ∧
    ∀ o, l.outcome = some o →
      ∃ earlier, l.answersHeard = earlier ++ [(o.ticket, o.accepted)] ∧ k ≤ earlier.countP (fun x => x.1 = q)

theorem Kept.of_eq {q : Ticket} {k : ℕ} {l l' : Link α} (h : Kept q k l) (hreceived : l'.received = l.received)
    (houtcome : l'.outcome = l.outcome) : Kept q k l' := by
  unfold Kept answersHeard at h ⊢
  rw [hreceived, houtcome]
  exact h

theorem stepDriver_kept {a : Applier α} {q : Ticket} {k : ℕ} {l : Link α} (h : Kept q k l) (op : DriverOp α) :
    Kept q k (stepDriver a l op) := h.of_eq (stepDriver_ext a l op).received (stepDriver_ext a l op).outcome

theorem dropClient_kept {q : Ticket} {k : ℕ} {l : Link α} (h : Kept q k l) : Kept q k l.dropClient := by
  unfold dropClient
  split
  · exact h
  · exact h

theorem acceptPending_kept {q : Ticket} {k : ℕ} {l : Link α} (h : Kept q k l) : Kept q k l.acceptPending := by
  unfold acceptPending
  split
  · exact h
  · exact dropClient_kept h

theorem sendDown_outcome (l : Link α) (frame : Down) (ok : Bool) : (l.sendDown frame ok).1.outcome = l.outcome := by
  unfold sendDown
  split
  · rfl
  · split_ifs <;> rfl

theorem sendDown_kept {q : Ticket} {k : ℕ} {l : Link α} (h : Kept q k l) (frame : Down) (ok : Bool) :
    Kept q k (l.sendDown frame ok).1 := h.of_eq (sendDown_received l frame ok) (sendDown_outcome l frame ok)

theorem sendSnapshotCommand_kept {q : Ticket} {k : ℕ} {l : Link α} (h : Kept q k l) (c : Command) (ok : Bool) :
    Kept q k (l.sendSnapshotCommand c ok).1 := by
  have hs := sendDown_kept h (.command c) ok
  unfold sendSnapshotCommand
  simp only
  split_ifs
  · exact hs
  · exact hs

/-- the answer that was read last is the one that is kept -/
theorem Kept.heard_answer {q : Ticket} {k : ℕ} {l l' : Link α} (h : Kept q k l) {f : Frame} (hf : isAnswer f.event)
    (hreceived : l'.received = l.received ++ [f]) (houtcome : l'.outcome = some (outcomeOf f)) : Kept q k l' := by
  have hheard : l'.answersHeard = l.answersHeard ++ [((outcomeOf f).ticket, (outcomeOf f).accepted)] := by
    simp [answersHeard, hreceived, answerOf, hf]
  refine ⟨?_, fun o ho => ?_⟩
  · rw [hheard, List.countP_append]
    exact h.1.trans (Nat.le_add_right _ _)
  · obtain rfl := Option.some.inj (houtcome.symm.trans ho)
    exact ⟨l.answersHeard, hheard, h.1⟩

theorem Kept.heard_event {q : Ticket} {k : ℕ} {l l' : Link α} (h : Kept q k l) {f : Frame} (hf : ¬ isAnswer f.event)
    (hreceived : l'.received = l.received ++ [f]) (houtcome : l'.outcome = l.outcome) : Kept q k l' := by
  have hheard : l'.answersHeard = l.answersHeard := by
    simp [answersHeard, hreceived, answerOf_eq_none hf]
  unfold Kept
  rw [hheard, houtcome]
  exact h

theorem recv_kept {q : Ticket} {k : ℕ} {l : Link α} (h : Kept q k l) (rescanSent : Bool) :
    Kept q k (l.recv rescanSent).1 := by
  unfold recv
  split
  · exact h
  · rename_i w _
    split
    · rename_i f rest _
      unfold process
      split_ifs with hf
      · exact h.heard_answer hf rfl rfl
      · exact h.heard_event hf (sendDown_received _ _ _) (sendDown_outcome _ _ _)
      · exact h.heard_event hf rfl rfl
    · split_ifs
      · exact h
      · exact dropClient_kept h

/-- a daemon step other than its restart -/
theorem stepDaemon_kept {q : Ticket} {k : ℕ} {l : Link α} (h : Kept q k l) (op : DaemonOp) (hop : op ≠ .restart) :
    Kept q k (l.stepDaemon op) := by
  cases op with
  | accept => exact acceptPending_kept h
  | recv rescanSent => exact recv_kept h rescanSent
  | send c ok => exact sendSnapshotCommand_kept h c ok
  | take => exact ⟨h.1, fun o ho => by cases ho⟩
  | restart => exact absurd rfl hop

/-- an answer under the ticket is taken -/
theorem Kept.take {q : Ticket} {k : ℕ} {l : Link α} (h : Kept q k l) {o : ApplyOutcome} (ho : l.outcome = some o)
    (hq : o.ticket = q) : Kept q (k + 1) l.takeApplyOutcome := by
  obtain ⟨earlier, hheard, hk⟩ := h.2 o ho
  refine ⟨?_, fun o' ho' => by cases ho'⟩
  have hcount : l.takeApplyOutcome.answersHeard = earlier ++ [(o.ticket, o.accepted)] := hheard
  rw [hcount, List.countP_append]
  simpa [hq] using hk

/-- two answers in a row were given to one command and, before it, to another -/
theorem filterMap_pair {β γ : Type} {f : β → Option γ} {x y : γ} {xs : List β} (h : [x, y].Sublist (xs.filterMap f)) :
    ∃ newer n older, xs = newer ++ n :: older ∧ f n = some x ∧ y ∈ older.filterMap f := by
  induction xs with
  | nil => cases h
  | cons n xs ih =>
    have hlater : [x, y].Sublist (xs.filterMap f) →
        ∃ newer m older, n :: xs = newer ++ m :: older ∧ f m = some x ∧ y ∈ older.filterMap f := by
      intro h
      obtain ⟨newer, m, older, rfl, rest⟩ := ih h
      exact ⟨n :: newer, m, older, rfl, rest⟩
    cases hn : f n with
    | none =>
      rw [List.filterMap_cons_none hn] at h
      exact hlater h
    | some z =>
      rw [List.filterMap_cons_some hn] at h
      cases h with
      | cons _ h => exact hlater h
      | cons_cons _ h => exact ⟨[], n, xs, rfl, hn, List.singleton_sublist.mp h⟩

/-- **The second answer under a ticket.** When an answer to `q` was taken before, the answer to `q` that is kept now was
given to a command handled after another one of the same ticket. -/
theorem Echoes.second {a : Applier α} {l : Link α} (h : Echoes a l) {q : Ticket} (hk : Kept q 1 l) {o : ApplyOutcome}
    (ho : l.outcome = some o) (hq : o.ticket = q) :
    ∃ newer c contexts older, l.trace = newer ++ .handled c contexts :: older ∧ c.ticket = q ∧
      o.accepted = (applySnapshotCommand a contexts c).2.accepted ∧ ¬ (c.type = .snapshotChunk ∧ o.accepted = true) ∧
      ∃ d ∈ handledCommands older, d.ticket = q := by
  obtain ⟨earlier, hheard, hcount⟩ := hk.2 o ho
  obtain ⟨⟨q', accepted⟩, hmem, hq'⟩ := List.countP_pos_iff.mp hcount
  obtain rfl : q' = q := by simpa using hq'
  have hpair : [(q', accepted), (q', o.accepted)].Sublist l.answersHeard := by
    rw [hheard, hq]
    exact (List.singleton_sublist.mpr hmem).append (List.Sublist.refl _)
  have hgiven : [(q', o.accepted), (q', accepted)].Sublist (l.trace.filterMap (replyOf a)) := by
    have hbegins : l.answersHeard.Sublist (l.stream.filterMap answerOf) := by
      unfold answersHeard stream
      rw [List.filterMap_append]
      exact List.sublist_append_left _ _
    have := ((hpair.trans hbegins).trans h).reverse
    rwa [List.reverse_reverse] at this
  obtain ⟨newer, n, older, htrace, hn, hold⟩ := filterMap_pair hgiven
  obtain ⟨c, contexts, rfl, hc, haccepted, hchunk⟩ := replyOf_inv hn
  obtain ⟨m, hm, hreply⟩ := List.mem_filterMap.mp hold
  obtain ⟨d, others, rfl, hd, -⟩ := replyOf_inv hreply
  exact ⟨newer, c, contexts, older, htrace, hc, haccepted, hchunk, d, mem_handledCommands.mpr ⟨others, hm⟩, hd⟩

end Link

end ViperFx.Channel
