/-
The driver's answers on their way back, over every run of the link.

An answer is sent by the bridge thread when it has handled a command, on the connection the command came from, and the
daemon keeps the last answer it has read until it takes it. So whatever the daemon takes was given to a command the
driver handled, says what the fan-out of that command said, and answers the same daemon process: a daemon that starts
again reads none of the connections of the one before.

Results:
  · stepDriver_answers                : a driver step sends no answer but to the command it has just handled
  · recv_answers, restartDaemon_answers, sendSnapshotCommand_answers : what the daemon holds is vouched for
-/
import ViperFx.Channel.Pipeline

namespace ViperFx.Channel

open ViperFx.Core ViperFx.Protocol ViperFx.Daemon

/-! ## Answers and plain events -/

def isAnswer (e : DriverEvent) : Prop := e.type = .snapshotAppliedAck ∨ e.type = .snapshotAppliedNack

instance (e : DriverEvent) : Decidable (isAnswer e) := by unfold isAnswer; infer_instance

namespace Driver

variable {α : Type}

/-- the events the driver has made and not sent yet -/
def unsentEvents (d : Driver α) : List DriverEvent :=
  d.unstamped.map Pending.event ++ d.stamped ++ d.queue ++ (d.replay.map Replay.unsent).getD []

/-- events about contexts are no answers -/
def Plain (d : Driver α) : Prop := ∀ e ∈ d.unsentEvents, ¬ isAnswer e

theorem Plain.of_subset {d d' : Driver α} (h : d.Plain)
    (hsub : ∀ e ∈ d'.unsentEvents, e ∈ d.unsentEvents ∨ ¬ isAnswer e) : d'.Plain := fun e he =>
  (hsub e he).elim (h e) id

theorem pend_plain {d : Driver α} (h : d.Plain) {e : DriverEvent} (he : ¬ isAnswer e) : (d.pend e).Plain := by
  refine h.of_subset fun x hx => ?_
  simp only [unsentEvents, pend, List.map_append, List.mem_append, List.map_cons, List.map_nil,
    List.mem_singleton] at hx ⊢
  rcases hx with (((hx | rfl) | hx) | hx) | hx
  · exact .inl (.inl (.inl (.inl hx)))
  · exact .inr he
  · exact .inl (.inl (.inl (.inr hx)))
  · exact .inl (.inl (.inr hx))
  · exact .inl (.inr hx)

theorem publish_plain {d : Driver α} (h : d.Plain) (id : ℕ)
    (change : DriverContext α → Option (DriverContext α × DriverEventType))
    (hchange : ∀ c c' type, change c = some (c', type) → type ≠ .snapshotAppliedAck ∧ type ≠ .snapshotAppliedNack) :
    (d.publish id change).Plain := by
  unfold publish
  split_ifs
  · exact h
  · split
    · exact h
    · split
      · exact h
      · rename_i c' type hc
        have ht := hchange _ c' type hc
        exact pend_plain (d := { d with contexts := d.contexts.put id c' }) h fun ha => ha.elim ht.1 ht.2

theorem register_plain {d : Driver α} (h : d.Plain) (fresh : α) (audioSessionId ioId : ℕ) :
    (d.register fresh audioSessionId ioId).Plain :=
  pend_plain (d := { d with
    started := true
    contexts := d.contexts.put d.nextContextInstanceId { record := { audioSessionId, ioId }, ext := fresh }
    nextContextInstanceId := d.nextContextInstanceId + 1 }) h (by simp [isAnswer, makeEvent])

theorem unregister_plain {d : Driver α} (h : d.Plain) (id : ℕ) : (d.unregister id).Plain := by
  unfold unregister
  split_ifs
  · exact h
  · split
    · exact h
    · exact pend_plain (d := { d with contexts := d.contexts.erase id }) h (by simp [isAnswer, makeEvent])

theorem stamp_plain {d : Driver α} (h : d.Plain) (i : ℕ) : (d.stamp i).Plain := by
  unfold stamp
  split
  · exact h
  · rename_i p hp
    have hmem : p.event ∈ d.unsentEvents := by
      simp only [unsentEvents, List.mem_append]
      exact .inl (.inl (.inl (List.mem_map.mpr ⟨p, List.mem_of_getElem? hp, rfl⟩)))
    refine h.of_subset fun x hx => ?_
    simp only [unsentEvents, List.mem_append, List.mem_singleton] at hx ⊢
    rcases hx with ((hx | hx | rfl) | hx) | hx
    · exact .inl (.inl (.inl (.inl (List.map_subset _ (List.eraseIdx_subset) hx))))
    · exact .inl (.inl (.inl (.inr hx)))
    · exact .inr fun ha => h p.event hmem ha
    · exact .inl (.inl (.inr hx))
    · exact .inl (.inr hx)

theorem enqueue_plain {d : Driver α} (h : d.Plain) (i : ℕ) : (d.enqueue i).Plain := by
  unfold enqueue
  split
  · exact h
  · rename_i e he
    have hmem : e ∈ d.stamped := List.mem_of_getElem? he
    split_ifs
    · refine h.of_subset fun x hx => .inl ?_
      simp only [unsentEvents, List.mem_append] at hx ⊢
      rcases hx with ((hx | hx) | hx) | hx
      · exact .inl (.inl (.inl hx))
      · exact .inl (.inl (.inr (List.eraseIdx_subset hx)))
      · exact .inl (.inr hx)
      · exact .inr hx
    · refine h.of_subset fun x hx => .inl ?_
      simp only [unsentEvents, List.mem_append, List.mem_singleton] at hx ⊢
      rcases hx with ((hx | hx) | hx | rfl) | hx
      · exact .inl (.inl (.inl hx))
      · exact .inl (.inl (.inr (List.eraseIdx_subset hx)))
      · exact .inl (.inr hx)
      · exact .inl (.inl (.inr hmem))
      · exact .inr hx

theorem collect_plain {d : Driver α} (h : d.Plain) : d.collect.Plain := by
  unfold collect
  split_ifs
  · refine h.of_subset fun x hx => ?_
    simp only [unsentEvents, Option.map_some, Option.getD_some, List.mem_append] at hx ⊢
    rcases hx with ((hx | hx) | hx) | hx
    · exact .inl (.inl (.inl (.inl hx)))
    · exact .inl (.inl (.inl (.inr hx)))
    · exact .inl (.inl (.inr hx))
    · right
      simp only [collectRescanEvents, List.mem_append, List.mem_map, List.mem_singleton] at hx
      rcases hx with ⟨p, -, rfl⟩ | rfl <;> simp [isAnswer, makeEvent]
  · exact h

theorem touch_plain {d : Driver α} (h : d.Plain) (id : ℕ) (f : α → α) : (d.touch id f).Plain := by
  unfold touch
  split
  · exact h
  · exact h

end Driver

/-! ## Frames -/

section Frames

variable {α : Type} (a : Applier α)

/-- an answer on the wire is the answer to a command that was handled -/
def Answered (trace : List (Note α)) (f : Frame) : Prop :=
  isAnswer f.event → ∃ c contexts, Note.handled c contexts ∈ trace ∧ f.tag = .reply c.ticket ∧
    f.event.contextInstanceId = c.ticket.requestId ∧
    (f.event.type = .snapshotAppliedAck ↔ (Link.applySnapshotCommand a contexts c).2.accepted = true)

/-- an outcome says what the fan-out of a handled command said -/
def Vouched (trace : List (Note α)) (ticket : Ticket) (accepted : Bool) : Prop :=
  ∃ c contexts, Note.handled c contexts ∈ trace ∧ c.ticket = ticket ∧
    accepted = (Link.applySnapshotCommand a contexts c).2.accepted

variable {a}

theorem Answered.mono {trace : List (Note α)} {f : Frame} (h : Answered a trace f) (notes : List (Note α)) :
    Answered a (notes ++ trace) f := fun hf => by
  obtain ⟨c, contexts, hn, rest⟩ := h hf
  exact ⟨c, contexts, List.mem_append_right _ hn, rest⟩

theorem Vouched.mono {trace : List (Note α)} {ticket : Ticket} {accepted : Bool} (h : Vouched a trace ticket accepted)
    (notes : List (Note α)) : Vouched a (notes ++ trace) ticket accepted := by
  obtain ⟨c, contexts, hn, rest⟩ := h
  exact ⟨c, contexts, List.mem_append_right _ hn, rest⟩

/-- an answer, once read, is an outcome somebody vouches for -/
theorem Answered.vouched {trace : List (Note α)} {f : Frame} (h : Answered a trace f) (hf : isAnswer f.event) :
    Vouched a trace (Link.outcomeOf f).ticket (Link.outcomeOf f).accepted := by
  obtain ⟨c, contexts, hn, htag, hid, hack⟩ := h hf
  refine ⟨c, contexts, hn, ?_, ?_⟩
  · simp only [Link.outcomeOf, htag, Tag.life, hid]
  · simp only [Link.outcomeOf]
    cases hacc : (Link.applySnapshotCommand a contexts c).2.accepted with
    | true => simpa using hack.mpr hacc
    | false => simpa [hacc] using hack

end Frames

namespace Link

variable {α : Type}

/-- what a step adds to the connections: frames of the kind `P` towards the daemon, nothing towards the driver -/
structure Emits (P : ℕ → Frame → Prop) (l l' : Link α) : Prop where
  up : ∀ w, ∀ f ∈ (l'.wires w).up, f ∈ (l.wires w).up ∨ P w f
  down : ∀ w, ∀ d ∈ (l'.wires w).down, d ∈ (l.wires w).down
  line : ∀ w ∈ l'.line, w ∈ l.line ∨ (l'.wires w).down = [] ∧ ∀ f ∈ (l'.wires w).up, ¬ isAnswer f.event

theorem Emits.of_same {P : ℕ → Frame → Prop} {l l' : Link α} (hwires : l'.wires = l.wires) (hline : l'.line = l.line) :
    Emits P l l' :=
  ⟨fun w f hf => .inl (by rwa [hwires] at hf), fun w d hd => by rwa [hwires] at hd, fun w hw => .inl (hline ▸ hw)⟩

theorem Emits.weaken {P : ℕ → Frame → Prop} {l l' : Link α} (h : Emits (fun _ _ => False) l l') : Emits P l l' :=
  ⟨fun w f hf => .inl ((h.up w f hf).resolve_right id), h.down, h.line⟩

theorem Emits.of_wire {P : ℕ → Frame → Prop} (l : Link α) (w : ℕ) (x : Wire)
    (hup : ∀ f ∈ x.up, f ∈ (l.wires w).up ∨ P w f) (hdown : ∀ d ∈ x.down, d ∈ (l.wires w).down) :
    Emits P l (l.setWire w x) where
  up := fun v f hf => by
    by_cases hv : v = w
    · subst hv
      rw [setWire_self] at hf
      exact hup f hf
    · rw [setWire_ne l x hv] at hf
      exact .inl hf
  down := fun v d hd => by
    by_cases hv : v = w
    · subst hv
      rw [setWire_self] at hd
      exact hdown d hd
    · rwa [setWire_ne l x hv] at hd
  line := fun _ hv => .inl hv

theorem closeConnection_emits {P : ℕ → Frame → Prop} (l : Link α) : Emits P l l.closeConnection := by
  unfold closeConnection
  split
  · exact Emits.of_same rfl rfl
  · rename_i w _
    have h : Emits P l (l.setWire w { l.wires w with driverOpen := false }) :=
      Emits.of_wire l w _ (fun f hf => .inl hf) fun d hd => hd
    exact ⟨h.up, h.down, h.line⟩

theorem sendEvent_emits {P : ℕ → Frame → Prop} (l : Link α) (r : SendResult) (f : Frame)
    (hf : ∀ w, l.driver.socket = some w → P w f) : Emits P l (l.sendEvent r f).1 := by
  obtain ⟨-, hb⟩ | ⟨w, hw, -, -, hb⟩ | ⟨w, -, -, hb⟩ | ⟨w, -, -, hb⟩ := sendEvent_cases l r f
  · rw [hb]
    exact Emits.of_same rfl rfl
  · rw [hb]
    refine Emits.of_wire l w _ (fun g hg => ?_) fun d hd => hd
    rcases List.mem_append.mp hg with hg | hg
    · exact .inl hg
    · rw [List.mem_singleton.mp hg]
      exact .inr (hf w hw)
  · rw [hb]
    exact Emits.of_same rfl rfl
  · rw [hb]
    exact closeConnection_emits l

/-- a frame the driver may send now: no answer, or the answer to the command it has just read from that connection and
noted in its trace -/
def Fresh (a : Applier α) (l : Link α) (trace : List (Note α)) (w : ℕ) (f : Frame) : Prop :=
  isAnswer f.event → ∃ c, Down.command c ∈ (l.wires w).down ∧ Note.handled c l.driver.contexts ∈ trace ∧
    f.tag = .reply c.ticket ∧ f.event.contextInstanceId = c.ticket.requestId ∧
    (f.event.type = .snapshotAppliedAck ↔ (applySnapshotCommand a l.driver.contexts c).2.accepted = true)

theorem sendStamped_emits {P : ℕ → Frame → Prop} (l : Link α) (r : SendResult) (e : DriverEvent) (tag : Tag)
    (he : ∀ w, l.driver.socket = some w → P w ⟨l.driver.mark e, tag, l.driver.phase⟩) :
    Emits P l (l.sendStamped r e tag).1 := by
  have h := sendEvent_emits (P := P) (l.setDriver { l.driver with nextSequence := l.driver.nextSequence + 1 }) r
    ⟨l.driver.mark e, tag, l.driver.phase⟩ he
  exact ⟨h.up, h.down, h.line⟩

theorem connect_emits (a : Applier α) (l : Link α) (trace : List (Note α)) (r : SendResult) : Emits (Fresh a l trace) l (l.connect r) := by
  unfold connect
  simp only
  have hs := sendStamped_emits (P := fun _ f => ¬ isAnswer f.event) l.openWire r { type := .driverHello } .live
    fun w _ => by simp [isAnswer, Driver.mark]
  have hstep : Emits (Fresh a l trace) l (l.openWire.sendStamped r { type := .driverHello } .live).1 := by
    have hnew : l.openWire.wires l.nextWire = { driverOpen := true, daemonOpen := true } := openWire_new l
    have hold : ∀ w, w ≠ l.nextWire → l.openWire.wires w = l.wires w := fun w hw => setWire_ne l _ hw
    refine ⟨fun w f hf => ?_, fun w d hd => ?_, fun w hw => ?_⟩
    · rcases hs.up w f hf with hf | hf
      · by_cases hw : w = l.nextWire
        · rw [hw, hnew] at hf
          cases hf
        · rw [hold w hw] at hf
          exact .inl hf
      · exact .inr fun ha => absurd ha hf
    · have hd := hs.down w d hd
      by_cases hw : w = l.nextWire
      · rw [hw, hnew] at hd
        cases hd
      · rwa [hold w hw] at hd
    · rcases hs.line w hw with hw | hw
      · rw [openWire_line, List.mem_append, List.mem_singleton] at hw
        rcases hw with hw | rfl
        · exact .inl hw
        · refine .inr ⟨List.eq_nil_iff_forall_not_mem.mpr fun d hd => ?_, fun f hf => ?_⟩
          · have hd := hs.down _ d hd
            rw [hnew] at hd
            cases hd
          · rcases hs.up _ f hf with hf | hf
            · rw [hnew] at hf
              cases hf
            · exact hf
      · exact .inr hw
  split_ifs
  · exact ⟨hstep.up, hstep.down, hstep.line⟩
  · exact hstep
  · exact Emits.of_same rfl rfl

theorem replaySend_emits (a : Applier α) (l : Link α) (trace : List (Note α)) (hplain : l.driver.Plain) (r : SendResult) :
    Emits (Fresh a l trace) l (l.replaySend r) := by
  unfold replaySend
  split
  · exact Emits.of_same rfl rfl
  · rename_i rp hrp
    split
    · exact Emits.of_same rfl rfl
    · rename_i e rest hrest
      have he : ¬ isAnswer e := by
        refine hplain e ?_
        simp [Driver.unsentEvents, hrp, hrest]
      have h := sendStamped_emits (P := Fresh a l trace) l r e (.replay rp.number) fun w _ ha => absurd ha he
      exact ⟨h.up, h.down, h.line⟩

theorem drain_emits (a : Applier α) (l : Link α) (trace : List (Note α)) (hplain : l.driver.Plain) (r : SendResult) :
    Emits (Fresh a l trace) l (l.drain r) := by
  unfold drain
  split_ifs
  · exact Emits.of_same rfl rfl
  · split
    · exact Emits.of_same rfl rfl
    · rename_i e rest hq
      have he : ¬ isAnswer e := by
        refine hplain e ?_
        simp [Driver.unsentEvents, hq]
      have h := sendEvent_emits (P := Fresh a l trace) (l.setDriver { l.driver with queue := rest }) r
        ⟨e, .live, l.driver.phase⟩ fun w _ ha => absurd ha he
      simp only
      split_ifs
      · exact ⟨h.up, h.down, h.line⟩
      · exact ⟨h.up, h.down, h.line⟩

/-- the answer to a command that was read from the socket -/
theorem handleSnapshotCommand_emits (a : Applier α) (l : Link α) (w : ℕ) (c : Command) (r : SendResult) {x : Wire}
    (hw : l.driver.socket = some w) (hc : Down.command c ∈ (l.wires w).down)
    (hpop : Emits (fun _ _ => False) l (l.setWire w x)) :
    Emits (Fresh a l (handleSnapshotCommand a (l.setWire w x) c r).trace) l
      (handleSnapshotCommand a (l.setWire w x) c r) := by
  unfold handleSnapshotCommand
  simp only
  split_ifs
  · exact Emits.weaken ⟨hpop.up, hpop.down, hpop.line⟩
  · set m := ((l.setWire w x).setDriver { l.driver with contexts := (applySnapshotCommand a l.driver.contexts c).1 }).note
      (.handled c l.driver.contexts) with hm
    have htrace := (sendStamped_passive m r (replyEvent c (applySnapshotCommand a l.driver.contexts c).2)
      (.reply c.ticket)).trace
    have hsend := sendStamped_emits (P := Fresh a l m.trace) m r
      (replyEvent c (applySnapshotCommand a l.driver.contexts c).2) (.reply c.ticket) fun v hv _ => by
        obtain rfl : w = v := Option.some.inj (hw.symm.trans hv)
        refine ⟨c, hc, List.mem_cons_self, rfl, rfl, ?_⟩
        cases hacc : (applySnapshotCommand a l.driver.contexts c).2.accepted <;> simp [Driver.mark, replyEvent, hacc]
    have hall : Emits (Fresh a l m.trace) l (m.sendStamped r
        (replyEvent c (applySnapshotCommand a l.driver.contexts c).2) (.reply c.ticket)).1 := by
      refine ⟨fun v f hf => ?_, fun v d hd => hpop.down v d (hsend.down v d hd), fun v hv => hsend.line v hv⟩
      rcases hsend.up v f hf with hf | hf
      · exact hpop.weaken.up v f hf
      · exact .inr hf
    rw [← htrace] at hall
    exact hall

theorem handle_emits (a : Applier α) (l : Link α) (r : SendResult) :
    Emits (Fresh a l (handle a l r).trace) l (handle a l r) := by
  unfold handle
  split_ifs
  · exact Emits.of_same rfl rfl
  · cases hw : l.driver.socket with
    | none => exact Emits.of_same rfl rfl
    | some w =>
      simp only
      cases hdown : (l.wires w).down with
      | nil => exact Emits.of_same rfl rfl
      | cons frame rest =>
        have hpop : Emits (fun _ _ => False) l (l.setWire w { l.wires w with down := rest }) :=
          Emits.of_wire l w _ (fun f hf => .inl hf) fun d hd => by rw [hdown]; exact List.mem_cons_of_mem _ hd
        cases frame with
        | rescan => exact Emits.weaken ⟨hpop.up, hpop.down, hpop.line⟩
        | command c => exact handleSnapshotCommand_emits a l w c r hw (by simp [hdown]) hpop

/-- **What a driver step puts on the wire.** -/
theorem stepDriver_emits (a : Applier α) (l : Link α) (hplain : l.driver.Plain) (op : DriverOp α) :
    Emits (Fresh a l (stepDriver a l op).trace) l (stepDriver a l op) := by
  cases op with
  | connect r => exact connect_emits a l _ r
  | replaySend r => exact replaySend_emits a l _ hplain r
  | drain r => exact drain_emits a l _ hplain r
  | handle r => exact handle_emits a l r
  | hangup =>
    simp only [stepDriver, hangup]
    split_ifs
    · exact closeConnection_emits l
    · exact Emits.of_same rfl rfl
  | restart =>
    have h : Emits (Fresh a l (stepDriver a l .restart).trace) l l.closeConnection := closeConnection_emits l
    exact ⟨h.up, h.down, h.line⟩
  | register _ _ => exact Emits.of_same rfl rfl
  | publishConfigured _ _ _ => exact Emits.of_same rfl rfl
  | publishEnabled _ _ => exact Emits.of_same rfl rfl
  | publishGenerations _ _ _ => exact Emits.of_same rfl rfl
  | publishTelemetry _ _ => exact Emits.of_same rfl rfl
  | unregister _ => exact Emits.of_same rfl rfl
  | stamp _ => exact Emits.of_same rfl rfl
  | enqueue _ => exact Emits.of_same rfl rfl
  | collect => exact Emits.of_same rfl rfl
  | touch _ _ => exact Emits.of_same rfl rfl

/-! ## Events that are not sent yet -/

theorem sendEvent_plain {l : Link α} (h : l.driver.Plain) (r : SendResult) (f : Frame) :
    (l.sendEvent r f).1.driver.Plain := by
  obtain ⟨socket, dropped, -, hd⟩ := sendEvent_driver l r f
  rw [hd]
  exact h

theorem sendStamped_plain {l : Link α} (h : l.driver.Plain) (r : SendResult) (e : DriverEvent) (tag : Tag) :
    (l.sendStamped r e tag).1.driver.Plain :=
  sendEvent_plain (l := l.setDriver { l.driver with nextSequence := l.driver.nextSequence + 1 }) h r _

theorem closeConnection_plain {l : Link α} (h : l.driver.Plain) : l.closeConnection.driver.Plain := by
  unfold closeConnection
  split
  · exact h
  · exact h

/-- a part of the replay is left out -/
theorem plain_replay {d : Driver α} (h : d.Plain) (replay : Option Replay)
    (hsub : ∀ e ∈ (replay.map Replay.unsent).getD [], e ∈ (d.replay.map Replay.unsent).getD []) :
    Driver.Plain { d with replay } := by
  refine h.of_subset fun e he => .inl ?_
  simp only [Driver.unsentEvents, List.mem_append] at he ⊢
  rcases he with he | he
  · exact .inl he
  · exact .inr (hsub e he)

theorem replaySend_plain {l : Link α} (h : l.driver.Plain) (r : SendResult) : (l.replaySend r).driver.Plain := by
  unfold replaySend
  split
  · exact h
  · rename_i rp hrp
    split
    · exact plain_replay h none (by simp)
    · rename_i e rest hrest
      obtain ⟨socket, dropped, -, hd⟩ :=
        sendEvent_driver (l.setDriver { l.driver with nextSequence := l.driver.nextSequence + 1 }) r
          ⟨l.driver.mark e, .replay rp.number, l.driver.phase⟩
      simp only [sendStamped, setDriver_driver, hd]
      have hkeep := plain_replay (d := l.driver) h
        (if (l.sendStamped r e (.replay rp.number)).2 && !rest.isEmpty then some { rp with unsent := rest } else none) (by
          intro x hx
          rw [hrp]
          split_ifs at hx
          · simp only [Option.map_some, Option.getD_some, hrest] at hx ⊢
            exact List.mem_cons_of_mem _ hx
          · cases hx)
      exact hkeep

theorem drain_plain {l : Link α} (h : l.driver.Plain) (r : SendResult) : (l.drain r).driver.Plain := by
  unfold drain
  split_ifs
  · exact h
  · split
    · exact h
    · rename_i e rest hq
      obtain ⟨socket, dropped, -, hd⟩ :=
        sendEvent_driver (l.setDriver { l.driver with queue := rest }) r ⟨e, .live, l.driver.phase⟩
      have hsub : Driver.Plain { l.driver with queue := rest } := by
        refine Driver.Plain.of_subset h fun x hx => .inl ?_
        simp only [Driver.unsentEvents, List.mem_append, hq] at hx ⊢
        rcases hx with (hx | hx) | hx
        · exact .inl (.inl hx)
        · exact .inl (.inr (List.mem_cons_of_mem _ hx))
        · exact .inr hx
      simp only
      split_ifs
      · rw [hd]
        exact hsub
      · simp only [setDriver_driver, hd]
        rw [← hq]
        exact h

theorem handle_plain {l : Link α} (h : l.driver.Plain) (a : Applier α) (r : SendResult) :
    (handle a l r).driver.Plain := by
  unfold handle
  split_ifs
  · exact h
  · split
    · exact h
    · rename_i w _
      split
      · exact h
      · exact h
      · rename_i c rest _
        unfold handleSnapshotCommand
        simp only
        split_ifs
        · exact h
        · refine sendStamped_plain ?_ r _ _
          exact h

theorem stepDriver_plain (a : Applier α) {l : Link α} (h : l.driver.Plain) (op : DriverOp α) :
    (stepDriver a l op).driver.Plain := by
  cases op with
  | register audioSessionId ioId => exact Driver.register_plain h a.fresh audioSessionId ioId
  | publishConfigured id sampleRate channelMask =>
    refine Driver.publish_plain h id _ fun c c' type hc => ?_
    simp only [Option.some.injEq, Prod.mk.injEq] at hc
    rw [← hc.2]
    decide
  | publishEnabled id enabled =>
    refine Driver.publish_plain h id _ fun c c' type hc => ?_
    simp only [Option.some.injEq, Prod.mk.injEq] at hc
    rw [← hc.2]
    cases enabled <;> decide
  | publishGenerations id resourceGeneration graphGeneration =>
    refine Driver.publish_plain h id _ fun c c' type hc => ?_
    simp only at hc
    split_ifs at hc
    simp only [Option.some.injEq, Prod.mk.injEq] at hc
    rw [← hc.2]
    decide
  | publishTelemetry id bypassReason =>
    refine Driver.publish_plain h id _ fun c c' type hc => ?_
    simp only at hc
    split_ifs at hc
    simp only [Option.some.injEq, Prod.mk.injEq] at hc
    rw [← hc.2]
    decide
  | unregister id => exact Driver.unregister_plain h id
  | stamp i => exact Driver.stamp_plain h i
  | enqueue i => exact Driver.enqueue_plain h i
  | collect => exact Driver.collect_plain h
  | connect r =>
    simp only [stepDriver, connect]
    split_ifs
    · exact sendStamped_plain (l := l.openWire) h r _ _
    · exact sendStamped_plain (l := l.openWire) h r _ _
    · exact h
  | hangup =>
    simp only [stepDriver, hangup]
    split_ifs
    · exact closeConnection_plain h
    · exact h
  | replaySend r => exact replaySend_plain h r
  | drain r => exact drain_plain h r
  | handle r => exact handle_plain h a r
  | touch id f => exact Driver.touch_plain h id f
  | restart =>
    intro e he
    simp [stepDriver, restartDriver, Driver.unsentEvents] at he

/-! ## The invariant -/

/-- every answer is vouched for, and whatever the daemon may still read belongs to its own life -/
structure Answers (a : Applier α) (life : ℕ) (l : Link α) : Prop where
  plain : l.driver.Plain
  frames : ∀ w, ∀ f ∈ (l.wires w).up, Answered a l.trace f
  outcome : ∀ o, l.outcome = some o → Vouched a l.trace o.ticket o.accepted ∧ o.ticket.life = life
  commandLives : ∀ w ∈ l.line, ∀ c, Down.command c ∈ (l.wires w).down → c.ticket.life = life
  frameLives : ∀ w ∈ l.line, ∀ f ∈ (l.wires w).up, isAnswer f.event → f.tag.life = life

theorem stepDriver_answers {a : Applier α} {life : ℕ} {l : Link α} (h : l.Answers a life) (op : DriverOp α) :
    (stepDriver a l op).Answers a life := by
  have hext := stepDriver_ext a l op
  have hemit := stepDriver_emits a l h.plain op
  obtain ⟨notes, hnotes⟩ := hext.trace
  refine ⟨stepDriver_plain a h.plain op, fun w f hf => ?_, fun o ho => ?_, fun w hw c hc => ?_, fun w hw f hf ha => ?_⟩
  · rcases hemit.up w f hf with hf | hf
    · rw [hnotes]
      exact (h.frames w f hf).mono notes
    · intro ha
      obtain ⟨c, -, hn, rest⟩ := hf ha
      exact ⟨c, _, hn, rest⟩
  · rw [hext.outcome] at ho
    obtain ⟨hv, hl⟩ := h.outcome o ho
    rw [hnotes]
    exact ⟨hv.mono notes, hl⟩
  · rcases hemit.line w hw with hw | ⟨hnil, -⟩
    · exact h.commandLives w hw c (hemit.down w _ hc)
    · rw [hnil] at hc
      cases hc
  · rcases hemit.line w hw with hw | ⟨-, hplain⟩
    · rcases hemit.up w f hf with hf | hf
      · exact h.frameLives w hw f hf ha
      · obtain ⟨c, hc, -, htag, -⟩ := hf ha
        rw [htag]
        exact h.commandLives w hw c hc
    · exact absurd ha (hplain f hf)

/-! ## The daemon's end -/

/-- the daemon's step keeps the connections it still holds as they were, less what it has read -/
theorem Answers.of_read {a : Applier α} {life : ℕ} {l l' : Link α} (h : l.Answers a life) (hdriver : l'.driver = l.driver)
    (htrace : l'.trace = l.trace)
    (houtcome : ∀ o, l'.outcome = some o → Vouched a l.trace o.ticket o.accepted ∧ o.ticket.life = life)
    (hup : ∀ w, ∀ f ∈ (l'.wires w).up, f ∈ (l.wires w).up)
    (hdown : ∀ w ∈ l'.line, ∀ c, Down.command c ∈ (l'.wires w).down → Down.command c ∈ (l.wires w).down)
    (hline : ∀ w ∈ l'.line, w ∈ l.line) : l'.Answers a life where
  plain := hdriver ▸ h.plain
  frames := fun w f hf => htrace ▸ h.frames w f (hup w f hf)
  outcome := fun o ho => htrace ▸ houtcome o ho
  commandLives := fun w hw c hc => h.commandLives w (hline w hw) c (hdown w hw c hc)
  frameLives := fun w hw f hf => h.frameLives w (hline w hw) f (hup w f hf)

theorem dropClient_up (l : Link α) (v : ℕ) : (l.dropClient.wires v).up = (l.wires v).up := by
  unfold dropClient
  split
  · rfl
  · rename_i w _
    by_cases hv : v = w
    · subst hv
      simp [setWire]
    · simp [setWire, Function.update_of_ne hv]

theorem dropClient_down (l : Link α) (v : ℕ) : (l.dropClient.wires v).down = (l.wires v).down := by
  unfold dropClient
  split
  · rfl
  · rename_i w _
    by_cases hv : v = w
    · subst hv
      simp [setWire]
    · simp [setWire, Function.update_of_ne hv]

theorem dropClient_line (l : Link α) : ∀ w ∈ l.dropClient.line, w ∈ l.line := by
  unfold dropClient
  split
  · exact fun w hw => hw
  · intro w hw
    simp only [line, Option.toList_none, List.nil_append] at hw ⊢
    exact List.mem_append_right _ hw

theorem dropClient_answers {a : Applier α} {life : ℕ} {l : Link α} (h : l.Answers a life) :
    l.dropClient.Answers a life := by
  have hr := dropClient_reads l
  refine h.of_read hr.driver hr.trace (fun o ho => h.outcome o ?_) (fun w f hf => by rwa [dropClient_up] at hf)
    (fun w _ c hc => by rwa [dropClient_down] at hc) (dropClient_line l)
  unfold dropClient at ho
  split at ho <;> exact ho

theorem acceptPending_answers {a : Applier α} {life : ℕ} {l : Link α} (h : l.Answers a life) :
    l.acceptPending.Answers a life := by
  have hd := dropClient_answers h
  unfold acceptPending
  split
  · exact h
  · rename_i w rest hb
    refine ⟨hd.plain, hd.frames, hd.outcome, fun v hv c hc => ?_, fun v hv f hf => ?_⟩
    · rw [dropClient_down] at hc
      exact h.commandLives v (by simp [line, hb] at hv ⊢; tauto) c hc
    · rw [dropClient_up] at hf
      exact h.frameLives v (by simp [line, hb] at hv ⊢; tauto) f hf

theorem sendDown_rescan_answers {a : Applier α} {life : ℕ} {l : Link α} (h : l.Answers a life) (ok : Bool) :
    (l.sendDown .rescan ok).1.Answers a life := by
  unfold sendDown
  split
  · exact h
  · rename_i w _
    split_ifs
    · refine h.of_read rfl rfl h.outcome (fun v f hf => ?_) (fun v _ c hc => ?_) fun v hv => hv
      · by_cases hv : v = w
        · subst hv
          simpa using hf
        · rwa [setWire_ne l _ hv] at hf
      · by_cases hv : v = w
        · subst hv
          simpa using hc
        · rwa [setWire_ne l _ hv] at hc
    · exact h

theorem process_answers {a : Applier α} {life : ℕ} {l : Link α} (h : l.Answers a life) (f : Frame) (rescanSent : Bool)
    (hf : Answered a l.trace f) (hlife : isAnswer f.event → f.tag.life = life) :
    (l.process f rescanSent).Answers a life := by
  have hreg : Answers a life { l with registry := l.registry.deliver f.event } :=
    ⟨h.plain, h.frames, h.outcome, h.commandLives, h.frameLives⟩
  unfold process
  split_ifs with ha
  · refine ⟨h.plain, h.frames, fun o ho => ?_, h.commandLives, h.frameLives⟩
    obtain rfl := Option.some.inj ho
    exact ⟨hf.vouched ha, hlife ha⟩
  · exact sendDown_rescan_answers hreg rescanSent
  · exact hreg

theorem recv_answers {a : Applier α} {life : ℕ} {l : Link α} (h : l.Answers a life) (rescanSent : Bool) :
    (l.recv rescanSent).1.Answers a life := by
  unfold recv
  split
  · exact h
  · rename_i w hw
    split
    · rename_i f rest hup
      have hmem : f ∈ (l.wires w).up := by simp [hup]
      have hin : w ∈ l.line := by simp [line, hw]
      refine process_answers ?_ f rescanSent (h.frames w f hmem) fun ha => h.frameLives w hin f hmem ha
      refine h.of_read rfl rfl h.outcome (fun v g hg => ?_) (fun v _ c hc => ?_) fun v hv => hv
      · by_cases hv : v = w
        · subst hv
          rw [setWire_self] at hg
          rw [hup]
          exact List.mem_cons_of_mem _ hg
        · rwa [setWire_ne _ _ hv] at hg
      · by_cases hv : v = w
        · subst hv
          rwa [setWire_self] at hc
        · rwa [setWire_ne _ _ hv] at hc
    · split_ifs
      · exact h
      · exact dropClient_answers h

theorem takeApplyOutcome_answers {a : Applier α} {life : ℕ} {l : Link α} (h : l.Answers a life) :
    l.takeApplyOutcome.Answers a life :=
  ⟨h.plain, h.frames, (fun _ ho => by cases ho), h.commandLives, h.frameLives⟩

/-- a daemon that starts again holds no connection of the one before -/
theorem restartDaemon_answers {a : Applier α} {life : ℕ} {l : Link α} (h : l.Answers a life) (life' : ℕ) :
    l.restartDaemon.Answers a life' where
  plain := h.plain
  frames := fun w f hf => h.frames w f (by
    simp only [restartDaemon] at hf
    split_ifs at hf <;> exact hf)
  outcome := fun o ho => by cases ho
  commandLives := fun w hw => by simp [restartDaemon, line] at hw
  frameLives := fun w hw => by simp [restartDaemon, line] at hw

/-- a command of the daemon's own life goes out -/
theorem sendSnapshotCommand_answers {a : Applier α} {life : ℕ} {l : Link α} (h : l.Answers a life) (he : l.OpenEnds)
    (c : Command) (hc : c.ticket.life = life) (ok : Bool) : (l.sendSnapshotCommand c ok).1.Answers a life := by
  obtain ⟨-, hb⟩ | ⟨-, w, -, -, hb, -⟩ := sendSnapshotCommand_cases l he c ok
  · rw [hb]
    exact h
  · rw [hb]
    have hup : ∀ v, ((l.setWire w { l.wires w with down := (l.wires w).down ++ [.command c] }).wires v).up =
        (l.wires v).up := by
      intro v
      by_cases hv : v = w
      · subst hv
        simp
      · rw [setWire_ne l _ hv]
    refine ⟨h.plain, fun v f hf => h.frames v f (hup v ▸ hf), h.outcome, fun v hv d hd => ?_,
      fun v hv f hf => h.frameLives v hv f (hup v ▸ hf)⟩
    by_cases hvw : v = w
    · subst hvw
      have hd' : Down.command d ∈ (l.wires v).down ++ [.command c] := by simpa [setWire] using hd
      rcases List.mem_append.mp hd' with hd' | hd'
      · exact h.commandLives v hv d hd'
      · rw [List.mem_singleton] at hd'
        rw [Down.command.inj hd']
        exact hc
    · exact h.commandLives v hv d (by simpa [setWire, Function.update_of_ne hvw] using hd)

end Link

end ViperFx.Channel
