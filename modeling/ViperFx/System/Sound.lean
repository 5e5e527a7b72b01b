/-
What holds in every state of the system, between the passes of the control loop and inside them.

Everything the daemon can rely on about its link is one structure, `Sound`: the commands it has sent are in order and
under tickets it has issued, what the driver handles comes in that order, what the daemon hears was said, and the
history of every context explains it. A driver step keeps it whatever it is; of the daemon's own steps only a send has a
precondition, that the command comes behind all that was sent. A program that sends nothing is `Quiet`.

Results:
  · Sound.stepDriver, Sound.stepDaemon, Sound.send, Sound.restart : one lemma for each kind of step
  · quiet_poll, quiet_awaitApplyOutcome                          : waiting for an answer
  · sendSnapshotCommand_spec, newTicket_spec                     : the calls that are not quiet
-/
import ViperFx.Channel.Echo
import ViperFx.System.Provenance

namespace ViperFx.System

open ViperFx.Core ViperFx.Protocol ViperFx.Daemon ViperFx.Channel ViperFx.Driver

variable {E : Engine}

/-! ## What a context has staged -/

/-- the chunk a payload carries is a part of `bytes`, at its place -/
def Piece (bytes payload : Bytes) : Prop :=
  ∃ offset, offset < 2 ^ 32 ∧ decodeSnapshotChunk payload = .ok (chunkAt bytes offset)

/-- what chunks put together, newest first: each has to come at the end of those before it -/
def joined : List Bytes → Option Bytes
  | [] => some []
  | payload :: older =>
    match joined older, decodeSnapshotChunk payload with
    | some bytes, .ok chunk => if chunk.offset.toNat = bytes.length then some (bytes ++ chunk.data) else none
    | _, _ => none

theorem joined_cons_iff {payload bytes : Bytes} {older : List Bytes} :
    joined (payload :: older) = some bytes ↔ ∃ front chunk, joined older = some front ∧
      decodeSnapshotChunk payload = .ok chunk ∧ chunk.offset.toNat = front.length ∧ bytes = front ++ chunk.data := by
  simp only [joined]
  cases hfront : joined older with
  | none => simp
  | some front =>
    cases hchunk : decodeSnapshotChunk payload with
    | error e => simp
    | ok chunk =>
      simp only [Option.some.injEq, Except.ok.injEq, exists_and_left, exists_eq_left']
      split_ifs with hoffset
      · simp [hoffset, eq_comm]
      · simp [hoffset]

/-- some of the chunks put together a part of what all of them do -/
theorem joined_sublist {chunks all : List Bytes} (h : chunks.Sublist all) {bytes whole : Bytes}
    (hbytes : joined chunks = some bytes) (hwhole : joined all = some whole) : bytes <+: whole := by
  induction h generalizing bytes whole with
  | slnil =>
    obtain rfl := Option.some.inj (hbytes.symm.trans hwhole)
    exact List.prefix_rfl
  | cons payload h ih =>
    obtain ⟨front, chunk, hfront, -, -, rfl⟩ := joined_cons_iff.mp hwhole
    exact (ih hbytes hfront).trans (List.prefix_append _ _)
  | cons_cons payload h ih =>
    obtain ⟨front, chunk, hfront, hchunk, hoffset, rfl⟩ := joined_cons_iff.mp hwhole
    obtain ⟨front', chunk', hfront', hchunk', hoffset', rfl⟩ := joined_cons_iff.mp hbytes
    obtain rfl := Except.ok.inj (hchunk.symm.trans hchunk')
    -- the chunk comes at the same place in both
    obtain rfl := (ih hfront' hfront).eq_of_length (hoffset'.symm.trans hoffset)
    exact List.prefix_rfl

/-- a chunk at the end of what is staged -/
theorem prefix_append_chunk {bytes staged : Bytes} {offset : ℕ} (hoffset : offset < 2 ^ 32) (h : staged <+: bytes)
    (ho : (chunkAt bytes offset).offset.toNat = staged.length) :
    staged ++ (chunkAt bytes offset).data <+: bytes := by
  have heq : offset = staged.length := by
    simp only [chunkAt, UInt32.toNat_ofNat'] at ho
    omega
  have hstaged : staged = bytes.take offset := by
    rw [heq]
    exact List.prefix_iff_eq_take.mp h
  refine ⟨(bytes.drop offset).drop kMaxSnapshotChunkBytes, ?_⟩
  simp only [chunkAt, List.append_assoc, List.take_append_drop]
  rw [hstaged, List.take_append_drop]

theorem joined_pieces {bytes : Bytes} {chunks : List Bytes} {front : Bytes}
    (h : joined chunks = some front) (hpieces : ∀ payload ∈ chunks, Piece bytes payload) : front <+: bytes := by
  induction chunks generalizing front with
  | nil =>
    obtain rfl := Option.some.inj h
    exact List.nil_prefix
  | cons payload older ih =>
    obtain ⟨front, chunk, hfront, hchunk, hoffset, rfl⟩ := joined_cons_iff.mp h
    obtain ⟨offset, hlt, hpiece⟩ := hpieces payload List.mem_cons_self
    obtain rfl := Except.ok.inj (hchunk.symm.trans hpiece)
    have hbegins := ih hfront fun p hp => hpieces p (List.mem_cons_of_mem _ hp)
    exact prefix_append_chunk hlt hbegins hoffset

/-- the chunks under a ticket and later ones, newest first -/
def chunksSince (q : Ticket) (commands : List Command) : List Bytes :=
  (commands.filter fun d => d.type = .snapshotChunk ∧ q.le d.ticket).map Command.payload

theorem chunksSince_cons {q : Ticket} {c : Command} {commands : List Command} (h : c.type ≠ .snapshotChunk) :
    chunksSince q (c :: commands) = chunksSince q commands := by
  unfold chunksSince
  rw [List.filter_cons_of_neg (by simp [h])]

/-- a context stages what it was sent: what the chunks since its BEGIN put together -/
structure Assembles (_id : ℕ) (trace : List (Note (Tracked E))) (x : Tracked E) : Prop where
  begun : ∀ q, x.stagedBy = some q → ∃ d ∈ handledCommands trace, d.ticket = q
  staged : ∀ q, x.ctx.snapshotApply.staging = true → x.stagedBy = some q →
    joined (chunksSince q (handledCommands trace)) = some x.ctx.snapshotApply.staged

/-- as long as the chunks since its BEGIN are pieces of `bytes`, a part of `bytes` -/
theorem Assembles.part {id : ℕ} {trace : List (Note (Tracked E))} {x : Tracked E} (h : Assembles id trace x) {q : Ticket}
    {bytes : Bytes} (hs : x.ctx.snapshotApply.staging = true) (hq : x.stagedBy = some q)
    (hpieces : ∀ c ∈ handledCommands trace, q.le c.ticket → c.type = .snapshotChunk → Piece bytes c.payload) :
    x.ctx.snapshotApply.staged <+: bytes := by
  refine joined_pieces (h.staged q hs hq) fun payload hmem => ?_
  obtain ⟨d, hd, rfl⟩ := List.mem_map.mp hmem
  obtain ⟨hd, hdtype⟩ := List.mem_filter.mp hd
  obtain ⟨htype, hle⟩ := of_decide_eq_true hdtype
  exact hpieces d hd hle htype

theorem assembles_answer {id : ℕ} {trace : List (Note (Tracked E))} {x : Tracked E} (h : Assembles id trace x)
    (c : Command) (contexts : Table ℕ (DriverContext (Tracked E)))
    (hbefore : ∀ d ∈ handledCommands trace, Before d c) :
    Assembles id (.handled c contexts :: trace) (answer E x c).1 := by
  have hmono : ∀ q, (∃ d ∈ handledCommands trace, d.ticket = q) →
      ∃ d ∈ handledCommands (.handled c contexts :: trace), d.ticket = q :=
    fun q ⟨d, hd, hq⟩ => ⟨d, List.mem_cons_of_mem _ hd, hq⟩
  have hstagedBy : (answer E x c).1.stagedBy = x.stagedBy ∨ (answer E x c).1.stagedBy = some c.ticket := by
    simp only [answer]
    split_ifs
    · exact .inr rfl
    · exact .inl rfl
  have hcons : handledCommands (.handled c contexts :: trace) = c :: handledCommands trace := rfl
  refine ⟨fun q hq => ?_, fun q hs hq => ?_⟩
  · rcases hstagedBy with hb | hb
    · exact hmono q (h.begun q (hb ▸ hq))
    · exact ⟨c, List.mem_cons_self, Option.some.inj (hb.symm.trans hq)⟩
  · rw [hcons]
    have heff := answer_effect x c
    generalize (answer E x c).1 = x' at heff hs hq ⊢
    cases heff with
    | adopted hash htype _ hsame _ =>
      rw [chunksSince_cons (by simp [htype]), hsame.staged]
      exact h.staged q (hsame.staging ▸ hs) (hsame.stagedBy ▸ hq)
    | opened b htype _ _ _ hsame _ =>
      -- every chunk that was handled before is of an earlier ticket
      obtain rfl := Option.some.inj (hsame.stagedBy.symm.trans hq)
      have hnone : chunksSince c.ticket (handledCommands trace) = [] := by
        unfold chunksSince
        rw [List.map_eq_nil_iff, List.filter_eq_nil_iff]
        intro d hd hlater
        obtain ⟨-, hle⟩ := of_decide_eq_true hlater
        have hb := hbefore d hd
        exact hb.not_begin (Ticket.le_antisymm hb.1 hle) htype
      rw [chunksSince_cons (by simp [htype]), hnone, hsame.staged]
      rfl
    | extended chunk htype hdecode hstaging hoffset hsame _ hroom =>
      have hq' : x.stagedBy = some q := hsame.stagedBy ▸ hq
      obtain ⟨d, hd, hdq⟩ := h.begun q hq'
      have hle : q.le c.ticket := hdq ▸ (hbefore d hd).1
      have hgrown : chunksSince q (c :: handledCommands trace) = c.payload :: chunksSince q (handledCommands trace) := by
        unfold chunksSince
        rw [List.filter_cons_of_pos (by simp [htype, hle])]
        rfl
      rw [hgrown, hsame.staged, joined_cons_iff]
      refine ⟨_, chunk, h.staged q hstaging hq', hdecode, ?_, rfl⟩
      rw [hoffset, UInt32.toNat_ofNat']
      exact Nat.mod_eq_of_lt hroom
    | applied _ _ _ _ hidle _ _ _ _ _ =>
      rw [hidle.staging] at hs
      cases hs
    | repeated _ _ _ _ _ _ hidle _ _ _ _ _ =>
      rw [hidle.staging] at hs
      cases hs
    | dropped _ hidle _ _ _ _ _ =>
      rw [hidle.staging] at hs
      cases hs
    | kept htype hsame _ =>
      have hs' : x.ctx.snapshotApply.staging = true := hsame.staging ▸ hs
      have hchunk : c.type ≠ .snapshotChunk := by
        rcases htype with ht | ht | ⟨hidle, -⟩
        · simp [ht]
        · simp [ht]
        · rw [hidle] at hs'
          cases hs'
      rw [chunksSince_cons hchunk, hsame.staged]
      exact h.staged q hs' (hsame.stagedBy ▸ hq)

theorem assembles_closed : Link.Closed (applier E) Before Works (Assembles (E := E)) where
  fresh := fun id known trace => ⟨(fun q hq => by cases hq), (fun q hs => by cases hs)⟩
  registered := fun id id' known trace x hne h => ⟨h.begun, h.staged⟩
  worked := fun id f trace x hf h => by
    obtain ⟨g, rfl⟩ := hf
    exact ⟨h.begun, h.staged⟩
  handled := fun id contexts c trace y hy hbefore h => assembles_answer h c contexts hbefore

/-! ## The link as the daemon finds it -/

/-- what the daemon can rely on; `next` is the ticket it issues next -/
structure Sound (next : Ticket) (l : Link (Tracked E)) : Prop where
  shape : l.Shape
  ends : l.OpenEnds
  ordered : l.Ordered
  answers : l.Answers (applier E) next.life
  echoes : l.Echoes (applier E)
  kept : ∀ q, l.Kept q 0
  issued : ∀ c ∈ l.sent, c.ticket.lt next
  inOrder : l.sent.Pairwise fun c d => Before d c
  provenance : l.Throughout (Provenance (E := E))
  assembles : l.Throughout (Assembles (E := E))
  standing : l.Throughout (Standing (E := E))

/-- what is handled or under way keeps the order in which it was sent -/
theorem Sound.conveyed {next : Ticket} {l : Link (Tracked E)} (h : Sound next l) : l.conveyed.Pairwise Before := by
  refine List.Pairwise.sublist h.ordered ?_
  rw [List.pairwise_reverse]
  exact h.inOrder

theorem Sound.handled_sent {next : Ticket} {l : Link (Tracked E)} (h : Sound next l) {c : Command}
    (hc : c ∈ handledCommands l.trace) : c ∈ l.sent := by
  have hmem : c ∈ l.conveyed := List.mem_append_left _ (List.mem_reverse.mpr hc)
  exact List.mem_reverse.mp (h.ordered.subset hmem)

/-- what was handled before a command was sent before it -/
theorem Sound.handled_before {next : Ticket} {l : Link (Tracked E)} (h : Sound next l) {newer older : List (Note (Tracked E))}
    {c : Command} {contexts : Table ℕ (DriverContext (Tracked E))} (ht : l.trace = newer ++ .handled c contexts :: older) :
    (∀ d ∈ handledCommands older, Before d c) ∧ ∀ d ∈ handledCommands newer, Before c d := by
  have hp := (List.pairwise_append.mp h.conveyed).1
  have hcut : handledCommands l.trace = handledCommands newer ++ c :: handledCommands older := by
    rw [ht]
    simp [handledCommands, List.filterMap_append]
  rw [hcut, List.pairwise_reverse, List.pairwise_append, List.pairwise_cons] at hp
  obtain ⟨-, ⟨hold, -⟩, hnew⟩ := hp
  exact ⟨hold, fun d hd => hnew d hd c List.mem_cons_self⟩

/-- a command that neither comes before nor after another one of its transfer is handled once -/
theorem Sound.handled_unique {next : Ticket} {l : Link (Tracked E)} (h : Sound next l) {c d : Command}
    {contexts others : Table ℕ (DriverContext (Tracked E))} (hc : Note.handled c contexts ∈ l.trace)
    (hd : Note.handled d others ∈ l.trace) (hticket : c.ticket = d.ticket) (hcd : ¬ Follows c.type d.type)
    (hdc : ¬ Follows d.type c.type) : c = d ∧ contexts = others := by
  obtain ⟨newer, older, htrace⟩ := List.append_of_mem hc
  obtain ⟨hbefore, hafter⟩ := h.handled_before htrace
  rw [htrace] at hd
  rcases List.mem_append.mp hd with hd | hd
  · have hb := hafter d (Link.mem_handledCommands.mpr ⟨others, hd⟩)
    exact absurd (hb.2 hticket) hcd
  · rcases List.mem_cons.mp hd with heq | hd
    · obtain ⟨rfl, rfl⟩ := Note.handled.inj heq
      exact ⟨rfl, rfl⟩
    · have hb := hbefore d (Link.mem_handledCommands.mpr ⟨others, hd⟩)
      exact absurd (hb.2 hticket.symm) hdc

theorem liftOp_works {op : DriverOp (Dsp E)} {id : ℕ} {f : Tracked E → Tracked E} (h : liftOp E op = .touch id f) :
    Works f := by
  cases op with
  | touch id' g =>
    simp only [liftOp, DriverOp.touch.injEq] at h
    exact ⟨g, h.2.symm⟩
  | _ => simp [liftOp] at h

/-- **A driver step.** -/
theorem Sound.stepDriver {next : Ticket} {l : Link (Tracked E)} (h : Sound next l) (op : DriverOp (Dsp E)) :
    Sound next (Link.stepDriver (applier E) l (liftOp E op)) := by
  have hmove := Link.stepDriver_move (applier E) l (liftOp E op)
  have hsent := (Link.stepDriver_ext (applier E) l (liftOp E op)).sent
  have hbefore : ∀ c rest, l.pending = c :: rest → ∀ d ∈ handledCommands l.trace, Before d c := by
    intro c rest hread d hd
    refine (List.pairwise_append.mp h.conveyed).2.2 d (List.mem_reverse.mpr hd) c ?_
    rw [hread]
    exact List.mem_cons_self
  exact
    { shape := Link.stepDriver_shape _ h.shape _
      ends := hmove.ends h.ends
      ordered := Link.stepDriver_ordered _ h.ordered _
      answers := Link.stepDriver_answers h.answers _
      echoes := Link.stepDriver_echoes _ h.shape h.answers.plain h.echoes _
      kept := fun q => Link.stepDriver_kept (h.kept q) _
      issued := hsent ▸ h.issued
      inOrder := hsent ▸ h.inOrder
      provenance := provenance_closed.move (fun _ _ => liftOp_works) hmove hbefore h.provenance
      assembles := assembles_closed.move (fun _ _ => liftOp_works) hmove hbefore h.assembles
      standing := standing_closed.move (fun _ _ => liftOp_works) hmove hbefore h.standing }

/-- **A daemon step that sends no command.** -/
theorem Sound.stepDaemon {next : Ticket} {l : Link (Tracked E)} (h : Sound next l) {op : DaemonOp}
    (hop : op = .accept ∨ (∃ ok, op = .recv ok) ∨ op = .take) : Sound next (l.stepDaemon op) := by
  have hsend : ∀ c ok, op ≠ .send c ok := by rcases hop with rfl | ⟨_, rfl⟩ | rfl <;> simp
  have hreads := Link.stepDaemon_reads l op hsend
  have hrestart : op ≠ .restart := by rcases hop with rfl | ⟨_, rfl⟩ | rfl <;> simp
  exact
    { shape := Link.stepDaemon_shape h.shape op
      ends := hreads.ends h.ends
      ordered := hreads.ordered h.ordered
      answers := by
        rcases hop with rfl | ⟨ok, rfl⟩ | rfl
        · exact Link.acceptPending_answers h.answers
        · exact Link.recv_answers h.answers ok
        · exact Link.takeApplyOutcome_answers h.answers
      echoes := Link.stepDaemon_echoes h.shape.wired h.echoes op
      kept := fun q => Link.stepDaemon_kept (h.kept q) op hrestart
      issued := hreads.sent ▸ h.issued
      inOrder := hreads.sent ▸ h.inOrder
      provenance := h.provenance.of_eq hreads.driver hreads.trace
      assembles := h.assembles.of_eq hreads.driver hreads.trace
      standing := h.standing.of_eq hreads.driver hreads.trace }

/-- **A send**: the command is the daemon's own and comes behind all that was sent. -/
theorem Sound.send {next : Ticket} {l : Link (Tracked E)} (h : Sound next l) {c : Command}
    (hlife : c.ticket.life = next.life) (hissued : c.ticket.lt next) (hbefore : ∀ d ∈ l.sent, Before d c) (ok : Bool) :
    Sound next (l.sendSnapshotCommand c ok).1 := by
  have hcases := Link.sendSnapshotCommand_cases l h.ends c ok
  have hsent : (l.sendSnapshotCommand c ok).1.sent = l.sent ∨ (l.sendSnapshotCommand c ok).1.sent = c :: l.sent := by
    obtain ⟨-, hb⟩ | ⟨-, w, -, -, hb, -⟩ := hcases
    · exact .inl (by rw [hb])
    · exact .inr (by rw [hb])
  have hdriver : (l.sendSnapshotCommand c ok).1.driver = l.driver := by
    obtain ⟨-, hb⟩ | ⟨-, w, -, -, hb, -⟩ := hcases
    · rw [hb]
    · rw [hb]
      rfl
  have htrace := Link.sendSnapshotCommand_trace l c ok
  refine
    { shape := Link.stepDaemon_shape h.shape (.send c ok)
      ends := Link.sendSnapshotCommand_ends h.ends c ok
      ordered := Link.sendSnapshotCommand_ordered h.ordered h.ends c ok
      answers := Link.sendSnapshotCommand_answers h.answers h.ends c hlife ok
      echoes := Link.stepDaemon_echoes h.shape.wired h.echoes (.send c ok)
      kept := fun q => Link.sendSnapshotCommand_kept (h.kept q) c ok
      issued := ?_
      inOrder := ?_
      provenance := h.provenance.of_eq hdriver htrace
      assembles := h.assembles.of_eq hdriver htrace
      standing := h.standing.of_eq hdriver htrace }
  · rcases hsent with hs | hs
    · rw [hs]
      exact h.issued
    · rw [hs]
      intro d hd
      rcases List.mem_cons.mp hd with rfl | hd
      · exact hissued
      · exact h.issued d hd
  · rcases hsent with hs | hs
    · rw [hs]
      exact h.inOrder
    · rw [hs]
      exact List.pairwise_cons.mpr ⟨hbefore, h.inOrder⟩

/-- **A new daemon process.** -/
theorem Sound.restart {next : Ticket} {l : Link (Tracked E)} (h : Sound next l) (requestId : ℕ) :
    Sound ⟨next.life + 1, requestId⟩ l.restartDaemon := by
  have hreads := Link.restartDaemon_reads l
  exact
    { shape := h.shape.restartDaemon
      ends := hreads.ends h.ends
      ordered := hreads.ordered h.ordered
      answers := Link.restartDaemon_answers h.answers _
      echoes := Link.stepDaemon_echoes h.shape.wired h.echoes .restart
      kept := fun q => ⟨Nat.zero_le _, fun o ho => by cases ho⟩
      issued := by
        rw [hreads.sent]
        intro c hc
        have hlt := h.issued c hc
        unfold Ticket.lt at hlt ⊢
        simp only
        omega
      inOrder := hreads.sent ▸ h.inOrder
      provenance := h.provenance.of_eq hreads.driver hreads.trace
      assembles := h.assembles.of_eq hreads.driver hreads.trace
      standing := h.standing.of_eq hreads.driver hreads.trace }

/-- the counter goes on -/
theorem Sound.advance {next next' : Ticket} {l : Link (Tracked E)} (h : Sound next l) (hlife : next'.life = next.life)
    (hle : next.requestId ≤ next'.requestId) : Sound next' l :=
  { h with
    answers := hlife ▸ h.answers
    issued := fun c hc => by
      have hlt := h.issued c hc
      unfold Ticket.lt at hlt ⊢
      omega }

theorem init_throughout (bootId : ℕ) (P : ℕ → List (Note (Tracked E)) → Tracked E → Prop) :
    (Channel.init bootId : Link (Tracked E)).Throughout P :=
  ⟨fun id x hx => (by simp [Link.context, Channel.init] at hx), fun later c contexts earlier ht => (by
    simp [Channel.init] at ht)⟩

theorem init_sound (next : Ticket) (bootId : ℕ) : Sound (E := E) next (Channel.init bootId) where
  shape := Link.init_shape bootId
  ends := fun w hw => by cases hw
  ordered := List.nil_sublist _
  answers := ⟨fun e he => by simp [Channel.init, Driver.unsentEvents] at he, fun w f hf => (by cases hf),
    fun o ho => (by cases ho), fun w hw => (by cases hw), fun w hw => (by cases hw)⟩
  echoes := List.nil_sublist _
  kept := fun q => ⟨Nat.zero_le _, fun o ho => by cases ho⟩
  issued := fun c hc => by cases hc
  inOrder := List.Pairwise.nil
  provenance := init_throughout bootId _
  assembles := init_throughout bootId _
  standing := init_throughout bootId _

/-! ## Programs -/

/-- the ticket that is issued next -/
def Sys.next (s : Sys E) : Ticket := ⟨s.runtime.life, s.runtime.nextRequestId⟩

/-- an entry about one send or one wait -/
def Entry.Minor : Entry E → Prop
  | .unsent _ => True
  | .unanswered _ => True
  | _ => False

/-- `s` goes on to `t` while `commands` are sent, newest first; the runtime's fields stay -/
structure Advances (commands : List Command) (s t : Sys E) : Prop where
  runtime : t.runtime = s.runtime
  sent : t.link.sent = commands ++ s.link.sent
  trace : ∃ notes, t.link.trace = notes ++ s.link.trace
  kept : ∀ q k, s.link.Kept q k → t.link.Kept q k
  log : ∃ entries, t.log = entries ++ s.log ∧ ∀ e ∈ entries, e.Minor
  sound : Sound s.next s.link → Sound t.next t.link

theorem Advances.refl (s : Sys E) : Advances [] s s :=
  ⟨rfl, rfl, ⟨[], rfl⟩, fun _ _ h => h, ⟨[], rfl, fun _ he => by cases he⟩, id⟩

theorem Advances.trans {commands commands' : List Command} {s t u : Sys E} (h : Advances commands s t)
    (h' : Advances commands' t u) : Advances (commands' ++ commands) s u where
  runtime := h'.runtime.trans h.runtime
  sent := by rw [h'.sent, h.sent, List.append_assoc]
  trace := by
    obtain ⟨notes, hn⟩ := h.trace
    obtain ⟨notes', hn'⟩ := h'.trace
    exact ⟨notes' ++ notes, by rw [hn', hn, List.append_assoc]⟩
  kept := fun q k hk => h'.kept q k (h.kept q k hk)
  log := by
    obtain ⟨entries, he, hm⟩ := h.log
    obtain ⟨entries', he', hm'⟩ := h'.log
    refine ⟨entries' ++ entries, by rw [he', he, List.append_assoc], fun e hmem => ?_⟩
    rcases List.mem_append.mp hmem with hmem | hmem
    · exact hm' e hmem
    · exact hm e hmem
  sound := fun hs => h'.sound (h.sound hs)

theorem Advances.next {commands : List Command} {s t : Sys E} (h : Advances commands s t) : t.next = s.next := by
  unfold Sys.next
  rw [h.runtime]

/-- a step on the link that sends nothing -/
theorem Advances.of_link {s : Sys E} {l : Link (Tracked E)} (hsent : l.sent = s.link.sent)
    (htrace : ∃ notes, l.trace = notes ++ s.link.trace) (hkept : ∀ q k, s.link.Kept q k → l.Kept q k)
    (hsound : ∀ next, Sound next s.link → Sound next l) (turns : List (Turn E)) (now : ℕ) :
    Advances [] s { s with link := l, turns, now } :=
  ⟨rfl, hsent, htrace, hkept, ⟨[], rfl, fun _ he => by cases he⟩, hsound _⟩

theorem Advances.note (s : Sys E) {e : Entry E} (he : e.Minor) : Advances [] s (s.enter e) :=
  ⟨rfl, rfl, ⟨[], rfl⟩, fun _ _ h => h,
    ⟨[e], rfl, fun _ hmem => by rw [List.mem_singleton.mp hmem]; exact he⟩, fun h => h⟩

theorem drive_advances (s : Sys E) (ops : List (DriverOp (Dsp E))) (turns : List (Turn E)) (now : ℕ) :
    Advances [] s { s.drive ops with turns, now } := by
  suffices h : ∀ (ops : List (DriverOp (Dsp E))) (l : Link (Tracked E)),
      let l' := ops.foldl (fun l op => Link.stepDriver (applier E) l (liftOp E op)) l
      l'.sent = l.sent ∧ (∃ notes, l'.trace = notes ++ l.trace) ∧ (∀ q k, l.Kept q k → l'.Kept q k) ∧
        ∀ next, Sound next l → Sound next l' by
    obtain ⟨hsent, htrace, hkept, hsound⟩ := h ops s.link
    exact Advances.of_link hsent htrace hkept hsound turns now
  intro ops
  induction ops with
  | nil => exact fun l => ⟨rfl, ⟨[], rfl⟩, fun _ _ h => h, fun _ h => h⟩
  | cons op ops ih =>
    intro l
    obtain ⟨hsent, ⟨notes, hnotes⟩, hkept, hsound⟩ := ih (Link.stepDriver (applier E) l (liftOp E op))
    have hext := Link.stepDriver_ext (applier E) l (liftOp E op)
    obtain ⟨notes', hnotes'⟩ := hext.trace
    refine ⟨hsent.trans hext.sent, ⟨notes ++ notes', ?_⟩, fun q k hk => hkept q k (Link.stepDriver_kept hk _),
      fun next hl => hsound next (hl.stepDriver op)⟩
    rw [List.foldl_cons, hnotes, hnotes', List.append_assoc]

theorem onLink_advances (s : Sys E) {op : DaemonOp} (hop : op = .accept ∨ (∃ ok, op = .recv ok) ∨ op = .take) :
    Advances [] s (s.onLink op) := by
  have hsend : ∀ c ok, op ≠ .send c ok := by rcases hop with rfl | ⟨_, rfl⟩ | rfl <;> simp
  have hrestart : op ≠ .restart := by rcases hop with rfl | ⟨_, rfl⟩ | rfl <;> simp
  have hreads := Link.stepDaemon_reads s.link op hsend
  exact Advances.of_link hreads.sent ⟨[], hreads.trace⟩ (fun q k hk => Link.stepDaemon_kept hk op hrestart)
    (fun next hl => hl.stepDaemon hop) s.turns s.now

/-- a program that sends nothing and leaves the runtime's fields alone -/
def Quiet {α : Type} (m : Prog E α) : Prop := ∀ s, Advances [] s (m s).2

theorem Quiet.pure {α : Type} (a : α) : Quiet (E := E) (pure a) := Advances.refl

theorem Quiet.bind {α β : Type} {m : Prog E α} {f : α → Prog E β} (hm : Quiet m) (hf : ∀ a, Quiet (f a)) :
    Quiet (m >>= f) := fun s => (hm s).trans (hf _ _)

theorem Quiet.ite {α : Type} {c : Prop} [Decidable c] {m m' : Prog E α} (hm : Quiet m) (hm' : Quiet m') :
    Quiet (if c then m else m') := by
  split_ifs
  · exact hm
  · exact hm'

theorem Quiet.note {e : Entry E} (he : e.Minor) : Quiet (note e) := fun s => Advances.note s he

theorem quiet_pause (duration : ℕ) : Quiet (E := E) (pause duration) := fun s =>
  Advances.of_link rfl ⟨[], rfl⟩ (fun _ _ h => h) (fun _ h => h) s.turns (s.now + duration)

theorem quiet_turn : Quiet (E := E) turn := by
  intro s
  simp only [turn, modifyGet, MonadStateOf.modifyGet, StateT.modifyGet]
  cases s.turns with
  | nil => exact Advances.refl s
  | cons t rest => exact drive_advances s t.before rest (s.now + t.elapsed)

theorem quiet_poll : Quiet (E := E) poll := by
  have haccept : Quiet (E := E) acceptPending := quiet_turn.bind fun _ s => onLink_advances s (.inl rfl)
  have hrecv : Quiet (E := E) recv := quiet_turn.bind fun t s => onLink_advances s (.inr (.inl ⟨t.ok, rfl⟩))
  have hloop : ∀ attempts, Quiet (E := E) (recvLoop attempts) := by
    intro attempts
    induction attempts with
    | zero => exact .pure _
    | succ attempts ih => exact hrecv.bind fun more => .ite ih (.pure _)
  exact haccept.bind fun _ => hloop _

/-- the answer a wait ends with: the one that was kept when it was taken, under the request id that was waited for -/
structure Taken (requestId : ℕ) (o : Channel.ApplyOutcome) (s t : Sys E) : Prop where
  requestId : o.ticket.requestId = requestId
  taken : ∃ u, Advances [] s u ∧ u.link.outcome = some o ∧ t = u.onLink .take

theorem awaitLoop_spec (requestId attempts : ℕ) {s₀ s : Sys E} (h : Advances [] s₀ s) :
    wp (awaitLoop requestId attempts)
      (fun outcome t => Advances [] s₀ t ∧ ∀ o, outcome = some o → Taken requestId o s₀ t) s := by
  induction attempts generalizing s with
  | zero => exact ⟨h, fun o ho => by cases ho⟩
  | succ attempts ih =>
    have hpoll := h.trans (quiet_poll s)
    have htake := hpoll.trans (onLink_advances (poll s).2 (.inr (.inr rfl)))
    have hagain : wp (do pause kApplyPollInterval; awaitLoop requestId attempts)
        (fun outcome t => Advances [] s₀ t ∧ ∀ o, outcome = some o → Taken requestId o s₀ t)
        ((poll s).2.onLink .take) := ih (htake.trans (quiet_pause kApplyPollInterval _))
    unfold awaitLoop
    rw [wp_bind]
    refine wp_mono (P := fun _ u => u = (poll s).2) rfl fun _ u hu => ?_
    subst hu
    rw [wp_bind, takeApplyOutcome, wp_modifyGet]
    dsimp only
    cases hout : (poll s).2.link.outcome with
    | none => exact hagain
    | some o =>
      dsimp only
      rw [wp_ite]
      refine ⟨fun hid => ⟨htake, fun o' ho' => ?_⟩, fun _ => hagain⟩
      obtain rfl := Option.some.inj ho'
      exact ⟨hid, _, hpoll, hout, rfl⟩

theorem awaitApplyOutcome_spec (ticket : Ticket) (s : Sys E) :
    wp (awaitApplyOutcome ticket)
      (fun outcome t => Advances [] s t ∧ (∀ o, outcome = some o → Taken ticket.requestId o s t) ∧
        (outcome = none → .unanswered ticket ∈ t.log)) s := by
  unfold awaitApplyOutcome
  rw [wp_bind]
  refine wp_mono (awaitLoop_spec ticket.requestId kApplyPollAttempts (Advances.refl s)) fun outcome t h => ?_
  cases outcome with
  | none =>
    exact ⟨h.1.trans (Advances.note t (e := .unanswered ticket) trivial), (fun o ho => by cases ho),
      fun _ => List.mem_cons_self⟩
  | some o => exact ⟨h.1, h.2, fun hnone => by cases hnone⟩

theorem accepted_inv {outcome : Option Channel.ApplyOutcome} (h : accepted outcome = true) :
    ∃ o, outcome = some o ∧ o.accepted = true := by
  cases outcome with
  | none => cases h
  | some o => exact ⟨o, rfl, h⟩

/-- the answer is under the ticket that was waited for: no other daemon process issued its request id -/
theorem Taken.ticket {q : Ticket} {o : Channel.ApplyOutcome} {s t : Sys E} (h : Taken q.requestId o s t)
    (hs : Sound s.next s.link) (hlife : q.life = s.runtime.life) : o.ticket = q := by
  obtain ⟨hid, u, hu, hout, -⟩ := h
  have ho := ((hu.sound hs).answers.outcome o hout).2
  rw [hu.next] at ho
  obtain ⟨life, requestId⟩ := q
  obtain ⟨accepted, ⟨life', requestId'⟩, rest⟩ := o
  simp only [Sys.next] at ho hid hlife
  rw [ho, hid, hlife]

/-- a send that is in order -/
theorem sendSnapshotCommand_spec {s : Sys E} (hs : Sound s.next s.link) {c : Command}
    (hlife : c.ticket.life = s.runtime.life) (hissued : c.ticket.lt s.next) (hbefore : ∀ d ∈ s.link.sent, Before d c) :
    wp (sendSnapshotCommand c) (fun sent t => Advances (if sent then [c] else []) s t ∧
      (sent = false → .unsent c.ticket ∈ t.log)) s := by
  unfold sendSnapshotCommand
  rw [wp_bind]
  refine wp_mono (P := fun _ u => Advances [] s u) (quiet_turn s) fun turn u hu => ?_
  have hsound := hu.sound hs
  rw [wp_bind, wp_modifyGet]
  have hsend : Advances (if (u.link.sendSnapshotCommand c turn.ok).2 then [c] else []) u (u.onLink (.send c turn.ok)) := by
    refine ⟨rfl, ?_, ⟨[], Link.sendSnapshotCommand_trace u.link c turn.ok⟩,
      fun q k hk => Link.sendSnapshotCommand_kept hk c turn.ok, ⟨[], rfl, fun _ he => by cases he⟩, fun _ => ?_⟩
    · obtain ⟨hno, hb⟩ | ⟨hyes, w, -, -, hb, -⟩ := Link.sendSnapshotCommand_cases u.link hsound.ends c turn.ok
      · rw [hno]
        exact congrArg Link.sent hb
      · rw [hyes]
        exact congrArg Link.sent hb
    · refine hsound.send ?_ (hu.next ▸ hissued) (hu.sent ▸ hbefore) turn.ok
      rw [hlife, ← hu.runtime]
      rfl
  have hall := hu.trans hsend
  rw [List.append_nil] at hall
  cases hsent : (u.link.sendSnapshotCommand c turn.ok).2 with
  | true =>
    rw [hsent] at hall
    exact ⟨hall, fun hno => by cases hno⟩
  | false =>
    rw [hsent] at hall
    exact ⟨hall.trans (Advances.note _ (e := .unsent c.ticket) trivial), fun _ => List.mem_cons_self⟩

/-- a ticket that was issued and under which nothing was sent yet -/
structure Unused (q : Ticket) (s : Sys E) : Prop where
  sound : Sound s.next s.link
  life : q.life = s.runtime.life
  issued : q.lt s.next
  above : ∀ d ∈ s.link.sent, d.ticket.lt q

theorem Unused.before {q : Ticket} {s : Sys E} (h : Unused q s) (type : SnapshotCommandType) (payload : Bytes) :
    ∀ d ∈ s.link.sent, Before d ⟨type, payload, q⟩ := by
  intro d hd
  have hlt := h.above d hd
  refine ⟨Ticket.le_of_lt hlt, fun heq => ?_⟩
  rw [heq] at hlt
  exact (Ticket.lt_irrefl_le hlt (Ticket.le_refl _)).elim

theorem newTicket_spec {s : Sys E} (hs : Sound s.next s.link) :
    wp newTicket (fun q t => q = s.next ∧ Unused q t ∧ t.link = s.link ∧ t.log = s.log ∧
      t.runtime = { s.runtime with nextRequestId := s.runtime.nextRequestId + 1 }) s :=
  ⟨rfl, ⟨hs.advance rfl (Nat.le_succ _), rfl, .inr ⟨rfl, Nat.lt_succ_self _⟩, hs.issued⟩, rfl, rfl, rfl⟩

end ViperFx.System
