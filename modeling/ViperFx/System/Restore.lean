/-
The restore of a route: `ApplySnapshotToDriver` of `daemon/DaemonRuntime.cpp`, over every run.

The BEGIN, the chunks and the COMMIT of a transfer go out under one request id, and the daemon keeps only the last
answer it has heard. Nothing in the answer says which of them it is for. A transfer waits twice: the first answer under
its ticket can only be for the BEGIN, because nothing else was sent under it. The second is the answer to a later
command of the same ticket (`Echoes.second`), and an ACK is not given to a chunk; so it is the ACK of the COMMIT. Every
context that took the COMMIT was staging this transfer, from the BEGIN every one of them took, and had put together the
bytes piece by piece.

A transfer ends early in five ways, and `Ended` has them all. None of them sends an ABORT.

Results:
  · staged_of_commit      : what a context is staging when the COMMIT of a transfer reaches it
  · restored_of_second    : a second ACK under the ticket means that the snapshot was staged and committed everywhere
  · transfer_spec         : what a transfer has sent, and how it ended
  · accepted_was_restored : over every run, `ApplySnapshotToDriver` returns true only when the restore happened
-/
import ViperFx.Driver.SnapshotCommit
import ViperFx.System.Sound

namespace ViperFx.System

open ViperFx.Core ViperFx.Protocol ViperFx.Daemon ViperFx.Channel ViperFx.Driver

variable {E : Engine}

/-! ## What is sent for a transfer -/

/-- every context there was took the BEGIN under the ticket -/
def Agreed (trace : List (Note (Tracked E))) (q : Ticket) : Prop :=
  ∃ c others, Note.handled c others ∈ trace ∧ c.type = .snapshotBegin ∧ c.ticket = q ∧ FannedOut c others

theorem Agreed.mono {trace : List (Note (Tracked E))} {q : Ticket} (h : Agreed trace q) (notes : List (Note (Tracked E))) :
    Agreed (notes ++ trace) q := by
  obtain ⟨c, others, hn, rest⟩ := h
  exact ⟨c, others, List.mem_append_right _ hn, rest⟩

/-- a BEGIN under this ticket or an earlier one was handled before a command that is no BEGIN -/
theorem Agreed.earlier {next : Ticket} {l : Link (Tracked E)} (h : Sound next l) {newer older : List (Note (Tracked E))}
    {c : Command} {contexts : Table ℕ (DriverContext (Tracked E))} (htrace : l.trace = newer ++ .handled c contexts :: older)
    (htype : c.type ≠ .snapshotBegin) {q : Ticket} (hle : q.le c.ticket) (hagreed : Agreed l.trace q) : Agreed older q := by
  obtain ⟨-, hafter⟩ := h.handled_before htrace
  obtain ⟨d, others, hn, hbegin, hticket, hfan⟩ := hagreed
  refine ⟨d, others, ?_, hbegin, hticket, hfan⟩
  rw [htrace] at hn
  rcases List.mem_append.mp hn with hn | hn
  · have hb := hafter _ (Link.mem_handledCommands.mpr ⟨others, hn⟩)
    exact absurd hbegin (hb.not_begin (Ticket.le_antisymm hb.1 (hticket ▸ hle)))
  · rcases List.mem_cons.mp hn with heq | hn
    · obtain ⟨rfl, -⟩ := Note.handled.inj heq
      exact absurd hbegin htype
    · exact hn

/-- a command that belongs to the transfer of a snapshot; the rest is sent when every context has taken the BEGIN -/
inductive Belongs (trace : List (Note (Tracked E))) (q : Ticket) (snapshot : Snapshot) (bytes : Bytes) (d : Command) : Prop
  | opening (htype : d.type = .snapshotBegin) (hpayload : encodeSnapshotBegin (beginOf snapshot bytes) = .ok d.payload)
  | piece (htype : d.type = .snapshotChunk) (hpiece : Piece bytes d.payload) (hagreed : Agreed trace q)
  | closing (htype : d.type = .snapshotCommit)
      (hpayload : encodeSnapshotCommit ⟨snapshot.appGeneration, snapshot.daemonGeneration⟩ = .ok d.payload)
      (hagreed : Agreed trace q)

theorem Belongs.mono {trace : List (Note (Tracked E))} {q : Ticket} {snapshot : Snapshot} {bytes : Bytes} {d : Command}
    (h : Belongs trace q snapshot bytes d) (notes : List (Note (Tracked E))) :
    Belongs (notes ++ trace) q snapshot bytes d := by
  cases h with
  | opening htype hpayload => exact .opening htype hpayload
  | piece htype hpiece hagreed => exact .piece htype hpiece (hagreed.mono notes)
  | closing htype hpayload hagreed => exact .closing htype hpayload (hagreed.mono notes)

/-- everything that was sent under the ticket belongs to the transfer -/
structure Carried (l : Link (Tracked E)) (q : Ticket) (snapshot : Snapshot) (bytes : Bytes) : Prop where
  encoded : encodeSnapshot snapshot = .ok bytes
  belongs : ∀ d ∈ l.sent, d.ticket = q → Belongs l.trace q snapshot bytes d

/-- what a context is staging when the COMMIT of a transfer reaches it: that transfer, and a part of its bytes -/
theorem staged_of_commit {next : Ticket} {l : Link (Tracked E)} (h : Sound next l) {q : Ticket} {snapshot : Snapshot}
    {bytes : Bytes} (hcarried : Carried l q snapshot bytes) {newer older : List (Note (Tracked E))}
    {contexts : Table ℕ (DriverContext (Tracked E))} {c : Command}
    (htrace : l.trace = newer ++ .handled c contexts :: older) (hq : c.ticket = q) (htype : c.type = .snapshotCommit)
    {id : ℕ} {y : DriverContext (Tracked E)} (hy : contexts.get? id = some y)
    (hstaging : y.ext.ctx.snapshotApply.staging = true) :
    y.ext.stagedBy = some q ∧ y.ext.ctx.snapshotApply.staged <+: bytes ∧
      y.ext.ctx.snapshotApply.metadata = ViperContext.metadataOf (beginOf snapshot bytes) ∧
      y.ext.ctx.snapshotApply.deviceKeyHash = snapshot.deviceKeyHash := by
  obtain ⟨hbefore, -⟩ := h.handled_before htrace
  have hhandled : ∀ d ∈ handledCommands older, d ∈ l.sent := by
    intro d hd
    refine h.handled_sent ?_
    rw [htrace, handledCommands, List.filterMap_append]
    exact List.mem_append_right _ (List.mem_cons_of_mem _ hd)
  have hcsent : c ∈ l.sent := by
    refine h.handled_sent (Link.mem_handledCommands.mpr ⟨contexts, ?_⟩)
    rw [htrace]
    exact List.mem_append_right _ List.mem_cons_self
  -- the BEGIN every context took was handled before this COMMIT
  obtain ⟨b₀, others, hbegun, hbegin, hticket, hagreed⟩ : Agreed older q := by
    cases hcarried.belongs c hcsent hq with
    | opening ht => exact absurd (ht.symm.trans htype) (by decide)
    | piece ht => exact absurd (ht.symm.trans htype) (by decide)
    | closing _ _ hagreed => exact hagreed.earlier h htrace (by simp [htype]) (hq ▸ Ticket.le_refl _)
  obtain ⟨q', hq', hopened⟩ := (h.provenance.past newer c contexts older htrace id y hy).opened hstaging
  -- the context is staging this transfer: no later one was begun, and it has taken the BEGIN of this one
  obtain ⟨d, hd, b, hdtype, hdq, hdecode, hmeta⟩ := hopened.begin_handled
  have heq : q' = q := by
    refine Ticket.le_antisymm ?_ ?_
    · rw [← hdq, ← hq]
      exact (hbefore d hd).1
    · rw [← hticket]
      exact hopened.agreed b₀ others hbegun hbegin hagreed
  subst heq
  have hb : b = beginOf snapshot bytes := by
    cases hcarried.belongs d (hhandled d hd) hdq with
    | opening _ hpayload => exact Except.ok.inj (hdecode.symm.trans (decodeSnapshotBegin_encode _ _ hpayload))
    | piece ht => exact absurd (ht.symm.trans hdtype) (by decide)
    | closing ht => exact absurd (ht.symm.trans hdtype) (by decide)
  refine ⟨hq', ?_, hb ▸ hmeta, ?_⟩
  · refine (h.assembles.past newer c contexts older htrace id y hy).part hstaging hq' fun e he hle het => ?_
    have heq : e.ticket = q' := Ticket.le_antisymm (hq ▸ (hbefore e he).1) hle
    cases hcarried.belongs e (hhandled e he) heq with
    | opening ht => exact absurd (ht.symm.trans het) (by decide)
    | piece _ hpiece => exact hpiece
    | closing ht => exact absurd (ht.symm.trans het) (by decide)
  · rcases hopened.route with hr | ⟨a, ha, hat, hlt⟩
    · rw [hr, hmeta, hb]
      rfl
    · exact absurd (hbefore a ha).1 fun hle => Ticket.lt_irrefl_le hlt (hq ▸ hle)

/-! ## What an accepted transfer means -/

/-- the transfer `q` of a snapshot was carried out: the driver handled its COMMIT with an ACK of every context, and every
one had the bytes of the snapshot staged, from this transfer -/
def Restored (trace : List (Note (Tracked E))) (q : Ticket) (snapshot : Snapshot) : Prop :=
  ∃ bytes payload contexts, encodeSnapshot snapshot = .ok bytes ∧
    encodeSnapshotCommit ⟨snapshot.appGeneration, snapshot.daemonGeneration⟩ = .ok payload ∧
    Note.handled ⟨.snapshotCommit, payload, q⟩ contexts ∈ trace ∧ FannedOut ⟨.snapshotCommit, payload, q⟩ contexts ∧
    ∀ id y, contexts.get? id = some y → y.ext.stagedBy = some q ∧ y.ext.ctx.snapshotApply.staged = bytes

theorem Restored.mono {trace : List (Note (Tracked E))} {q : Ticket} {snapshot : Snapshot}
    (h : Restored trace q snapshot) (notes : List (Note (Tracked E))) : Restored (notes ++ trace) q snapshot := by
  obtain ⟨bytes, payload, contexts, hbytes, hpayload, hn, rest⟩ := h
  exact ⟨bytes, payload, contexts, hbytes, hpayload, List.mem_append_right _ hn, rest⟩

/-- a COMMIT a context has taken found as many bytes staged as its BEGIN declared -/
theorem accepted_commit {x : Tracked E} {c : Command} (htype : c.type = .snapshotCommit)
    (h : (answer E x c).2.accepted = true) : x.ctx.snapshotApply.staging = true ∧
      x.ctx.snapshotApply.staged.length = x.ctx.snapshotApply.metadata.totalSize.toNat := by
  have heff := answer_effect x c
  rw [h] at heff
  generalize (answer E x c).1 = x' at heff
  cases heff with
  | applied request _ hstaging hexamine => exact ⟨hstaging, (Controller.examine_candidate hexamine).1⟩
  | repeated snapshot _ hstaging hexamine =>
    obtain ⟨-, -, hsize, -⟩ := Controller.examine_idempotent hexamine
    exact ⟨hstaging, hsize⟩
  | adopted _ ht => exact absurd (ht.symm.trans htype) (by decide)
  | opened _ ht => exact absurd (ht.symm.trans htype) (by decide)
  | extended _ ht => exact absurd (ht.symm.trans htype) (by decide)
  | dropped _ _ _ _ _ _ hack => exact absurd ((hack rfl).symm.trans htype) (by decide)
  | kept _ _ hack => cases hack

/-- a part of the bytes that is as long as the BEGIN declared is all of them -/
theorem eq_of_declared {snapshot : Snapshot} {bytes staged : Bytes} (hbytes : encodeSnapshot snapshot = .ok bytes)
    (hbegins : staged <+: bytes)
    (hsize : staged.length = (ViperContext.metadataOf (beginOf snapshot bytes)).totalSize.toNat) : staged = bytes := by
  have hlen : bytes.length < 2 ^ 32 := lt_of_le_of_lt (encodeSnapshot_size hbytes) (by decide)
  refine hbegins.eq_of_length ?_
  rw [hsize]
  simp only [ViperContext.metadataOf, beginOf, UInt32.toNat_ofNat']
  omega

/-- **A second ACK under the ticket of a transfer** means that the transfer was carried out. -/
theorem restored_of_second {next : Ticket} {l : Link (Tracked E)} (h : Sound next l) {q : Ticket} {snapshot : Snapshot}
    {bytes : Bytes} (hcarried : Carried l q snapshot bytes) (hkept : l.Kept q 1) {o : Channel.ApplyOutcome}
    (ho : l.outcome = some o) (hq : o.ticket = q) (haccepted : o.accepted = true) : Restored l.trace q snapshot := by
  obtain ⟨newer, c, contexts, older, htrace, hcq, hfan, hchunk, d, hd, hdq⟩ := h.echoes.second hkept ho hq
  obtain ⟨hbefore, -⟩ := h.handled_before htrace
  have htype : c.type = .snapshotCommit := by
    rcases ((hbefore d hd).2 (hdq.trans hcq.symm)).2 with ht | ht
    · exact absurd ⟨ht, haccepted⟩ hchunk
    · exact ht
  have hmem : Note.handled c contexts ∈ l.trace := by
    rw [htrace]
    exact List.mem_append_right _ List.mem_cons_self
  have hfanned : FannedOut c contexts := hfan.symm.trans haccepted
  obtain ⟨type, payload, ticket⟩ := c
  simp only at htype hcq
  subst htype hcq
  have hpayload : encodeSnapshotCommit ⟨snapshot.appGeneration, snapshot.daemonGeneration⟩ = .ok payload := by
    cases hcarried.belongs _ (h.handled_sent (Link.mem_handledCommands.mpr ⟨contexts, hmem⟩)) rfl with
    | opening ht => cases ht
    | piece ht => cases ht
    | closing _ hpayload _ => exact hpayload
  refine ⟨bytes, payload, contexts, hcarried.encoded, hpayload, hmem, hfanned, fun id y hy => ?_⟩
  obtain ⟨hstaging, hsize⟩ :=
    accepted_commit rfl (Link.applySnapshotCommand_accepted (applier E) contexts _ hfanned id y hy)
  obtain ⟨hby, hbegins, hmeta, -⟩ := staged_of_commit h hcarried htrace rfl rfl hy hstaging
  exact ⟨hby, eq_of_declared hcarried.encoded hbegins (hmeta ▸ hsize)⟩

/-! ## The transfer -/

/-- how a transfer has ended: its COMMIT is out, a send failed, an answer did not come in time, the driver refused the
BEGIN, or there was nothing to send -/
inductive Ended (log : List (Entry E)) (l : Link (Tracked E)) (q : Ticket) : Prop
  | committed (d : Command) (hd : d ∈ l.sent) (hq : d.ticket = q) (htype : d.type = .snapshotCommit)
  | unsent (h : .unsent q ∈ log)
  | unanswered (h : .unanswered q ∈ log)
  | refused (c : Command) (others : Table ℕ (DriverContext (Tracked E))) (hn : Note.handled c others ∈ l.trace)
      (htype : c.type = .snapshotBegin) (hq : c.ticket = q) (hrefused : ¬ FannedOut c others)
  | nothing (h : ∀ d ∈ l.sent, d.ticket ≠ q)

/-- `s` goes on to `t`, and what is sent goes under one ticket -/
def Uses (q : Ticket) (s t : Sys E) : Prop := ∃ commands, Advances commands s t ∧ ∀ d ∈ commands, d.ticket = q

theorem Uses.of_quiet {q : Ticket} {s t : Sys E} (h : Advances [] s t) : Uses q s t := ⟨[], h, fun _ hd => by cases hd⟩

theorem Uses.trans {q : Ticket} {s t u : Sys E} (h : Uses q s t) (h' : Uses q t u) : Uses q s u := by
  obtain ⟨commands, ha, hq⟩ := h
  obtain ⟨commands', ha', hq'⟩ := h'
  refine ⟨_, ha.trans ha', fun d hd => ?_⟩
  rcases List.mem_append.mp hd with hd | hd
  · exact hq' d hd
  · exact hq d hd

/-- one send under the ticket -/
theorem Uses.of_send {c : Command} {sent : Bool} {s t : Sys E} (h : Advances (if sent then [c] else []) s t) :
    Uses c.ticket s t := by
  refine ⟨_, h, fun d hd => ?_⟩
  split_ifs at hd
  · rw [List.mem_singleton.mp hd]
  · cases hd

theorem Carried.advances {q : Ticket} {snapshot : Snapshot} {bytes : Bytes} {commands : List Command} {s t : Sys E}
    (h : Carried s.link q snapshot bytes) (ha : Advances commands s t)
    (hnew : ∀ d ∈ commands, d.ticket = q → Belongs t.link.trace q snapshot bytes d) :
    Carried t.link q snapshot bytes := by
  refine ⟨h.encoded, fun d hd hq => ?_⟩
  rw [ha.sent] at hd
  rcases List.mem_append.mp hd with hd | hd
  · exact hnew d hd hq
  · obtain ⟨notes, ht⟩ := ha.trace
    rw [ht]
    exact (h.belongs d hd hq).mono notes

/-- the BEGIN of the transfer was acknowledged and its answer taken; chunks may have been sent since -/
structure Underway (q : Ticket) (snapshot : Snapshot) (bytes : Bytes) (s : Sys E) : Prop where
  sound : Sound s.next s.link
  life : q.life = s.runtime.life
  issued : q.lt s.next
  carried : Carried s.link q snapshot bytes
  unfinished : ∀ d ∈ s.link.sent, d.ticket.lt q ∨ d.ticket = q ∧ (d.type = .snapshotBegin ∨ d.type = .snapshotChunk)
  kept : s.link.Kept q 1
  begun : Agreed s.link.trace q

section Transfer

variable {q : Ticket} {snapshot : Snapshot} {bytes : Bytes}

/-- a chunk or the COMMIT may follow -/
theorem Underway.before {s : Sys E} (h : Underway q snapshot bytes s) {type : SnapshotCommandType}
    (htype : type = .snapshotChunk ∨ type = .snapshotCommit) (payload : Bytes) :
    ∀ d ∈ s.link.sent, Before d ⟨type, payload, q⟩ := by
  intro d hd
  rcases h.unfinished d hd with hlt | ⟨heq, hd⟩
  · refine ⟨Ticket.le_of_lt hlt, fun heq => ?_⟩
    rw [heq] at hlt
    exact (Ticket.lt_irrefl_le hlt (Ticket.le_refl _)).elim
  · exact ⟨heq ▸ Ticket.le_refl _, fun _ => ⟨hd, htype⟩⟩

theorem Underway.begun_later {s t : Sys E} (h : Underway q snapshot bytes s) {commands : List Command}
    (ha : Advances commands s t) : Agreed t.link.trace q := by
  obtain ⟨notes, ht⟩ := ha.trace
  rw [ht]
  exact h.begun.mono notes

/-- a chunk is sent, or not -/
theorem Underway.chunk {s t : Sys E} (h : Underway q snapshot bytes s) {payload : Bytes} {sent : Bool}
    (ha : Advances (if sent then [⟨.snapshotChunk, payload, q⟩] else []) s t) (hpiece : Piece bytes payload) :
    Underway q snapshot bytes t := by
  have hnew : ∀ d ∈ (if sent then [⟨.snapshotChunk, payload, q⟩] else [] : List Command),
      d = ⟨.snapshotChunk, payload, q⟩ := by
    intro d hd
    split_ifs at hd
    · exact List.mem_singleton.mp hd
    · cases hd
  refine ⟨ha.sound h.sound, ha.runtime ▸ h.life, ha.next ▸ h.issued, ?_, fun d hd => ?_, ha.kept q 1 h.kept,
    h.begun_later ha⟩
  · refine h.carried.advances ha fun d hd _ => ?_
    rw [hnew d hd]
    exact .piece rfl hpiece (h.begun_later ha)
  · rw [ha.sent] at hd
    rcases List.mem_append.mp hd with hd | hd
    · rw [hnew d hd]
      exact .inr ⟨rfl, .inr rfl⟩
    · exact h.unfinished d hd

/-- the chunks of a snapshot are neither empty nor too long -/
theorem encodeSnapshotChunk_chunkAt {offset : ℕ} (h : offset < bytes.length) :
    ∃ payload, encodeSnapshotChunk (chunkAt bytes offset) = .ok payload := by
  refine ⟨chunkBytes (chunkAt bytes offset), ?_⟩
  have hlen : (chunkAt bytes offset).data.length = min kMaxSnapshotChunkBytes (bytes.length - offset) := by
    simp [chunkAt]
  have hmax : 0 < kMaxSnapshotChunkBytes := by decide
  unfold encodeSnapshotChunk
  rw [if_neg]
  push Not
  refine ⟨fun hempty => ?_, by omega⟩
  rw [List.isEmpty_iff_length_eq_zero] at hempty
  omega

theorem sendChunks_spec {s₀ s : Sys E} (h : Underway q snapshot bytes s) (ha : Uses q s₀ s) (fuel offset : ℕ) :
    wp (sendChunks bytes q fuel offset)
      (fun sent t => Underway q snapshot bytes t ∧ Uses q s₀ t ∧ (sent = false → .unsent q ∈ t.log)) s := by
  have hlen : bytes.length < 2 ^ 32 := lt_of_le_of_lt (encodeSnapshot_size h.carried.encoded) (by decide)
  induction fuel generalizing s offset with
  | zero => exact ⟨h, ha, fun hf => by cases hf⟩
  | succ fuel ih =>
    unfold sendChunks
    rw [wp_ite]
    refine ⟨fun hoffset => ?_, fun _ => ⟨h, ha, fun hf => by cases hf⟩⟩
    obtain ⟨payload, henc⟩ := encodeSnapshotChunk_chunkAt hoffset
    rw [henc]
    dsimp only
    rw [wp_bind]
    refine wp_mono (sendSnapshotCommand_spec h.sound h.life h.issued (h.before (.inl rfl) payload)) fun sent t ht => ?_
    obtain ⟨hadv, hlog⟩ := ht
    have hunder := h.chunk hadv ⟨offset, hoffset.trans hlen, decodeSnapshotChunk_encode _ _ henc⟩
    have huses := ha.trans (Uses.of_send hadv)
    rw [wp_ite]
    refine ⟨fun _ => ih hunder huses _, fun hsent => ⟨hunder, huses, fun _ => hlog ?_⟩⟩
    simpa using hsent

/-- what a BEGIN passes a COMMIT passes -/
theorem encodeSnapshotCommit_of_begin {opening : Bytes} (h : encodeSnapshotBegin (beginOf snapshot bytes) = .ok opening) :
    ∃ closing, encodeSnapshotCommit ⟨snapshot.appGeneration, snapshot.daemonGeneration⟩ = .ok closing := by
  unfold encodeSnapshotBegin at h
  split_ifs at h with hversion hhex hsize hgen
  refine ⟨commitBytes ⟨snapshot.appGeneration, snapshot.daemonGeneration⟩, ?_⟩
  unfold encodeSnapshotCommit
  rw [if_neg]
  exact hgen

/-- the chunks and the COMMIT -/
theorem sendBody_spec {opening : Bytes} (hopening : encodeSnapshotBegin (beginOf snapshot bytes) = .ok opening)
    {s₀ s : Sys E} (h : Underway q snapshot bytes s) (ha : Uses q s₀ s) :
    wp (sendBody snapshot bytes q)
      (fun result t => Uses q s₀ t ∧ Carried t.link q snapshot bytes ∧ Ended t.log t.link q ∧
        (result.1 = true → Restored t.link.trace q snapshot)) s := by
  unfold sendBody
  rw [wp_bind]
  refine wp_mono (sendChunks_spec h ha bytes.length 0) fun sent t ht => ?_
  obtain ⟨ht, hta, hchunks⟩ := ht
  rw [wp_ite]
  refine ⟨fun _ => ?_, fun hsent => ?_⟩
  · obtain ⟨closing, hclosing⟩ := encodeSnapshotCommit_of_begin hopening
    rw [hclosing]
    dsimp only
    rw [wp_bind]
    refine wp_mono (sendSnapshotCommand_spec ht.sound ht.life ht.issued (ht.before (.inr rfl) closing))
      fun sent u hu => ?_
    obtain ⟨hu, hulog⟩ := hu
    have huses := hta.trans (Uses.of_send hu)
    have hcarried : Carried u.link q snapshot bytes := by
      refine ht.carried.advances hu fun d hd _ => ?_
      split_ifs at hd
      · rw [List.mem_singleton.mp hd]
        exact .closing rfl hclosing (ht.begun_later hu)
      · cases hd
    rw [wp_ite]
    refine ⟨fun hsent => ?_, fun hsent => ⟨huses, hcarried, .unsent (hulog ?_), fun hr => by cases hr⟩⟩
    · rw [wp_bind]
      refine wp_mono (awaitApplyOutcome_spec q u) fun outcome v hv => ?_
      obtain ⟨hv, htaken, -⟩ := hv
      have hcommit : ⟨.snapshotCommit, closing, q⟩ ∈ v.link.sent := by
        rw [hv.sent, hu.sent, hsent]
        exact List.mem_cons_self
      refine ⟨huses.trans (Uses.of_quiet hv), hcarried.advances hv (fun d hd => by cases hd),
        .committed _ hcommit rfl rfl, fun hr => ?_⟩
      obtain ⟨o, ho, haccepted⟩ := accepted_inv hr
      have htaken := htaken o ho
      have hq : o.ticket = q := htaken.ticket (hu.sound ht.sound) (hu.runtime ▸ ht.life)
      obtain ⟨-, w, hw, hout, rfl⟩ := htaken
      have hdone : Restored w.link.trace q snapshot :=
        restored_of_second (hw.sound (hu.sound ht.sound)) (hcarried.advances hw (fun d hd => by cases hd))
          (hw.kept q 1 (hu.kept q 1 ht.kept)) hout hq haccepted
      exact hdone
    · simpa using hsent
  · exact ⟨hta, ht.carried, .unsent (hchunks (by simpa using hsent)), fun hr => by cases hr⟩

/-- the answer to the newest command, when all that was sent before is under older tickets -/
theorem answer_of_newest {t : Sys E} (hsound : Sound t.next t.link) {c : Command} {older : List Command}
    (hsent : t.link.sent = c :: older) (holder : ∀ d ∈ older, d.ticket.lt c.ticket) (hlife : c.ticket.life = t.runtime.life)
    {o : Channel.ApplyOutcome} {u : Sys E} (hu : Taken c.ticket.requestId o t u) :
    ∃ others, Note.handled c others ∈ u.link.trace ∧ (o.accepted = true ↔ FannedOut c others) := by
  have hq := hu.ticket hsound hlife
  obtain ⟨-, v, hv, hout, rfl⟩ := hu
  obtain ⟨d, others, hn, hd, hfan⟩ := ((hv.sound hsound).answers.outcome o hout).1
  have hdsent := (hv.sound hsound).handled_sent (Link.mem_handledCommands.mpr ⟨others, hn⟩)
  rw [hv.sent, hsent] at hdsent
  rcases List.mem_cons.mp hdsent with hdsent | hdsent
  · subst hdsent
    exact ⟨others, hn, by rw [hfan]; rfl⟩
  · have hlt := holder d hdsent
    rw [hd, hq] at hlt
    exact (Ticket.lt_irrefl_le hlt (Ticket.le_refl _)).elim

/-- the answer to the first command under a ticket: nothing else was sent under it -/
theorem answer_of_first {s t : Sys E} (hs : Unused q s) {c : Command} (hc : c.ticket = q) (ht : Advances [c] s t)
    {o : Channel.ApplyOutcome} {u : Sys E} (hu : Taken q.requestId o t u) :
    ∃ others, Note.handled c others ∈ u.link.trace ∧ (o.accepted = true ↔ FannedOut c others) := by
  subst hc
  exact answer_of_newest (ht.sound hs.sound) ht.sent hs.above (ht.runtime ▸ hs.life) hu

/-- an ACK of the BEGIN is taken -/
theorem underway_of_begin {s t : Sys E} (hs : Unused q s) {opening : Bytes}
    (ht : Advances [⟨.snapshotBegin, opening, q⟩] s t) (hcarried : Carried t.link q snapshot bytes)
    {o : Channel.ApplyOutcome} {u : Sys E} (hu : Taken q.requestId o t u) (haccepted : o.accepted = true) :
    Underway q snapshot bytes u := by
  have hsound := ht.sound hs.sound
  have hlife : q.life = t.runtime.life := ht.runtime ▸ hs.life
  have hq := hu.ticket hsound hlife
  obtain ⟨others, hn, hfan⟩ := answer_of_first hs rfl ht hu
  obtain ⟨-, v, hv, hout, rfl⟩ := hu
  have htake := onLink_advances v (.inr (.inr rfl))
  have hall := hv.trans htake
  refine ⟨hall.sound hsound, hall.runtime ▸ hlife, hall.next ▸ ht.next ▸ hs.issued,
    hcarried.advances hall (fun d hd => by cases hd), fun d hd => ?_, ?_,
    ⟨_, others, hn, rfl, rfl, hfan.mp haccepted⟩⟩
  · rw [hall.sent, ht.sent] at hd
    rcases List.mem_cons.mp hd with hd | hd
    · rw [hd]
      exact .inr ⟨rfl, .inl rfl⟩
    · exact .inl (hs.above d hd)
  · exact ((hv.sound hsound).kept q).take hout hq

/-- **What a transfer has sent, and how it has ended.** -/
theorem transfer_spec (hbytes : encodeSnapshot snapshot = .ok bytes) {s : Sys E} (h : Unused q s) :
    wp (transfer snapshot bytes q)
      (fun result t => Uses q s t ∧ Carried t.link q snapshot bytes ∧ Ended t.log t.link q ∧
        (result.1 = true → Restored t.link.trace q snapshot)) s := by
  have hunused : ∀ d ∈ s.link.sent, d.ticket ≠ q := by
    intro d hd heq
    have hlt := h.above d hd
    rw [heq] at hlt
    exact Ticket.lt_irrefl_le hlt (Ticket.le_refl _)
  have hempty : Carried s.link q snapshot bytes := ⟨hbytes, fun d hd hq => absurd hq (hunused d hd)⟩
  unfold transfer
  cases hopening : encodeSnapshotBegin (beginOf snapshot bytes) with
  | error e => exact ⟨Uses.of_quiet (Advances.refl s), hempty, .nothing hunused, fun hr => by cases hr⟩
  | ok opening =>
    dsimp only
    rw [wp_bind]
    refine wp_mono (sendSnapshotCommand_spec h.sound h.life h.issued (h.before _ opening)) fun sent t ht => ?_
    obtain ⟨ht, htlog⟩ := ht
    have hcarried : Carried t.link q snapshot bytes := by
      refine hempty.advances ht fun d hd _ => ?_
      split_ifs at hd
      · rw [List.mem_singleton.mp hd]
        exact .opening rfl hopening
      · cases hd
    rw [wp_ite]
    refine ⟨fun hsent => ?_, fun hsent => ⟨Uses.of_send ht, hcarried, .unsent (htlog ?_), fun hr => by cases hr⟩⟩
    · have huses := Uses.of_send ht
      rw [hsent] at ht
      rw [wp_bind]
      refine wp_mono (awaitApplyOutcome_spec q t) fun outcome u hu => ?_
      obtain ⟨hu, htaken, hlate⟩ := hu
      have huses' := huses.trans (Uses.of_quiet hu)
      rw [wp_ite]
      refine ⟨fun hacc => ?_, fun hacc => ⟨huses', hcarried.advances hu (fun d hd => by cases hd), ?_, fun hr => by cases hr⟩⟩
      · obtain ⟨o, ho, haccepted⟩ := accepted_inv hacc
        exact sendBody_spec hopening (underway_of_begin h ht hcarried (htaken o ho) haccepted) huses'
      · cases houtcome : outcome with
        | none => exact .unanswered (hlate houtcome)
        | some o =>
          obtain ⟨others, hn, hfan⟩ := answer_of_first h rfl ht (htaken o houtcome)
          rw [houtcome] at hacc
          exact .refused _ others hn rfl rfl fun hf => hacc (hfan.mpr hf)
    · simpa using hsent

end Transfer

/-! ## Runs -/

theorem Ended.advances {commands : List Command} {s t : Sys E} {q : Ticket} (h : Ended s.log s.link q)
    (ha : Advances commands s t) (hne : ∀ d ∈ commands, d.ticket ≠ q) : Ended t.log t.link q := by
  obtain ⟨entries, hlog, -⟩ := ha.log
  obtain ⟨notes, htrace⟩ := ha.trace
  cases h with
  | committed d hd hq htype =>
    refine .committed d ?_ hq htype
    rw [ha.sent]
    exact List.mem_append_right _ hd
  | unsent h => exact .unsent (by rw [hlog]; exact List.mem_append_right _ h)
  | unanswered h => exact .unanswered (by rw [hlog]; exact List.mem_append_right _ h)
  | refused c others hn htype hq hrefused =>
    exact .refused c others (by rw [htrace]; exact List.mem_append_right _ hn) htype hq hrefused
  | nothing h =>
    refine .nothing fun d hd => ?_
    rw [ha.sent] at hd
    rcases List.mem_append.mp hd with hd | hd
    · exact hne d hd
    · exact h d hd

/-- what the entries of a log say is so -/
structure Accounts (entries : List (Entry E)) (s : Sys E) : Prop where
  openings : ∀ q snapshot, .opened q snapshot ∈ entries →
    q.lt s.next ∧ (∃ bytes, Carried s.link q snapshot bytes) ∧ Ended s.log s.link q
  told : ∀ q snapshot, .returned q snapshot true ∈ entries → Restored s.link.trace q snapshot

/-- other commands go out -/
theorem Accounts.advances {entries : List (Entry E)} {commands : List Command} {s t : Sys E} (h : Accounts entries s)
    (ha : Advances commands s t)
    (hne : ∀ d ∈ commands, ∀ q snapshot, .opened q snapshot ∈ entries → d.ticket ≠ q) : Accounts entries t where
  openings := by
    intro q snapshot hmem
    obtain ⟨hlt, ⟨bytes, hcarried⟩, hended⟩ := h.openings q snapshot hmem
    have hnew : ∀ d ∈ commands, d.ticket ≠ q := fun d hd => hne d hd q snapshot hmem
    exact ⟨ha.next ▸ hlt, ⟨bytes, hcarried.advances ha fun d hd hq => absurd hq (hnew d hd)⟩, hended.advances ha hnew⟩
  told := by
    intro q snapshot hmem
    obtain ⟨notes, htrace⟩ := ha.trace
    rw [htrace]
    exact (h.told q snapshot hmem).mono notes

/-- entries about neither a transfer that was opened nor one that was accepted -/
def Entry.Aside : Entry E → Prop
  | .opened _ _ => False
  | .returned _ _ true => False
  | _ => True

theorem Entry.Minor.aside {e : Entry E} (h : e.Minor) : e.Aside := by
  cases e with
  | unsent q => trivial
  | unanswered q => trivial
  | _ => exact h.elim

theorem Accounts.entries {entries more : List (Entry E)} {s : Sys E} (h : Accounts entries s)
    (hmore : ∀ e ∈ more, e.Aside) : Accounts (more ++ entries) s where
  openings := by
    intro q snapshot hmem
    rcases List.mem_append.mp hmem with hmem | hmem
    · exact (hmore _ hmem).elim
    · exact h.openings q snapshot hmem
  told := by
    intro q snapshot hmem
    rcases List.mem_append.mp hmem with hmem | hmem
    · exact (hmore _ hmem).elim
    · exact h.told q snapshot hmem

/-- the log goes on -/
theorem Accounts.enter {entries : List (Entry E)} {s : Sys E} (h : Accounts entries s) (e : Entry E) :
    Accounts entries (s.enter e) where
  openings := by
    intro q snapshot hmem
    obtain ⟨hlt, hcarried, hended⟩ := h.openings q snapshot hmem
    refine ⟨hlt, hcarried, ?_⟩
    cases hended with
    | committed d hd hq htype => exact .committed d hd hq htype
    | unsent h => exact .unsent (List.mem_cons_of_mem _ h)
    | unanswered h => exact .unanswered (List.mem_cons_of_mem _ h)
    | refused c others hn htype hq hrefused => exact .refused c others hn htype hq hrefused
    | nothing h => exact .nothing h
  told := h.told

/-- the announce the daemon holds as acknowledged was handled by the driver -/
def Announces (s : Sys E) : Prop :=
  s.runtime.announcedRouteHash ≠ [] → ∃ q payload contexts, s.runtime.announcedBy = some q ∧
    Note.handled ⟨.routeAnnounce, payload, q⟩ contexts ∈ s.link.trace ∧
    decodeRouteAnnounce payload = .ok { deviceKeyHash := s.runtime.announcedRouteHash }

/-- the invariant of every run -/
structure Whole (s : Sys E) : Prop where
  sound : Sound s.next s.link
  accounts : Accounts s.log s
  announces : Announces s

theorem Announces.advances {commands : List Command} {s t : Sys E} (h : Announces s) (ha : Advances commands s t) :
    Announces t := by
  unfold Announces at h ⊢
  rw [ha.runtime]
  intro hne
  obtain ⟨q, payload, contexts, hby, hn, hdecode⟩ := h hne
  obtain ⟨notes, htrace⟩ := ha.trace
  exact ⟨q, payload, contexts, hby, by rw [htrace]; exact List.mem_append_right _ hn, hdecode⟩

theorem Whole.advances {commands : List Command} {s t : Sys E} (h : Whole s) (ha : Advances commands s t)
    (hne : ∀ d ∈ commands, ∀ q snapshot, .opened q snapshot ∈ s.log → d.ticket ≠ q) : Whole t := by
  obtain ⟨entries, hlog, hminor⟩ := ha.log
  refine ⟨ha.sound h.sound, ?_, h.announces.advances ha⟩
  rw [hlog]
  exact (h.accounts.advances ha hne).entries fun e he => (hminor e he).aside

theorem Quiet.whole {α : Type} {m : Prog E α} (h : Quiet m) : Keeps Whole m := fun s hs =>
  hs.advances (h s) fun d hd => by cases hd

theorem whole_note {e : Entry E} (he : e.Aside) : Keeps Whole (note e) := by
  intro s hs
  have hentries : Accounts ([e] ++ s.log) (s.enter e) :=
    (hs.accounts.enter e).entries fun d hd => by rw [List.mem_singleton.mp hd]; exact he
  exact ⟨hs.sound, hentries, hs.announces⟩

/-- what the invariant reads stays -/
theorem Whole.of_eq {s t : Sys E} (h : Whole s) (hlink : t.link = s.link) (hlog : t.log = s.log)
    (hnext : t.next = s.next)
    (hroute : t.runtime.announcedRouteHash = s.runtime.announcedRouteHash ∧ t.runtime.announcedBy = s.runtime.announcedBy ∨
      t.runtime.announcedRouteHash = []) : Whole t := by
  refine ⟨by rw [hlink, hnext]; exact h.sound, ⟨fun q snapshot => ?_, fun q snapshot => ?_⟩, fun hne => ?_⟩
  · rw [hlink, hlog, hnext]
    exact h.accounts.openings q snapshot
  · rw [hlink, hlog]
    exact h.accounts.told q snapshot
  · rcases hroute with ⟨hhash, hby⟩ | hempty
    · rw [hhash] at hne ⊢
      rw [hby, hlink]
      exact h.announces hne
    · exact absurd hempty hne

/-- fields of the runtime that the invariant does not read -/
structure Unread (f : Runtime → Runtime) : Prop where
  life : ∀ r, (f r).life = r.life
  nextRequestId : ∀ r, (f r).nextRequestId = r.nextRequestId
  route : ∀ r, (f r).announcedRouteHash = r.announcedRouteHash ∧ (f r).announcedBy = r.announcedBy ∨
    (f r).announcedRouteHash = []

theorem whole_set {f : Runtime → Runtime} (hf : Unread f) : Keeps (Whole (E := E)) (set f) := by
  intro s hs
  refine hs.of_eq rfl rfl ?_ (hf.route s.runtime)
  exact congrArg₂ Ticket.mk (hf.life s.runtime) (hf.nextRequestId s.runtime)

/-- a ticket is issued -/
theorem Whole.ticket {s t : Sys E} {q : Ticket} (h : Whole s) (hq : Unused q t) (hlink : t.link = s.link)
    (hlog : t.log = s.log)
    (hruntime : t.runtime = { s.runtime with nextRequestId := s.runtime.nextRequestId + 1 }) : Whole t := by
  refine ⟨hq.sound, ⟨fun q snapshot hmem => ?_, fun q snapshot => ?_⟩, fun hne => ?_⟩
  · rw [hlog] at hmem
    obtain ⟨hlt, hrest⟩ := h.accounts.openings q snapshot hmem
    rw [hlink, hlog]
    refine ⟨?_, hrest⟩
    unfold Sys.next Ticket.lt at hlt ⊢
    rw [hruntime]
    simp only at hlt ⊢
    omega
  · rw [hlink, hlog]
    exact h.accounts.told q snapshot
  · rw [hruntime] at hne ⊢
    rw [hlink]
    exact h.announces hne

/-- no transfer was opened under a ticket that is issued now -/
theorem Whole.unopened {s : Sys E} (h : Whole s) {q : Ticket} {snapshot : Snapshot}
    (hmem : .opened q snapshot ∈ s.log) : s.next ≠ q := by
  intro heq
  have hlt := (h.accounts.openings q snapshot hmem).1
  rw [heq] at hlt
  exact Ticket.lt_irrefl_le hlt (Ticket.le_refl _)

/-- from `s`, a ticket is issued in `t`, and by `u` a command was sent under it, or could not be sent -/
structure Commanded (type : SnapshotCommandType) (payload : Bytes) (sent : Bool) (s t u : Sys E) : Prop where
  unused : Unused s.next t
  link : t.link = s.link
  log : t.log = s.log
  advances : Advances (if sent then [⟨type, payload, s.next⟩] else []) t u
  whole : Whole u
  runtime : u.runtime = { s.runtime with nextRequestId := s.runtime.nextRequestId + 1 }

/-- a ticket is issued, and a command of any kind goes out under it -/
theorem command_spec {α : Type} {m : Ticket → Bool → Prog E α} {Q : α → Sys E → Prop} (type : SnapshotCommandType)
    (payload : Bytes) {s : Sys E} (hs : Whole s)
    (hm : ∀ sent t u, Commanded type payload sent s t u → wp (m s.next sent) Q u) :
    wp (newTicket >>= fun q => sendSnapshotCommand ⟨type, payload, q⟩ >>= m q) Q s := by
  rw [wp_bind]
  refine wp_mono (newTicket_spec hs.sound) fun q t ht => ?_
  obtain ⟨rfl, hq, hlink, hlog, hruntime⟩ := ht
  rw [wp_bind]
  refine wp_mono (sendSnapshotCommand_spec hq.sound hq.life hq.issued (hq.before type payload)) fun sent u hu => ?_
  have ht := hs.ticket hq hlink hlog hruntime
  have hwhole : Whole u := by
    refine ht.advances hu.1 fun d hd q snapshot hmem => ?_
    rw [hlog] at hmem
    split_ifs at hd
    · rw [List.mem_singleton.mp hd]
      exact hs.unopened hmem
    · cases hd
  exact hm sent t u ⟨hq, hlink, hlog, hu.1, hwhole, hu.1.runtime.trans hruntime⟩

theorem whole_command {α : Type} {m : Ticket → Bool → Prog E α} (type : SnapshotCommandType) (payload : Bytes)
    (hm : ∀ q sent, Keeps Whole (m q sent)) :
    Keeps Whole (newTicket >>= fun q => sendSnapshotCommand ⟨type, payload, q⟩ >>= m q) := fun s hs =>
  command_spec (Q := fun _ t => Whole t) type payload hs fun sent _ u hu => hm s.next sent u hu.whole

theorem quiet_awaitApplyOutcome (ticket : Ticket) : Quiet (E := E) (awaitApplyOutcome ticket) := fun s =>
  (awaitApplyOutcome_spec ticket s).1

/-- the books after a transfer: what was open before stays so, and the transfer is entered -/
theorem whole_of_transfer {s t u : Sys E} {q : Ticket} {snapshot : Snapshot} {bytes : Bytes} {result : Bool}
    (hs : Whole s) (ht : Whole t) (hlog : t.log = s.log) (hq : q = s.next)
    (hissued : q.lt t.next) (huses : Uses q (t.enter (.opened q snapshot)) u) (hcarried : Carried u.link q snapshot bytes)
    (hended : Ended u.log u.link q) (hdone : result = true → Restored u.link.trace q snapshot) :
    Whole (u.enter (.returned q snapshot result)) := by
  obtain ⟨commands, ha, hcommands⟩ := huses
  obtain ⟨entries, hulog, hminor⟩ := ha.log
  have hold : Accounts t.log u := by
    refine (ht.accounts.enter (.opened q snapshot)).advances ha fun d hd q' snapshot' hmem => ?_
    rw [hcommands d hd, hq]
    rw [hlog] at hmem
    exact hs.unopened hmem
  have hopened : Accounts (.opened q snapshot :: t.log) u := by
    refine ⟨fun q' snapshot' hmem => ?_, fun q' snapshot' hmem => ?_⟩
    · rcases List.mem_cons.mp hmem with heq | hmem
      · obtain ⟨rfl, rfl⟩ := Entry.opened.inj heq
        exact ⟨ha.next ▸ hissued, ⟨bytes, hcarried⟩, hended⟩
      · exact hold.openings q' snapshot' hmem
    · rcases List.mem_cons.mp hmem with heq | hmem
      · cases heq
      · exact hold.told q' snapshot' hmem
  have hall : Accounts u.log u := by
    rw [hulog]
    exact hopened.entries fun e he => (hminor e he).aside
  have hannounces : Announces u := Announces.advances (s := t.enter (.opened q snapshot)) ht.announces ha
  refine ⟨ha.sound ht.sound, ?_, hannounces⟩
  have hentered := hall.enter (.returned q snapshot result)
  refine ⟨fun q' snapshot' hmem => ?_, fun q' snapshot' hmem => ?_⟩
  · rcases List.mem_cons.mp hmem with heq | hmem
    · cases heq
    · exact hentered.openings q' snapshot' hmem
  · rcases List.mem_cons.mp hmem with heq | hmem
    · obtain ⟨rfl, rfl, hr⟩ := Entry.returned.inj heq
      exact hdone hr.symm
    · exact hentered.told q' snapshot' hmem

theorem whole_applySnapshotToDriver (snapshot : Snapshot) : Keeps (Whole (E := E)) (applySnapshotToDriver snapshot) := by
  unfold applySnapshotToDriver
  cases hbytes : encodeSnapshot snapshot with
  | error e => exact Keeps.pure _
  | ok bytes =>
    intro s hs
    suffices h : wp (do
        let ticket ← newTicket
        note (.opened ticket snapshot)
        let result ← transfer snapshot bytes ticket
        note (.returned ticket snapshot result.1)
        pure result) (fun _ t => Whole t) s from h
    rw [wp_bind]
    refine wp_mono (newTicket_spec hs.sound) fun q t ht => ?_
    obtain ⟨hqs, hq, hlink, hlog, hruntime⟩ := ht
    have hq' : Unused q (t.enter (.opened q snapshot)) := ⟨hq.sound, hq.life, hq.issued, hq.above⟩
    rw [wp_bind]
    refine wp_mono (P := fun _ u => u = t.enter (.opened q snapshot)) rfl fun _ u hu => ?_
    subst hu
    rw [wp_bind]
    refine wp_mono (transfer_spec hbytes hq') fun result u hu => ?_
    obtain ⟨huses, hcarried, hended, hdone⟩ := hu
    exact whole_of_transfer hs (hs.ticket hq hlink hlog hruntime) hlog hqs hq.issued huses hcarried hended hdone

/-- an acknowledged announce was handled by the driver -/
theorem whole_announceRouteToDriver : Keeps (Whole (E := E)) announceRouteToDriver := by
  refine Keeps.get.bind fun s₀ => ?_
  dsimp only
  cases hpayload : encodeRouteAnnounce { deviceKeyHash := s₀.runtime.routeKeyHash } with
  | error e => exact Keeps.pure _
  | ok payload =>
    intro s hs
    refine command_spec (Q := fun _ t => Whole t) .routeAnnounce payload hs fun sent t u hu => ?_
    rw [wp_ite]
    refine ⟨fun hsent => ?_, fun _ => hu.whole⟩
    have hsend := hu.advances
    rw [hsent] at hsend
    rw [wp_bind]
    refine wp_mono (awaitApplyOutcome_spec s.next u) fun outcome v hv => ?_
    obtain ⟨hv, htaken, -⟩ := hv
    have hvw := hu.whole.advances hv fun d hd => by cases hd
    rw [wp_ite]
    refine ⟨fun hacc => ?_, fun _ => hvw⟩
    obtain ⟨o, ho, -⟩ := accepted_inv hacc
    obtain ⟨others, hn, -⟩ := answer_of_first hu.unused rfl hsend (htaken o ho)
    have hset : Whole { v with
        runtime := { v.runtime with announcedRouteHash := s₀.runtime.routeKeyHash, announcedBy := some s.next } } := by
      refine ⟨hvw.sound, ⟨hvw.accounts.openings, hvw.accounts.told⟩, fun _ => ?_⟩
      exact ⟨s.next, payload, others, rfl, hn, decodeRouteAnnounce_encode _ _ hpayload⟩
    exact whole_note (e := .announced s.next s₀.runtime.routeKeyHash) trivial _ hset

theorem whole_restoreCurrentRoute : Keeps (Whole (E := E)) restoreCurrentRoute := by
  refine Keeps.get.bind fun s => Keeps.ite (Keeps.bind (whole_note trivial) fun _ => Keeps.pure _) ?_
  cases usableSnapshot s.store s.runtime.routeKeyHash with
  | none => exact Keeps.bind (whole_note trivial) fun _ => Keeps.pure _
  | some loaded =>
    refine Keeps.bind (whole_set ⟨fun _ => rfl, fun _ => rfl, fun _ => .inl ⟨rfl, rfl⟩⟩) fun _ => Keeps.bind (whole_note trivial) fun _ => ?_
    exact (whole_applySnapshotToDriver _).bind fun _ => Keeps.pure _

theorem pollRoute_whole {s : Sys E} (h : Whole s) : Whole s.pollRoute := by
  unfold Sys.pollRoute
  cases newRouteKey s.adapter s.runtime.routeKey with
  | none => exact h
  | some key => exact h.of_eq rfl rfl rfl (.inl ⟨rfl, rfl⟩)

theorem whole_onRouteReport (report : AppRouteReport) : Keeps (Whole (E := E)) (onRouteReport report) := by
  refine Keeps.get.bind fun s => Keeps.ite (Keeps.pure _) (Keeps.ite (Keeps.pure _) ?_)
  refine quiet_turn.whole.bind fun t => Keeps.bind (Keeps.modify fun s hs => ?_) fun _ => Keeps.get.bind fun _ => Keeps.pure _
  exact pollRoute_whole (hs.of_eq rfl rfl rfl (.inl ⟨rfl, rfl⟩))

theorem whole_settleAppTransfer (type : SnapshotCommandType) (ticket : Ticket) (outcome : Option Channel.ApplyOutcome) :
    Keeps (Whole (E := E)) (settleAppTransfer type ticket outcome) := by
  have hcommit : Keeps (Whole (E := E)) (commitStagedAppSnapshot ticket) := by
    refine Keeps.get.bind fun s => Keeps.ite (Keeps.bind (whole_set ⟨fun _ => rfl, fun _ => rfl, fun _ => .inl ⟨rfl, rfl⟩⟩) fun _ => ?_) (Keeps.pure _)
    cases stagedAppSnapshot s.runtime with
    | none => exact Keeps.pure _
    | some snapshot =>
      refine quiet_turn.whole.bind fun t => Keeps.bind (Keeps.modify fun s hs => ?_) fun _ => whole_note trivial
      exact hs.of_eq rfl rfl rfl (.inl ⟨rfl, rfl⟩)
  have hdrop : Keeps (Whole (E := E)) (if !accepted outcome ∨ type = .snapshotAbort then set dropStaged else pure ()) :=
    Keeps.ite (whole_set ⟨fun _ => rfl, fun _ => rfl, fun _ => .inl ⟨rfl, rfl⟩⟩) (Keeps.pure _)
  exact Keeps.ite (Keeps.bind (whole_set ⟨fun _ => rfl, fun _ => rfl, fun _ => .inl ⟨rfl, rfl⟩⟩) fun _ => hcommit.bind fun _ => hdrop) hdrop

theorem unread_stage (type : SnapshotCommandType) (payload : Bytes) :
    Unread fun r => stageAppSnapshotCommand r type payload := by
  refine ⟨fun r => ?_, fun r => ?_, fun r => .inl ?_⟩
  all_goals
    unfold stageAppSnapshotCommand
    repeat' first | split | split_ifs
    all_goals trivial

theorem whole_onSnapshotCommand (type : SnapshotCommandType) (payload : Bytes) :
    Keeps (Whole (E := E)) (onSnapshotCommand type payload) := by
  refine Keeps.get.bind fun s => (whole_set (unread_stage type payload)).bind fun _ => Keeps.bind (Keeps.get.bind fun _ => Keeps.pure _) fun up => ?_
  refine Keeps.ite (Keeps.pure _) (whole_command _ _ fun q sent => Keeps.ite (Keeps.pure _) ?_)
  refine Keeps.bind (whole_set ⟨fun _ => rfl, fun _ => rfl, fun _ => .inl ⟨rfl, rfl⟩⟩) fun _ => ?_
  refine Keeps.ite (Keeps.pure _) (Keeps.get.bind fun s' => ?_)
  refine Keeps.ite (Keeps.bind (whole_note trivial) fun _ => ?_) ?_
  all_goals
    refine (quiet_awaitApplyOutcome q).whole.bind fun outcome => ?_
    exact (whole_settleAppTransfer type q outcome).bind fun _ => Keeps.get.bind fun _ => Keeps.pure _

theorem whole_handleAppMessages (messages : List AppMessage) : Keeps (Whole (E := E)) (handleAppMessages messages) := by
  induction messages with
  | nil => exact Keeps.pure _
  | cons m rest ih =>
    refine Keeps.bind ?_ fun _ => ih
    cases m with
    | routeReport report => exact (whole_onRouteReport report).bind fun _ => Keeps.pure _
    | snapshotCommand type payload =>
      exact Keeps.ite ((whole_onSnapshotCommand type payload).bind fun _ => Keeps.pure _) (Keeps.pure _)

theorem whole_announcePass (driverConnected newConnection : Bool) :
    Keeps (Whole (E := E)) (announcePass driverConnected newConnection) := by
  have hforget : Keeps (Whole (E := E)) (set forgetAnnounce) :=
    whole_set ⟨fun _ => rfl, fun _ => rfl, fun _ => .inr rfl⟩
  have hlast : Keeps (Whole (E := E)) (set fun r => { r with driverWasConnected := driverConnected }) :=
    whole_set ⟨fun _ => rfl, fun _ => rfl, fun _ => .inl ⟨rfl, rfl⟩⟩
  have hdue : Keeps (Whole (E := E)) (do
      if announceDue (← get) then do
        set fun r => { r with announceAttempts := r.announceAttempts + 1 }
        if ← announceRouteToDriver then set fun r => { r with announceAttempts := 0 }
        else modify fun s => { s with
          runtime := { s.runtime with announceNextAttempt := s.now + kAnnounceRetryDelay } }
      set fun r => { r with driverWasConnected := driverConnected }) := by
    refine Keeps.get.bind fun s => Keeps.ite ?_ hlast
    refine Keeps.bind (whole_set ⟨fun _ => rfl, fun _ => rfl, fun _ => .inl ⟨rfl, rfl⟩⟩) fun _ => whole_announceRouteToDriver.bind fun ok => ?_
    refine Keeps.ite (Keeps.bind (whole_set ⟨fun _ => rfl, fun _ => rfl, fun _ => .inl ⟨rfl, rfl⟩⟩) fun _ => hlast) (Keeps.bind (Keeps.modify fun s hs => ?_) fun _ => hlast)
    exact hs.of_eq rfl rfl rfl (.inl ⟨rfl, rfl⟩)
  refine Keeps.ite (Keeps.ite ?_ ?_) (hforget.bind fun _ => hlast)
  · exact hforget.bind fun _ => hdue
  · exact hdue

theorem whole_runOnce (messages : List AppMessage) : Keeps (Whole (E := E)) (runOnce messages) := by
  refine quiet_poll.whole.bind fun _ => (whole_handleAppMessages messages).bind fun _ => ?_
  refine Keeps.bind (Keeps.modify fun s hs => pollRoute_whole hs) fun _ => Keeps.get.bind fun s => ?_
  refine (whole_announcePass _ _).bind fun _ => Keeps.get.bind fun s' => Keeps.ite ?_ (Keeps.pure _)
  refine Keeps.bind (whole_set ⟨fun _ => rfl, fun _ => rfl, fun _ => .inl ⟨rfl, rfl⟩⟩) fun _ => whole_restoreCurrentRoute.bind fun _ => Keeps.modify fun s hs => ?_
  exact hs.of_eq rfl rfl rfl (.inl ⟨rfl, rfl⟩)

/-- a new daemon process finds the books of the one before as they were -/
theorem restart_whole {s : Sys E} (h : Whole s) (adapter : Option DeviceIdentity) :
    Whole { s with link := s.link.restartDaemon, adapter, runtime := { life := s.runtime.life + 1 } } := by
  refine ⟨h.sound.restart 1, ⟨fun q snapshot hmem => ?_, h.accounts.told⟩, fun hne => absurd rfl hne⟩
  obtain ⟨hlt, ⟨bytes, hcarried⟩, hended⟩ := h.accounts.openings q snapshot hmem
  refine ⟨?_, ⟨bytes, hcarried.encoded, hcarried.belongs⟩, ?_⟩
  · unfold Sys.next Ticket.lt at hlt ⊢
    simp only at hlt ⊢
    omega
  · cases hended with
    | committed d hd hq htype => exact .committed d hd hq htype
    | unsent h => exact .unsent h
    | unanswered h => exact .unanswered h
    | refused c others hn htype hq hrefused => exact .refused c others hn htype hq hrefused
    | nothing h => exact .nothing h

theorem step_whole {s : Sys E} (h : Whole s) (op : Op E) : Whole (step s op) := by
  cases op with
  | driver op => exact h.advances (drive_advances s [op] s.turns s.now) fun d hd => by cases hd
  | runOnce turns messages =>
    have h' := whole_runOnce messages { s with turns } (h.of_eq rfl rfl rfl (.inl ⟨rfl, rfl⟩))
    exact h'.of_eq rfl rfl rfl (.inl ⟨rfl, rfl⟩)
  | reading identity =>
    simp only [step]
    split_ifs
    · exact h
    · exact h.of_eq rfl rfl rfl (.inl ⟨rfl, rfl⟩)
  | wait duration => exact h.of_eq rfl rfl rfl (.inl ⟨rfl, rfl⟩)
  | restart cacheReadable => exact pollRoute_whole (restart_whole h _)

theorem run_whole {s : Sys E} (h : Whole s) (ops : List (Op E)) : Whole (run s ops) := by
  induction ops generalizing s with
  | nil => exact h
  | cons op ops ih => exact ih (step_whole h op)

theorem boot_whole (config : Config) (bootId : ℕ) (store : SnapshotStore) (adapter cache : Option DeviceIdentity) :
    Whole (boot config bootId store adapter cache : Sys E) :=
  pollRoute_whole ⟨init_sound _ bootId, ⟨(fun _ _ hmem => by cases hmem), (fun _ _ hmem => by cases hmem)⟩,
    fun hne => absurd rfl hne⟩

/-- **An accepted restore really happened.** In every run, whatever the driver, the network and the App do around and
inside a transfer: a call of `ApplySnapshotToDriver` that has returned true was answered with an ACK to its own COMMIT,
and every context that took part had the bytes of its snapshot staged. -/
theorem accepted_was_restored (config : Config) (bootId : ℕ) (store : SnapshotStore)
    (adapter cache : Option DeviceIdentity) (ops : List (Op E)) (q : Ticket) (snapshot : Snapshot)
    (h : Entry.returned q snapshot true ∈ (run (boot config bootId store adapter cache) ops : Sys E).log) :
    Restored (run (boot config bootId store adapter cache) ops : Sys E).link.trace q snapshot :=
  (run_whole (boot_whole config bootId store adapter cache) ops).accounts.told q snapshot h

/-! ## A restore -/

/-- what a call that returned true was about -/
def Entry.restored {E : Engine} : Entry E → Option (Ticket × Snapshot)
  | .returned q snapshot true => some (q, snapshot)
  | _ => none

theorem Entry.restored_inv {E : Engine} {log : List (Entry E)} {q : Ticket} {snapshot : Snapshot}
    (h : (q, snapshot) ∈ log.filterMap Entry.restored) : Entry.returned q snapshot true ∈ log := by
  obtain ⟨e, he, heq⟩ := List.mem_filterMap.mp h
  unfold Entry.restored at heq
  split at heq
  · obtain ⟨rfl, rfl⟩ := Prod.mk.inj (Option.some.inj heq)
    exact he
  · cases heq

def speaker : DeviceIdentity :=
  { routeType := ascii ['s'], stableAddressOrPort := ascii ['b'], productName := ascii ['p'], sampleRate := 48000
    channelMask := 3, encoding := ascii ['e'], outputFlags := 0 }

def speakerSnapshot (daemonGeneration : UInt64) : Snapshot :=
  { gainSnapshot 5 [] with
    deviceKey := normalizeDeviceKey speaker
    deviceKeyHash := hashDeviceKey (normalizeDeviceKey speaker)
    daemonGeneration }

def speakerStore : SnapshotStore :=
  (SnapshotStore.commit {} (speakerSnapshot 1).deviceKeyHash (speakerSnapshot 1) .none).1

/-- one context registers and is configured, and the bridge connects -/
def speakerContext : List (Op gainEngine) :=
  [.driver (.register 5 6), .driver (.touch 1 fun _ => configuredGain), .driver (.connect .sent)]

/-- a pass that announces the route and restores it: the driver answers each command in time -/
def speakerPass : Op gainEngine :=
  .runOnce (List.map (fun before => { before })
    [[], [], [], [], [.handle .sent], [], [], [], [.handle .sent], [], [], [], [], [.handle .sent, .handle .sent]]) []

/-- The speaker is plugged in and a snapshot of it is stored: it is restored. -/
theorem speaker_was_restored :
    Restored (run (boot { appReportedRoutes := false } 7 speakerStore (some speaker) none)
      (speakerContext ++ [speakerPass]) : Sys gainEngine).link.trace ⟨0, 2⟩ (speakerSnapshot 2) := by
  have hreturned : (⟨0, 2⟩, speakerSnapshot 2) ∈
      (run (boot { appReportedRoutes := false } 7 speakerStore (some speaker) none)
        (speakerContext ++ [speakerPass]) : Sys gainEngine).log.filterMap Entry.restored := by decide +kernel
  exact accepted_was_restored _ _ _ _ _ _ _ _ (Entry.restored_inv hreturned)

end ViperFx.System
