/-
Whether what the daemon stores is what the driver has accepted and what it runs on, over every run: `CommitStagedAppSnapshot`
of `daemon/DaemonRuntime.cpp` against the apply controller of every context.

Both put the App's frames together in the same way: what comes at the end is appended, anything else ends the transfer. So a
part of the frames puts together a part of the bytes (`joined_sublist`), and a COMMIT that finds as many bytes as were declared
finds the bytes of the daemon's copy, as long as both are of one BEGIN.

A COMMIT that repeats the generations of the last snapshot is accepted as IDEMPOTENT, and a context goes on with what it has; so
what was accepted is in effect only where the generations tell two snapshots apart (`NoClash`).

Results:
  · staged_of_relayed       : what a context is staging when a COMMIT of the App reaches it
  · stored_as_accepted      : what is stored was accepted, and what was accepted is stored
  · stored_as_applied       : what is stored is in effect, and what was applied is stored
  · unsent_copy_is_stored   : a BEGIN that could not be sent leaves the daemon with another snapshot than the driver
  · repeated_pair_is_stored : a snapshot under generations that were applied before is stored and has no effect
-/
import ViperFx.System.AppCopies

namespace ViperFx.System

open ViperFx.Core ViperFx.Protocol ViperFx.Daemon ViperFx.Channel ViperFx.Driver

variable {E : Engine}

/-! ## What the contexts have -/

theorem Offered.sentChunks_payloads (o : Offered) : (o.sentChunks.map Command.payload).Sublist o.payloads := by
  obtain ⟨begun, chunks⟩ := o
  show ((chunks.filterMap fun c => c.ticket.map fun q => ⟨.snapshotChunk, c.payload, q⟩).map Command.payload).Sublist
    (chunks.map Offer.payload)
  induction chunks with
  | nil => exact List.Sublist.refl _
  | cons c chunks ih =>
    obtain ⟨payload, ticket⟩ := c
    cases ticket with
    | none => exact ih.cons _
    | some q => exact ih.cons_cons _

/-- when all of them were sent -/
theorem Offered.sentChunks_all {o : Offered} (h : ∀ c ∈ o.chunks, c.ticket.isSome = true) :
    o.sentChunks.map Command.payload = o.payloads := by
  obtain ⟨begun, chunks⟩ := o
  show (chunks.filterMap fun c => c.ticket.map fun q => ⟨.snapshotChunk, c.payload, q⟩).map Command.payload =
    chunks.map Offer.payload
  change ∀ c ∈ chunks, c.ticket.isSome = true at h
  induction chunks with
  | nil => rfl
  | cons c chunks ih =>
    obtain ⟨payload, ticket⟩ := c
    have hrest := ih fun c hc => h c (List.mem_cons_of_mem _ hc)
    cases ticket with
    | none =>
      have hno := h _ List.mem_cons_self
      cases hno
    | some q => exact congrArg (payload :: ·) hrest

/-- a context that has the App's transfer staged when a COMMIT of the App reaches it -/
structure StagesApp (o : Offered) (b : Ticket) (older : List (Note (Tracked E))) (x : Tracked E) : Prop where
  declared : ∃ begin, decodeSnapshotBegin o.begun.payload = .ok begin ∧
    x.ctx.snapshotApply.metadata = ViperContext.metadataOf begin
  staged : joined (chunksSince b (handledCommands older)) = some x.ctx.snapshotApply.staged
  sent : ((handledCommands older).filter fun d => d.type = .snapshotChunk ∧ b.le d.ticket).Sublist o.sentChunks

/-- what was handled before something was sent -/
theorem Sound.older_sublist {next : Ticket} {l : Link (Tracked E)} (h : Sound next l) {newer older : List (Note (Tracked E))}
    {n : Note (Tracked E)} (htrace : l.trace = newer ++ n :: older) : (handledCommands older).Sublist l.sent := by
  have hall : (handledCommands l.trace).Sublist l.sent := by
    have hconveyed : (handledCommands l.trace).reverse.Sublist l.sent.reverse :=
      (List.sublist_append_left _ _).trans h.ordered
    exact List.reverse_sublist.mp hconveyed
  refine List.Sublist.trans ?_ hall
  rw [htrace, handledCommands, handledCommands, List.filterMap_append]
  refine List.Sublist.trans ?_ (List.sublist_append_right _ _)
  exact (List.sublist_cons_self n older).filterMap _

/-- **What a context is staging when a COMMIT of the App reaches it**: the transfer the daemon holds open, when the transfer is
not one of the daemon's own. -/
theorem staged_of_relayed {s : Sys E} (hs : Books s) {q : Ticket} {route : Bytes} {o : Offered}
    (hrelayed : Relayed s q route (some o)) {b : Ticket} (hb : o.begun.ticket = some b) {newer older : List (Note (Tracked E))}
    {c : Command} {contexts : Table ℕ (DriverContext (Tracked E))}
    (htrace : s.link.trace = newer ++ .handled c contexts :: older) (htype : c.type = .snapshotCommit) (hq : c.ticket = q)
    {id : ℕ} {y : DriverContext (Tracked E)} (hy : contexts.get? id = some y) {p : Ticket} (hstaged : StagedFor y.ext p)
    (hown : p ∉ restores s.log) : StagesApp o b older y.ext := by
  have hconveyed := hrelayed.conveyed o b rfl hb
  have hsound := hs.whole.sound
  obtain ⟨hbefore, -⟩ := hsound.handled_before htrace
  have hsent := hsound.older_sublist htrace
  obtain ⟨p', hp', hopened⟩ := (hsound.provenance.past newer c contexts older htrace id y hy).opened hstaged.1
  obtain rfl := Option.some.inj (hstaged.2.symm.trans hp')
  obtain ⟨d, hd, begin, hdtype, hdq, hdecode, hmeta⟩ := hopened.begin_handled
  -- what was handled before the COMMIT went out under an older ticket
  have holder : ∀ e ∈ handledCommands older, e.type = .snapshotBegin ∨ e.type = .snapshotChunk → e.ticket.lt q := by
    intro e he het
    refine Ticket.lt_of_le_of_ne (hq ▸ (hbefore e he).1) fun heq => ?_
    have hcommit := hrelayed.alone e (hsent.subset he) heq
    rw [hcommit] at het
    rcases het with ht | ht <;> cases ht
  have hagreed : Agreed older b := by
    obtain ⟨others, hn, hfan⟩ := hconveyed.begun
    refine Agreed.earlier hsound htrace (by simp [htype]) ?_ ⟨_, others, hn, rfl, rfl, hfan⟩
    rw [hq]
    exact Ticket.le_of_lt hconveyed.before
  have hpb : p = b := by
    refine Ticket.le_antisymm ?_ ?_
    · rw [← hdq]
      refine hconveyed.last d (hsent.subset hd) hdtype (hdq ▸ hown) (holder d hd (Or.inl hdtype))
    · obtain ⟨e, others, hn, het, heq, hfan⟩ := hagreed
      rw [← heq]
      exact hopened.agreed e others hn het hfan
  subst hpb
  refine ⟨⟨begin, ?_, hmeta⟩, ?_, ?_⟩
  · -- the BEGIN is the one the daemon holds
    obtain ⟨others, hn, -⟩ := hconveyed.begun
    obtain ⟨contexts', hn'⟩ := Link.mem_handledCommands.mp hd
    have hmem : Note.handled d contexts' ∈ s.link.trace := by
      rw [htrace]
      exact List.mem_append_right _ (List.mem_cons_of_mem _ hn')
    obtain ⟨rfl, -⟩ := begin_unique hsound hmem hn hdtype rfl hdq
    exact hdecode
  · exact (hsound.assembles.past newer c contexts older htrace id y hy).staged p hstaged.1 hstaged.2
  · rw [hconveyed.chunks]
    have hsame : (handledCommands older).filter (fun d => d.type = .snapshotChunk ∧ p.le d.ticket) =
        (handledCommands older).filter (Between s.log p q) := by
      refine List.filter_congr fun e he => decide_eq_decide.mpr ?_
      constructor
      · rintro ⟨het, hle⟩
        refine ⟨het, hle, holder e he (Or.inr het), fun hrestore => hown ?_⟩
        -- a chunk of the daemon's own transfer goes out when every context has taken its BEGIN, and this one is staging another
        obtain ⟨snapshot, hmem⟩ := mem_restores.mp hrestore
        obtain ⟨-, ⟨bytes, hcarried⟩, -⟩ := hs.whole.accounts.openings e.ticket snapshot hmem
        have hagreed' : Agreed s.link.trace e.ticket := by
          cases hcarried.belongs e (hsent.subset he) rfl with
          | opening ht => exact absurd (ht.symm.trans het) (by decide)
          | piece _ _ hagreed => exact hagreed
          | closing ht => exact absurd (ht.symm.trans het) (by decide)
        obtain ⟨e', others, hn, het', heq, hfan⟩ := hagreed'.earlier hsound htrace (by simp [htype]) (hbefore e he).1
        have hle' := hopened.agreed e' others hn het' hfan
        rw [heq] at hle'
        rw [Ticket.le_antisymm hle hle']
        exact hrestore
      · rintro ⟨het, hle, -⟩
        exact ⟨het, hle⟩
    rw [hsame]
    exact hsent.filter _

/-- a COMMIT that was taken was of the snapshot that is staged, which is as its BEGIN declared; a repetition has the generations
of the last snapshot -/
theorem taken_commit {x : Tracked E} {c : Command} (htype : c.type = .snapshotCommit) (h : (answer E x c).2.accepted = true) :
    x.ctx.snapshotApply.staging = true ∧
      x.ctx.snapshotApply.staged.length = x.ctx.snapshotApply.metadata.totalSize.toNat ∧
      crc32 x.ctx.snapshotApply.staged = x.ctx.snapshotApply.metadata.crc32 ∧
      ∃ taken outcome, decodeSnapshot x.ctx.snapshotApply.staged = .ok taken ∧
        landing E x.ctx c = [⟨c.ticket, outcome, taken⟩] ∧
        (outcome = .idempotent → taken.appGeneration = x.ctx.snapshotApply.lastAppGeneration ∧
          taken.daemonGeneration = x.ctx.snapshotApply.lastDaemonGeneration) := by
  have hlandings : (answer E x c).1.landings = landing E x.ctx c ++ x.landings := rfl
  have heff := answer_effect x c
  rw [h] at heff
  generalize (answer E x c).1 = x' at heff hlandings
  cases heff with
  | applied request _ hstaging hexamine _ _ _ _ hland =>
    obtain ⟨hsize, hcrc, hdecode, -⟩ := Controller.examine_candidate hexamine
    exact ⟨hstaging, hsize, hcrc, _, _, hdecode, List.append_cancel_right (hlandings.symm.trans hland), nofun⟩
  | repeated snapshot _ hstaging hexamine hdecode _ _ _ _ _ hland =>
    obtain ⟨snapshot', hdecode', hsize, hcrc, -, hgenerations⟩ := Controller.examine_idempotent hexamine
    obtain rfl := Except.ok.inj (hdecode.symm.trans hdecode')
    exact ⟨hstaging, hsize, hcrc, _, _, hdecode, List.append_cancel_right (hlandings.symm.trans hland),
      fun _ => hgenerations⟩
  | adopted _ ht => exact absurd (ht.symm.trans htype) (by decide)
  | opened _ ht => exact absurd (ht.symm.trans htype) (by decide)
  | extended _ ht => exact absurd (ht.symm.trans htype) (by decide)
  | dropped _ _ _ _ _ _ hack => exact absurd ((hack rfl).symm.trans htype) (by decide)
  | kept _ _ hack => cases hack

/-! ## What is stored, what was accepted and what is in effect -/

/-- the COMMIT was accepted by every context, and what each accepted is, up to the generation of the daemon, what is stored -/
def AcceptedAs (q : Ticket) (stored : Snapshot) : Note (Tracked E) → Prop
  | .handled c contexts => c.type = .snapshotCommit ∧ c.ticket = q ∧ FannedOut c contexts ∧
    ∀ p ∈ contexts.entries, ∃ l ∈ landing E p.2.ext.ctx c,
      stored = { l.snapshot with daemonGeneration := stored.daemonGeneration }
  | _ => False

/-- the COMMIT was accepted by every context, and by some context with a snapshot of the route -/
def AcceptedFor (q : Ticket) (route : Bytes) : Note (Tracked E) → Prop
  | .handled c contexts => c.type = .snapshotCommit ∧ c.ticket = q ∧ FannedOut c contexts ∧
    ∃ p ∈ contexts.entries, ∃ l ∈ landing E p.2.ext.ctx c, l.snapshot.deviceKeyHash = route
  | _ => False

/-- the COMMIT was accepted by every context, and in some context a new snapshot of the route took effect -/
def AppliedFor (q : Ticket) (route : Bytes) : Note (Tracked E) → Prop
  | .handled c contexts => c.type = .snapshotCommit ∧ c.ticket = q ∧ FannedOut c contexts ∧
    ∃ p ∈ contexts.entries, ∃ l ∈ landing E p.2.ext.ctx c, l.outcome = .applied ∧ l.snapshot.deviceKeyHash = route
  | _ => False

instance decidableAppliedFor (q : Ticket) (route : Bytes) : (n : Note (Tracked E)) → Decidable (AppliedFor q route n)
  | .handled c contexts => inferInstanceAs (Decidable (c.type = .snapshotCommit ∧ c.ticket = q ∧ FannedOut c contexts ∧
    ∃ p ∈ contexts.entries, ∃ l ∈ landing E p.2.ext.ctx c, l.outcome = .applied ∧ l.snapshot.deviceKeyHash = route))
  | .registered _ _ => .isFalse id
  | .restarted => .isFalse id

theorem AppliedFor.accepted {q : Ticket} {route : Bytes} {n : Note (Tracked E)} (h : AppliedFor q route n) :
    AcceptedFor q route n := by
  cases n with
  | handled c contexts =>
    obtain ⟨htype, hq, hfan, p, hp, l, hl, -, hroute⟩ := h
    exact ⟨htype, hq, hfan, p, hp, l, hl, hroute⟩
  | registered id known => exact h.elim
  | restarted => exact h.elim

theorem AcceptedFor.handled {q : Ticket} {route : Bytes} {n : Note (Tracked E)} (h : AcceptedFor q route n) :
    ∃ c contexts, n = .handled c contexts ∧ c.type = .snapshotCommit ∧ c.ticket = q ∧ FannedOut c contexts ∧
      ∃ p ∈ contexts.entries, ∃ l ∈ landing E p.2.ext.ctx c, l.snapshot.deviceKeyHash = route := by
  cases n with
  | handled c contexts => exact ⟨c, contexts, rfl, h⟩
  | registered id known => exact h.elim
  | restarted => exact h.elim

/-- the snapshot that took effect last -/
def Tracked.inEffect (x : Tracked E) : Option Snapshot :=
  (x.landings.find? fun l => l.outcome = .applied).map Landing.snapshot

/-- the COMMIT was accepted by every context, and what it leaves in effect in each is, up to the generation of the daemon, what
is stored -/
def InEffectAs (q : Ticket) (stored : Snapshot) : Note (Tracked E) → Prop
  | .handled c contexts => c.type = .snapshotCommit ∧ c.ticket = q ∧ FannedOut c contexts ∧
    ∀ p ∈ contexts.entries, ∃ snapshot ∈ (answer E p.2.ext c).1.inEffect,
      stored = { snapshot with daemonGeneration := stored.daemonGeneration }
  | _ => False

instance decidableInEffectAs (q : Ticket) (stored : Snapshot) : (n : Note (Tracked E)) → Decidable (InEffectAs q stored n)
  | .handled c contexts => inferInstanceAs (Decidable (c.type = .snapshotCommit ∧ c.ticket = q ∧ FannedOut c contexts ∧
    ∀ p ∈ contexts.entries, ∃ snapshot ∈ (answer E p.2.ext c).1.inEffect,
      stored = { snapshot with daemonGeneration := stored.daemonGeneration }))
  | .registered _ _ => .isFalse id
  | .restarted => .isFalse id

/-- if the generations a context applied last are those of the snapshot it is staging, that very snapshot is in effect -/
def Tracked.Distinct (x : Tracked E) : Prop :=
  ∀ snapshot ∈ (decodeSnapshot x.ctx.snapshotApply.staged).toOption,
    snapshot.appGeneration = x.ctx.snapshotApply.lastAppGeneration →
    snapshot.daemonGeneration = x.ctx.snapshotApply.lastDaemonGeneration → x.inEffect = some snapshot

instance decidableDistinct (x : Tracked E) : Decidable x.Distinct :=
  inferInstanceAs (Decidable (∀ snapshot ∈ (decodeSnapshot x.ctx.snapshotApply.staged).toOption,
    snapshot.appGeneration = x.ctx.snapshotApply.lastAppGeneration →
    snapshot.daemonGeneration = x.ctx.snapshotApply.lastDaemonGeneration → x.inEffect = some snapshot))

/-- the COMMIT finds no context that has another snapshot in effect under the generations of the one it is staging -/
def NoClash (q : Ticket) : Note (Tracked E) → Prop
  | .handled c contexts => c.type = .snapshotCommit → c.ticket = q → ∀ p ∈ contexts.entries, p.2.ext.Distinct
  | _ => True

instance decidableNoClash (q : Ticket) : (n : Note (Tracked E)) → Decidable (NoClash q n)
  | .handled c contexts => inferInstanceAs (Decidable (c.type = .snapshotCommit → c.ticket = q →
    ∀ p ∈ contexts.entries, p.2.ext.Distinct))
  | .registered _ _ => .isTrue trivial
  | .restarted => .isTrue trivial

/-- **What a COMMIT that is accepted leaves in effect** is what was staged. -/
theorem Tracked.inEffect_commit {x : Tracked E} {c : Command} (htype : c.type = .snapshotCommit)
    (h : (answer E x c).2.accepted = true) (hdistinct : x.Distinct) :
    (answer E x c).1.inEffect = (decodeSnapshot x.ctx.snapshotApply.staged).toOption := by
  obtain ⟨-, -, -, taken, outcome, hdecode, hland, hrepeated⟩ := taken_commit htype h
  have hlandings : (answer E x c).1.landings = ⟨c.ticket, outcome, taken⟩ :: x.landings := by
    rw [← List.singleton_append, ← hland]
    rfl
  rw [hdecode, inEffect, hlandings, List.find?_cons]
  cases outcome with
  | applied => rfl
  | idempotent =>
    -- nothing is applied: what was in effect stays, and it is what was staged
    obtain ⟨happ, hdaemon⟩ := hrepeated rfl
    exact hdistinct taken (by rw [hdecode]; rfl) happ hdaemon

/-- the COMMIT found contexts that are staging no transfer of the daemon's own -/
def OfApp (log : List (Entry E)) (q : Ticket) : Note (Tracked E) → Prop
  | .handled c contexts => c.type = .snapshotCommit → c.ticket = q →
    ∀ p ∈ contexts.entries, ∀ r ∈ restores log, ¬ StagedFor p.2.ext r
  | _ => True

instance decidableOfApp (log : List (Entry E)) (q : Ticket) : (n : Note (Tracked E)) → Decidable (OfApp log q n)
  | .handled c contexts => inferInstanceAs (Decidable (c.type = .snapshotCommit → c.ticket = q →
    ∀ p ∈ contexts.entries, ∀ r ∈ restores log, ¬ StagedFor p.2.ext r))
  | .registered _ _ => .isTrue trivial
  | .restarted => .isTrue trivial

/-- the daemon holds a transfer open whose BEGIN was sent, and the COMMIT finds no context that is staging a transfer of the
daemon's own -/
structure Straight (s : Sys E) (q : Ticket) (offered : Option Offered) : Prop where
  begun : (offered.bind fun o => o.begun.ticket).isSome = true
  ofApp : ∀ n ∈ s.link.trace, OfApp s.log q n

/-- besides, the driver had every CHUNK the daemon was given, and the answer to the COMMIT was heard -/
structure Undisturbed (s : Sys E) (q : Ticket) (offered : Option Offered) : Prop extends Straight s q offered where
  chunks : ∀ o ∈ offered, ∀ c ∈ o.chunks, ∃ t ∈ c.ticket, ⟨.snapshotChunk, c.payload, t⟩ ∈ handledCommands s.link.trace
  answered : q ∉ s.log.filterMap Entry.unansweredTicket

theorem Entry.unanswered_mem {log : List (Entry E)} {q : Ticket} (h : .unanswered q ∈ log) :
    q ∈ log.filterMap Entry.unansweredTicket := List.mem_filterMap.mpr ⟨_, h, rfl⟩

/-- **What a context takes effect with.** -/
theorem Straight.stages {s : Sys E} (hs : Books s) {q : Ticket} {route : Bytes} {o : Offered}
    (hrelayed : Relayed s q route (some o)) (h : Straight s q (some o)) {newer older : List (Note (Tracked E))} {c : Command}
    {contexts : Table ℕ (DriverContext (Tracked E))} (htrace : s.link.trace = newer ++ .handled c contexts :: older)
    (htype : c.type = .snapshotCommit) (hq : c.ticket = q) {id : ℕ} {y : DriverContext (Tracked E)}
    (hy : contexts.get? id = some y) (hstaging : y.ext.ctx.snapshotApply.staging = true) :
    ∃ b, o.begun.ticket = some b ∧ StagesApp o b older y.ext := by
  obtain ⟨b, hb⟩ := Option.isSome_iff_exists.mp h.begun
  obtain ⟨p, hp, -⟩ := (hs.whole.sound.provenance.past newer c contexts older htrace id y hy).opened hstaging
  refine ⟨b, hb, staged_of_relayed hs hrelayed hb htrace htype hq hy ⟨hstaging, hp⟩ fun hown => ?_⟩
  have hmem : Note.handled c contexts ∈ s.link.trace := by
    rw [htrace]
    exact List.mem_append_right _ List.mem_cons_self
  exact h.ofApp _ hmem htype hq (id, y) ((Table.mem_entries_iff contexts id y).mpr hy) p hown ⟨hstaging, hp⟩

/-- what the daemon has put together and what a context has: if both are as one BEGIN declares, they are the same -/
theorem StagesApp.same {o : Offered} {b : Ticket} {older : List (Note (Tracked E))} {x : Tracked E} (h : StagesApp o b older x)
    (hsize : x.ctx.snapshotApply.staged.length = x.ctx.snapshotApply.metadata.totalSize.toNat) {snapshot : Snapshot}
    (hassembled : o.assembled = some snapshot) : decodeSnapshot x.ctx.snapshotApply.staged = .ok snapshot := by
  obtain ⟨begin, hbegin, hmeta⟩ := h.declared
  obtain ⟨bytes, hjoined, hlength, -, hdecode⟩ := (Offered.assembled_iff hbegin).mp hassembled
  have hsublist : (chunksSince b (handledCommands older)).Sublist o.payloads :=
    (h.sent.map Command.payload).trans o.sentChunks_payloads
  have hprefix := joined_sublist hsublist h.staged hjoined
  have hsame : x.ctx.snapshotApply.staged = bytes := by
    refine hprefix.eq_of_length ?_
    rw [hsize, hmeta, hlength]
    rfl
  rw [hsame]
  exact hdecode

/-- **What is stored was staged** by every context that the COMMIT has reached, and every one of them has accepted it. -/
theorem Books.stored_staged {s : Sys E} (hs : Books s) {q : Ticket} {stored : Snapshot} (hstored : .stored q stored ∈ s.log)
    (hstraight : ∀ route offered, .relayed q route offered ∈ s.log → Straight s q offered) :
    ∃ c contexts, Note.handled c contexts ∈ s.link.trace ∧ c.type = .snapshotCommit ∧ c.ticket = q ∧ FannedOut c contexts ∧
      ∃ snapshot, stored = { snapshot with daemonGeneration := stored.daemonGeneration } ∧
        ∀ p ∈ contexts.entries, (answer E p.2.ext c).2.accepted = true ∧
          decodeSnapshot p.2.ext.ctx.snapshotApply.staged = .ok snapshot := by
  obtain ⟨⟨route, o, snapshot, hentry, hassembled, hsame⟩, c, contexts, hn, htype, hq, hfan⟩ := hs.receipts.stored q stored hstored
  have hrelayed := hs.receipts.relayed q route (some o) hentry
  refine ⟨c, contexts, hn, htype, hq, hfan, snapshot, hsame, fun ⟨id, y⟩ hmem => ?_⟩
  have hy := (Table.mem_entries_iff contexts id y).mp hmem
  obtain ⟨newer, older, htrace⟩ := List.append_of_mem hn
  have haccepted := Link.applySnapshotCommand_accepted (applier E) contexts c hfan id y hy
  obtain ⟨hstaging, hsize, -⟩ := taken_commit htype haccepted
  obtain ⟨b, -, hstages⟩ := (hstraight route _ hentry).stages hs hrelayed htrace htype hq hy hstaging
  exact ⟨haccepted, hstages.same hsize hassembled⟩

/-- **What is stored was accepted.** -/
theorem Books.acceptedAs {s : Sys E} (hs : Books s) {q : Ticket} {stored : Snapshot} (hstored : .stored q stored ∈ s.log)
    (hstraight : ∀ route offered, .relayed q route offered ∈ s.log → Straight s q offered) :
    ∃ n ∈ s.link.trace, AcceptedAs q stored n := by
  obtain ⟨c, contexts, hn, htype, hq, hfan, snapshot, hsame, hstaged⟩ := hs.stored_staged hstored hstraight
  refine ⟨_, hn, htype, hq, hfan, fun p hp => ?_⟩
  obtain ⟨haccepted, hdecode⟩ := hstaged p hp
  obtain ⟨-, -, -, taken, outcome, hdecode', hland, -⟩ := taken_commit htype haccepted
  obtain rfl := Except.ok.inj (hdecode.symm.trans hdecode')
  exact ⟨⟨c.ticket, outcome, snapshot⟩, hland ▸ List.mem_cons_self, hsame⟩

/-- **What is stored is in effect**, where no context takes it for what it has. -/
theorem Books.inEffectAs {s : Sys E} (hs : Books s) {q : Ticket} {stored : Snapshot} (hstored : .stored q stored ∈ s.log)
    (hstraight : ∀ route offered, .relayed q route offered ∈ s.log → Straight s q offered)
    (hclash : ∀ n ∈ s.link.trace, NoClash q n) : ∃ n ∈ s.link.trace, InEffectAs q stored n := by
  obtain ⟨c, contexts, hn, htype, hq, hfan, snapshot, hsame, hstaged⟩ := hs.stored_staged hstored hstraight
  refine ⟨_, hn, htype, hq, hfan, fun p hp => ⟨snapshot, ?_, hsame⟩⟩
  obtain ⟨haccepted, hdecode⟩ := hstaged p hp
  rw [Tracked.inEffect_commit htype haccepted (hclash _ hn htype hq p hp), hdecode]
  rfl

/-- the context has all that the daemon was given -/
theorem StagesApp.whole {s : Sys E} (hs : Books s) {o : Offered} {b q : Ticket} (hconveyed : Conveyed s o b q)
    {newer older : List (Note (Tracked E))} {c : Command} {contexts : Table ℕ (DriverContext (Tracked E))}
    (htrace : s.link.trace = newer ++ .handled c contexts :: older) (htype : c.type = .snapshotCommit) (hq : c.ticket = q)
    {x : Tracked E} (h : StagesApp o b older x)
    (hchunks : ∀ d ∈ o.chunks, ∃ t ∈ d.ticket, ⟨.snapshotChunk, d.payload, t⟩ ∈ handledCommands s.link.trace) :
    joined o.payloads = some x.ctx.snapshotApply.staged := by
  obtain ⟨-, hafter⟩ := hs.whole.sound.handled_before htrace
  have hhandled : ∀ d ∈ o.sentChunks, d ∈ handledCommands older := by
    intro d hd
    obtain ⟨offer, hoffer, hsent⟩ := List.mem_filterMap.mp hd
    obtain ⟨t, ht, rfl⟩ := Option.map_eq_some_iff.mp hsent
    obtain ⟨t', ht', hmem⟩ := hchunks offer hoffer
    obtain rfl := Option.some.inj (ht.symm.trans ht')
    have hlt : t.lt q := by
      rw [hconveyed.chunks] at hd
      exact (of_decide_eq_true (List.mem_filter.mp hd).2).2.2.1
    rw [htrace, handledCommands, List.filterMap_append] at hmem
    rcases List.mem_append.mp hmem with hnew | hold
    · exact (Ticket.lt_irrefl_le hlt (hq ▸ (hafter _ hnew).1)).elim
    · rcases List.mem_cons.mp hold with heq | hold
      · rw [← heq] at htype
        cases htype
      · exact hold
  have hsame : (handledCommands older).filter (fun d => d.type = .snapshotChunk ∧ b.le d.ticket) = o.sentChunks := by
    refine h.sent.eq_of_length_le (List.subperm_of_subset ?_ fun d hd => ?_).length_le
    · refine hconveyed.ordered.imp fun hlt heq => ?_
      rw [heq] at hlt
      exact Ticket.lt_irrefl_le hlt (Ticket.le_refl _)
    · have hbetween := hd
      rw [hconveyed.chunks] at hbetween
      obtain ⟨hdtype, hle, -, -⟩ := of_decide_eq_true (List.mem_filter.mp hbetween).2
      exact List.mem_filter.mpr ⟨hhandled d hd, decide_eq_true ⟨hdtype, hle⟩⟩
  have hall : o.sentChunks.map Command.payload = o.payloads := by
    refine Offered.sentChunks_all fun d hd => ?_
    obtain ⟨t, ht, -⟩ := hchunks d hd
    exact Option.isSome_iff_exists.mpr ⟨t, ht⟩
  have hstaged := h.staged
  rw [chunksSince, hsame, hall] at hstaged
  exact hstaged

/-- **What was accepted is stored.** -/
theorem Books.storedFor {s : Sys E} (hs : Books s) {q : Ticket} {route : Bytes} {offered : Option Offered}
    (hentry : .relayed q route offered ∈ s.log) (h : Undisturbed s q offered) {n : Note (Tracked E)}
    (hn : n ∈ s.link.trace) (hrouted : AcceptedFor q route n) : ∃ stored, .stored q stored ∈ s.log := by
  obtain ⟨c, contexts, rfl, htype, hq, hfan, ⟨id, y⟩, hmem, l, hl, hroute⟩ := hrouted.handled
  have hy := (Table.mem_entries_iff contexts id y).mp hmem
  have hrelayed := hs.receipts.relayed q route offered hentry
  obtain ⟨o, rfl⟩ : ∃ o, offered = some o := by
    cases offered with
    | none => cases h.begun
    | some o => exact ⟨o, rfl⟩
  obtain ⟨newer, older, htrace⟩ := List.append_of_mem hn
  have haccepted := Link.applySnapshotCommand_accepted (applier E) contexts c hfan id y hy
  obtain ⟨hstaging, hsize, hcrc, taken, outcome, hdecode, hland, -⟩ := taken_commit htype haccepted
  rw [hland] at hl
  obtain rfl := List.mem_singleton.mp hl
  obtain ⟨b, hb, hstages⟩ := h.toStraight.stages hs hrelayed htrace htype hq hy hstaging
  have hjoined := hstages.whole hs (hrelayed.conveyed o b rfl hb) htrace htype hq (h.chunks o rfl)
  cases hrelayed.ended with
  | unanswered hmissed => exact absurd (Entry.unanswered_mem hmissed) h.answered
  | refused d others hd hdq hrefused =>
    -- the COMMIT under a ticket is handled once
    have hdtype : d.type = .snapshotCommit :=
      hrelayed.alone d (hs.whole.sound.handled_sent (Link.mem_handledCommands.mpr ⟨others, hd⟩)) hdq
    have hfollows : ¬ Follows SnapshotCommandType.snapshotCommit .snapshotCommit := by simp [Follows]
    obtain ⟨rfl, rfl⟩ := hs.whole.sound.handled_unique hn hd (hq.trans hdq.symm) (by rw [htype, hdtype]; exact hfollows)
      (by rw [htype, hdtype]; exact hfollows)
    exact absurd hfan hrefused
  | kept hkept =>
    obtain ⟨begin, hbegin, hmeta⟩ := hstages.declared
    refine hkept o taken rfl ((Offered.assembled_iff hbegin).mpr ⟨_, hjoined, ?_, ?_, hdecode⟩) hroute
    · rw [hsize, hmeta]
      rfl
    · rw [hcrc, hmeta]
      rfl

/-- **What is stored is what was accepted.** In every run, whatever becomes of sends, answers and connections. A snapshot stored
for a COMMIT of the App is the one that every context accepted, if the BEGIN of the daemon's copy was sent and no context was
staging a transfer of the daemon's own. A COMMIT that every context accepted, with a snapshot of the route, is stored, if besides
every CHUNK reached the driver and the answer was heard. -/
theorem stored_as_accepted (config : Config) (bootId : ℕ) (store : SnapshotStore) (adapter cache : Option DeviceIdentity)
    (ops : List (Op E)) (q : Ticket) :
    let s : Sys E := run (boot config bootId store adapter cache) ops
    ((∀ route offered, .relayed q route offered ∈ s.log → Straight s q offered) →
      ∀ stored, .stored q stored ∈ s.log → ∃ n ∈ s.link.trace, AcceptedAs q stored n) ∧
    ∀ route offered, .relayed q route offered ∈ s.log → Undisturbed s q offered →
      (∃ n ∈ s.link.trace, AcceptedFor q route n) → ∃ stored, .stored q stored ∈ s.log := by
  intro s
  have hs : Books s := run_books (boot_books config bootId store adapter cache) ops
  refine ⟨fun hstraight stored hstored => hs.acceptedAs hstored hstraight, fun route offered hentry h hrouted => ?_⟩
  obtain ⟨n, hn, hrouted⟩ := hrouted
  exact hs.storedFor hentry h hn hrouted

/-- **What is stored is in effect.** In every run, whatever becomes of sends, answers and connections. A snapshot stored for a
COMMIT of the App is what that COMMIT left in effect in every context, if the BEGIN of the daemon's copy was sent, no context was
staging a transfer of the daemon's own, and none had another snapshot in effect under the same generations. A COMMIT that the
driver has applied for the route is stored, if the BEGIN of the daemon's copy and every CHUNK since were sent and handled, no
context was staging a transfer of the daemon's own, and the answer was heard. -/
theorem stored_as_applied (config : Config) (bootId : ℕ) (store : SnapshotStore) (adapter cache : Option DeviceIdentity)
    (ops : List (Op E)) (q : Ticket) :
    let s : Sys E := run (boot config bootId store adapter cache) ops
    ((∀ route offered, .relayed q route offered ∈ s.log → Straight s q offered) → (∀ n ∈ s.link.trace, NoClash q n) →
      ∀ stored, .stored q stored ∈ s.log → ∃ n ∈ s.link.trace, InEffectAs q stored n) ∧
    ∀ route offered, .relayed q route offered ∈ s.log → Undisturbed s q offered →
      (∃ n ∈ s.link.trace, AppliedFor q route n) → ∃ stored, .stored q stored ∈ s.log := by
  intro s
  have hs : Books s := run_books (boot_books config bootId store adapter cache) ops
  refine ⟨fun hstraight hclash stored hstored => hs.inEffectAs hstored hstraight hclash,
    fun route offered hentry h happlied => ?_⟩
  obtain ⟨n, hn, happlied⟩ := happlied
  exact hs.storedFor hentry h hn happlied.accepted

/-! ## A transfer of the App -/

/-- a frame of the App, with a driver that handles a command at every turn -/
def appFrame (type : SnapshotCommandType) (payload : Bytes) : Op gainEngine :=
  .runOnce (List.replicate 12 { before := [.handle .sent] }) [.snapshotCommand type payload]

/-- a frame of the App that cannot be sent -/
def unsentFrame (type : SnapshotCommandType) (payload : Bytes) : Op gainEngine :=
  .runOnce [{}, {}, { ok := false }] [.snapshotCommand type payload]

def bytesOf (snapshot : Snapshot) : Bytes := (encodeSnapshot snapshot).toOption.getD []

def appBegin (snapshot : Snapshot) : Bytes := beginBytes (beginOf snapshot (bytesOf snapshot))

def appChunk (snapshot : Snapshot) : Bytes := chunkBytes ⟨0, bytesOf snapshot⟩

def appCommit (snapshot : Snapshot) : Bytes := commitBytes ⟨snapshot.appGeneration, snapshot.daemonGeneration⟩

/-- The speaker is announced, and the App sends a snapshot of it. -/
def appTransfer : List (Op gainEngine) :=
  speakerContext ++ [promptPass, appFrame .snapshotBegin (appBegin (speakerSnapshot 1)),
    appFrame .snapshotChunk (appChunk (speakerSnapshot 1)), appFrame .snapshotCommit (appCommit (speakerSnapshot 1))]

/-- what was relayed of a COMMIT -/
def Entry.relayedCommit : Entry E → Option (Ticket × Bytes × Option Offered)
  | .relayed q route offered => some (q, route, offered)
  | _ => none

theorem Entry.relayed_iff {log : List (Entry E)} {q : Ticket} {route : Bytes} {offered : Option Offered} :
    .relayed q route offered ∈ log ↔ (q, route, offered) ∈ log.filterMap Entry.relayedCommit := by
  rw [List.mem_filterMap]
  constructor
  · intro h
    exact ⟨_, h, rfl⟩
  · rintro ⟨e, he, heq⟩
    cases e with
    | relayed q' route' offered' =>
      obtain ⟨rfl, rfl, rfl⟩ : q' = q ∧ route' = route ∧ offered' = offered := by simpa [relayedCommit] using heq
      exact he
    | _ => cases heq

/-- what was stored for a COMMIT -/
def Entry.storedSnapshot : Entry E → Option (Ticket × Snapshot)
  | .stored q snapshot => some (q, snapshot)
  | _ => none

theorem Entry.stored_iff {log : List (Entry E)} {q : Ticket} {snapshot : Snapshot} :
    .stored q snapshot ∈ log ↔ (q, snapshot) ∈ log.filterMap Entry.storedSnapshot := by
  rw [List.mem_filterMap]
  constructor
  · intro h
    exact ⟨_, h, rfl⟩
  · rintro ⟨e, he, heq⟩
    cases e with
    | stored q' snapshot' =>
      obtain ⟨rfl, rfl⟩ : q' = q ∧ snapshot' = snapshot := by simpa [storedSnapshot] using heq
      exact he
    | _ => cases heq

/-- the BEGIN and the CHUNK of the transfer, as they were sent -/
def offeredSpeaker : Offered :=
  ⟨⟨appBegin (speakerSnapshot 1), some ⟨0, 2⟩⟩, [⟨appChunk (speakerSnapshot 1), some ⟨0, 3⟩⟩]⟩

def transferred : Sys gainEngine := run (boot { appReportedRoutes := false } 7 {} (some speaker) none) appTransfer

/-- how the transfer goes: what is relayed, stored and applied for its COMMIT -/
theorem transferred_run : transferred.log.filterMap Entry.relayedCommit =
      [(⟨0, 4⟩, (speakerSnapshot 1).deviceKeyHash, some offeredSpeaker)] ∧
    (⟨0, 4⟩, speakerSnapshot 2) ∈ transferred.log.filterMap Entry.storedSnapshot ∧
    (∀ n ∈ transferred.link.trace, OfApp transferred.log ⟨0, 4⟩ n) ∧ (∀ n ∈ transferred.link.trace, NoClash ⟨0, 4⟩ n) ∧
    (∀ c ∈ offeredSpeaker.chunks, ∃ t ∈ c.ticket, ⟨.snapshotChunk, c.payload, t⟩ ∈ handledCommands transferred.link.trace) ∧
    ⟨0, 4⟩ ∉ transferred.log.filterMap Entry.unansweredTicket ∧
    ∃ n ∈ transferred.link.trace, AppliedFor ⟨0, 4⟩ (speakerSnapshot 1).deviceKeyHash n := by decide +kernel

theorem transferred_undisturbed : Undisturbed transferred ⟨0, 4⟩ (some offeredSpeaker) := by
  obtain ⟨-, -, hown, -, hchunks, hanswered, -⟩ := transferred_run
  refine ⟨⟨rfl, hown⟩, fun o ho => ?_, hanswered⟩
  obtain rfl := Option.some.inj ho
  exact hchunks

/-- nothing else was relayed under the ticket -/
theorem transferred_straight (route : Bytes) (offered : Option Offered)
    (h : .relayed ⟨0, 4⟩ route offered ∈ transferred.log) : Straight transferred ⟨0, 4⟩ offered := by
  have hmem := Entry.relayed_iff.mp h
  rw [transferred_run.1] at hmem
  obtain ⟨-, hrest⟩ := Prod.mk.inj (List.mem_singleton.mp hmem)
  rw [(Prod.mk.inj hrest).2]
  exact transferred_undisturbed.toStraight

theorem transferred_relayed :
    .relayed ⟨0, 4⟩ (speakerSnapshot 1).deviceKeyHash (some offeredSpeaker) ∈ transferred.log := by
  rw [Entry.relayed_iff, transferred_run.1]
  exact List.mem_singleton_self _

/-- the snapshot the App has sent is accepted and stored -/
theorem stored_as_accepted_speaker : (∃ n ∈ transferred.link.trace, AcceptedAs ⟨0, 4⟩ (speakerSnapshot 2) n) ∧
    ∃ stored, .stored ⟨0, 4⟩ stored ∈ transferred.log := by
  obtain ⟨hforward, hbackward⟩ := stored_as_accepted (E := gainEngine) { appReportedRoutes := false } 7 {} (some speaker) none
    appTransfer ⟨0, 4⟩
  obtain ⟨-, hstored, -, -, -, -, n, hn, happlied⟩ := transferred_run
  exact ⟨hforward transferred_straight _ (Entry.stored_iff.mpr hstored),
    hbackward _ _ transferred_relayed transferred_undisturbed ⟨n, hn, happlied.accepted⟩⟩

/-- the snapshot the App has sent takes effect and is stored -/
theorem stored_as_applied_speaker : (∃ n ∈ transferred.link.trace, InEffectAs ⟨0, 4⟩ (speakerSnapshot 2) n) ∧
    ∃ stored, .stored ⟨0, 4⟩ stored ∈ transferred.log := by
  obtain ⟨hforward, hbackward⟩ := stored_as_applied (E := gainEngine) { appReportedRoutes := false } 7 {} (some speaker) none
    appTransfer ⟨0, 4⟩
  obtain ⟨-, hstored, -, hclash, -, -, happlied⟩ := transferred_run
  exact ⟨hforward transferred_straight hclash _ (Entry.stored_iff.mpr hstored),
    hbackward _ _ transferred_relayed transferred_undisturbed happlied⟩

/-- Another snapshot of the speaker, whose BEGIN and CHUNK could not be sent. The driver applies the one it had before, and
the daemon stores the other. -/
theorem unsent_copy_is_stored :
    let s : Sys gainEngine := run (boot { appReportedRoutes := false } 7 {} (some speaker) none)
      (speakerContext ++ [promptPass, appFrame .snapshotBegin (appBegin (speakerSnapshot 1)),
        appFrame .snapshotChunk (appChunk (speakerSnapshot 1)),
        unsentFrame .snapshotBegin (appBegin { speakerSnapshot 1 with appGeneration := 6 }),
        unsentFrame .snapshotChunk (appChunk { speakerSnapshot 1 with appGeneration := 6 }),
        appFrame .snapshotCommit (appCommit { speakerSnapshot 1 with appGeneration := 6 })])
    (⟨0, 6⟩, { speakerSnapshot 2 with appGeneration := 6 }) ∈ s.log.filterMap Entry.storedSnapshot ∧
      (∃ n ∈ s.link.trace, InEffectAs ⟨0, 6⟩ (speakerSnapshot 2) n) ∧
      ¬ ∃ n ∈ s.link.trace, InEffectAs ⟨0, 6⟩ { speakerSnapshot 2 with appGeneration := 6 } n := by
  decide +kernel

/-- A second transfer under the generations of the first, with the switch off. It is accepted and stored; the driver goes on with
the switch on. -/
theorem repeated_pair_is_stored :
    let muted : UInt64 → Snapshot := fun daemonGeneration => { speakerSnapshot daemonGeneration with masterEnabled := false }
    let s : Sys gainEngine := run (boot { appReportedRoutes := false } 7 {} (some speaker) none)
      (appTransfer ++ [appFrame .snapshotBegin (appBegin (muted 1)), appFrame .snapshotChunk (appChunk (muted 1)),
        appFrame .snapshotCommit (appCommit (muted 1))])
    (⟨0, 7⟩, muted 3) ∈ s.log.filterMap Entry.storedSnapshot ∧
      (∃ n ∈ s.link.trace, InEffectAs ⟨0, 7⟩ (speakerSnapshot 1) n) ∧
      ¬ ∃ n ∈ s.link.trace, InEffectAs ⟨0, 7⟩ (muted 3) n := by
  decide +kernel

end ViperFx.System
