/-
What a transfer of the daemon leaves behind: `ApplySnapshotToDriver` of `daemon/DaemonRuntime.cpp` against the staging area
of every context, over every run.

A context that is staging owes it to a BEGIN it took, and no COMMIT of that transfer was handled since. So a transfer leaves a
context staging exactly where it stops between the two: it never sends an ABORT. It stops there when a send fails, when the
answer to its BEGIN is late or lost, and when one context takes the BEGIN and another refuses it.

A COMMIT is refused as stale when the pair of generations a context holds is greater than that of the snapshot. The pair is
the greatest the context has applied, on whatever route, so a route's own newest snapshot can be behind it.

Results:
  · no_transfer_left_open : in every run, a transfer that none of these happens to leaves no context staging, now and at every
                            later command
  · joined_before_begin   : a context that joins before the BEGIN is handled leaves the other one staging
  · restore_not_stale_iff : in every run, a restore is refused as stale exactly by the contexts that have accepted a greater
                            pair before
  · headset_is_stale      : the snapshot of a route, refused because another route's was newer
-/
import ViperFx.System.Restore

namespace ViperFx.System

open ViperFx.Core ViperFx.Protocol ViperFx.Daemon ViperFx.Channel ViperFx.Driver

variable {E : Engine}

/-! ## Interrupted transfers -/

/-- the ticket of a send that failed -/
def Entry.unsentTicket : Entry E → Option Ticket
  | .unsent q => some q
  | _ => none

/-- the ticket of an answer that did not come in time -/
def Entry.unansweredTicket : Entry E → Option Ticket
  | .unanswered q => some q
  | _ => none

/-- a BEGIN of the transfer that one context took was taken by all -/
def Together (q : Ticket) : Note (Tracked E) → Prop
  | .handled c others => c.type = .snapshotBegin → c.ticket = q →
    ∀ p ∈ others.entries, (answer E p.2.ext c).2.accepted = true → FannedOut c others
  | _ => True

instance (c : Command) (others : Table ℕ (DriverContext (Tracked E))) : Decidable (FannedOut c others) :=
  inferInstanceAs (Decidable ((Link.applySnapshotCommand (applier E) others c).2.accepted = true))

instance decidableTogether (q : Ticket) : (n : Note (Tracked E)) → Decidable (Together q n)
  | .handled c others => inferInstanceAs (Decidable (c.type = .snapshotBegin → c.ticket = q →
    ∀ p ∈ others.entries, (answer E p.2.ext c).2.accepted = true → FannedOut c others))
  | .registered _ _ => .isTrue trivial
  | .restarted => .isTrue trivial

/-- nothing stopped the transfer between its BEGIN and its COMMIT: no send failed, an answer was missed only after the COMMIT
was out, and the contexts took the BEGIN together -/
structure Uninterrupted (s : Sys E) (q : Ticket) : Prop where
  sends : q ∉ s.log.filterMap Entry.unsentTicket
  answered : q ∈ s.log.filterMap Entry.unansweredTicket → ∃ d ∈ s.link.sent, d.ticket = q ∧ d.type = .snapshotCommit
  together : ∀ n ∈ s.link.trace, Together q n

/-- a context is staging because of a transfer -/
def StagedFor (x : Tracked E) (q : Ticket) : Prop := x.ctx.snapshotApply.staging = true ∧ x.stagedBy = some q

instance (x : Tracked E) (q : Ticket) : Decidable (StagedFor x q) :=
  inferInstanceAs (Decidable (x.ctx.snapshotApply.staging = true ∧ x.stagedBy = some q))

/-! ## What is left -/

/-- a transfer is begun once -/
theorem begin_unique {next : Ticket} {l : Link (Tracked E)} (h : Sound next l) {c d : Command}
    {contexts others : Table ℕ (DriverContext (Tracked E))} (hc : Note.handled c contexts ∈ l.trace)
    (hd : Note.handled d others ∈ l.trace) (hctype : c.type = .snapshotBegin) (hdtype : d.type = .snapshotBegin)
    (hticket : c.ticket = d.ticket) : c = d ∧ contexts = others := by
  refine h.handled_unique hc hd hticket ?_ ?_
  · rw [hdtype]
    rintro ⟨-, hf | hf⟩ <;> cases hf
  · rw [hctype]
    rintro ⟨-, hf | hf⟩ <;> cases hf

/-- where every command of an uninterrupted transfer was handled, no context is staging for it -/
theorem not_opened {s : Sys E} (h : Whole s) {q : Ticket} {snapshot : Snapshot} (hopened : .opened q snapshot ∈ s.log)
    (hsmooth : Uninterrupted s q) (newer : List (Note (Tracked E))) {older : List (Note (Tracked E))} (htrace : s.link.trace = newer ++ older)
    (hhandled : ∀ d ∈ s.link.sent, d.ticket = q → d ∈ handledCommands older) {x : Tracked E} (ho : OpenedBy older x q) :
    False := by
  obtain ⟨c, contexts, b, hn, htype, hq, -, -, id, y, hy, haccepted⟩ := ho.begun
  have hn : Note.handled c contexts ∈ s.link.trace := by
    rw [htrace]
    exact List.mem_append_right _ hn
  have hcommit : ∀ d ∈ s.link.sent, d.ticket = q → d.type ≠ .snapshotCommit := by
    intro d hd hdq
    exact ho.uncommitted d (hhandled d hd hdq) hdq
  obtain ⟨-, -, hended⟩ := h.accounts.openings q snapshot hopened
  cases hended with
  | committed d hd hdq hdtype => exact hcommit d hd hdq hdtype
  | unsent hlog => exact hsmooth.sends (List.mem_filterMap.mpr ⟨_, hlog, rfl⟩)
  | unanswered hlog =>
    obtain ⟨d, hd, hdq, hdtype⟩ := hsmooth.answered (List.mem_filterMap.mpr ⟨_, hlog, rfl⟩)
    exact hcommit d hd hdq hdtype
  | refused d others hd hdtype hdq hrefused =>
    obtain ⟨rfl, rfl⟩ := begin_unique h.sound hn hd htype hdtype (hq.trans hdq.symm)
    exact hrefused (hsmooth.together _ hn htype hq (id, y) ((Table.mem_entries_iff contexts id y).mpr hy) haccepted)
  | nothing hnone => exact hnone c (h.sound.handled_sent (Link.mem_handledCommands.mpr ⟨contexts, hn⟩)) hq

/-- **No transfer is left open.** In every run, take a transfer that `ApplySnapshotToDriver` has made and that was not
interrupted. Once the driver has handled all that was sent for it, no registered context is staging because of it, and none was
at any command the driver handled from then on: so no later BEGIN is refused on its account. -/
theorem no_transfer_left_open (config : Config) (bootId : ℕ) (store : SnapshotStore) (adapter cache : Option DeviceIdentity)
    (ops : List (Op E)) (q : Ticket) (snapshot : Snapshot)
    (hopened : Entry.opened q snapshot ∈ (run (boot config bootId store adapter cache) ops : Sys E).log)
    (hsmooth : Uninterrupted (run (boot config bootId store adapter cache) ops : Sys E) q) :
    let s : Sys E := run (boot config bootId store adapter cache) ops
    ((∀ d ∈ s.link.sent, d.ticket = q → d ∈ handledCommands s.link.trace) →
      ∀ id x, s.link.context id = some x → ¬ StagedFor x q) ∧
    ∀ newer c contexts older, s.link.trace = newer ++ .handled c contexts :: older →
      (∀ d ∈ s.link.sent, d.ticket = q → d ∈ handledCommands older) →
      ∀ id y, contexts.get? id = some y → ¬ StagedFor y.ext q := by
  intro s
  have hwhole : Whole s := run_whole (boot_whole config bootId store adapter cache) ops
  refine ⟨fun hhandled id x hx hstaged => ?_, fun newer c contexts older htrace hhandled id y hy hstaged => ?_⟩
  · obtain ⟨q', hq', ho⟩ := (hwhole.sound.provenance.now id x hx).opened hstaged.1
    obtain rfl := Option.some.inj (hstaged.2.symm.trans hq')
    exact not_opened hwhole hopened hsmooth [] rfl hhandled ho
  · obtain ⟨q', hq', ho⟩ := (hwhole.sound.provenance.past newer c contexts older htrace id y hy).opened hstaged.1
    obtain rfl := Option.some.inj (hstaged.2.symm.trans hq')
    refine not_opened hwhole hopened hsmooth (newer ++ [.handled c contexts]) ?_ hhandled ho
    rw [htrace, List.append_assoc]
    rfl

/-- what a transfer was about -/
def Entry.openedTransfer : Entry E → Option (Ticket × Snapshot)
  | .opened q snapshot => some (q, snapshot)
  | _ => none

theorem Entry.openedTransfer_inv {log : List (Entry E)} {q : Ticket} {snapshot : Snapshot}
    (h : (q, snapshot) ∈ log.filterMap Entry.openedTransfer) : Entry.opened q snapshot ∈ log := by
  obtain ⟨e, he, heq⟩ := List.mem_filterMap.mp h
  cases e with
  | opened q' snapshot' =>
    obtain ⟨rfl, rfl⟩ := Prod.mk.inj (Option.some.inj heq)
    exact he
  | _ => cases heq

/-- a transfer of the snapshot was made, nothing went wrong with it, and the driver has handled all of it -/
def Settled (s : Sys E) (q : Ticket) (snapshot : Snapshot) : Prop :=
  (q, snapshot) ∈ s.log.filterMap Entry.openedTransfer ∧ q ∉ s.log.filterMap Entry.unsentTicket ∧
    q ∉ s.log.filterMap Entry.unansweredTicket ∧ (∀ n ∈ s.link.trace, Together q n) ∧
    ∀ d ∈ s.link.sent, d.ticket = q → d ∈ handledCommands s.link.trace

instance (s : Sys E) (q : Ticket) (snapshot : Snapshot) : Decidable (Settled s q snapshot) :=
  inferInstanceAs (Decidable (_ ∧ _ ∧ _ ∧ _ ∧ _))

/-- the restore of the speaker leaves nothing open -/
theorem no_transfer_left_open_speaker :
    ∃ x, (run (boot { appReportedRoutes := false } 7 speakerStore (some speaker) none)
      (speakerContext ++ [speakerPass]) : Sys gainEngine).link.context 1 = some x ∧ ¬ StagedFor x ⟨0, 2⟩ := by
  have hrun : Settled (run (boot { appReportedRoutes := false } 7 speakerStore (some speaker) none)
        (speakerContext ++ [speakerPass]) : Sys gainEngine) ⟨0, 2⟩ (speakerSnapshot 2) ∧
      ((run (boot { appReportedRoutes := false } 7 speakerStore (some speaker) none)
        (speakerContext ++ [speakerPass]) : Sys gainEngine).link.context 1).isSome = true := by decide +kernel
  obtain ⟨⟨hopened, hsends, hanswered, htogether, hhandled⟩, hsome⟩ := hrun
  obtain ⟨x, hx⟩ := Option.isSome_iff_exists.mp hsome
  exact ⟨x, hx, (no_transfer_left_open _ _ _ _ _ _ _ _ (Entry.openedTransfer_inv hopened)
    ⟨hsends, fun hmem => absurd hmem hanswered, htogether⟩).1 hhandled 1 x hx⟩

/-- the pass of the speaker, with a second context that registers just before the driver handles the BEGIN -/
def joinedPass : Op gainEngine :=
  .runOnce (List.map (fun before => { before })
    [[], [], [], [], [.handle .sent], [], [], [], [.register 7 8, .handle .sent], [], [], []]) []

/-- the second context has no route yet and refuses the BEGIN that the first one has taken: the transfer ends there -/
theorem joined_before_begin :
    let s : Sys gainEngine :=
      run (boot { appReportedRoutes := false } 7 speakerStore (some speaker) none) (speakerContext ++ [joinedPass])
    (⟨0, 2⟩, speakerSnapshot 2) ∈ s.log.filterMap Entry.openedTransfer ∧
      (∀ d ∈ s.link.sent, d.ticket = ⟨0, 2⟩ → d ∈ handledCommands s.link.trace) ∧
      (s.link.context 1).any (fun x => decide (StagedFor x ⟨0, 2⟩)) = true := by
  decide +kernel

/-! ## Stale restores -/

/-- a context has accepted a greater pair of generations than that of the snapshot -/
def Outrun (x : Tracked E) (snapshot : Snapshot) : Prop :=
  ∃ e ∈ x.landings, Controller.olderThan snapshot.appGeneration snapshot.daemonGeneration e.snapshot.appGeneration
    e.snapshot.daemonGeneration

instance (x : Tracked E) (snapshot : Snapshot) : Decidable (Outrun x snapshot) :=
  inferInstanceAs (Decidable (∃ e ∈ x.landings, Controller.olderThan snapshot.appGeneration snapshot.daemonGeneration
    e.snapshot.appGeneration e.snapshot.daemonGeneration))

/-- the pair of a context is greater than that of a snapshot exactly when one it has accepted is -/
theorem olderThan_last_iff {id : ℕ} {trace : List (Note (Tracked E))} {x : Tracked E} (h : Provenance id trace x)
    (h' : Standing id trace x) (snapshot : Snapshot) :
    Controller.olderThan snapshot.appGeneration snapshot.daemonGeneration x.ctx.snapshotApply.lastAppGeneration
      x.ctx.snapshotApply.lastDaemonGeneration ↔ Outrun x snapshot := by
  constructor
  · intro hold
    rcases h.newest with ⟨happ, hdaemon⟩ | ⟨e, he, -, happ, hdaemon⟩
    · rw [happ, hdaemon] at hold
      simp only [Controller.olderThan, UInt64.lt_iff_toNat_lt] at hold
      exact absurd hold (by simp)
    · refine ⟨e, he, ?_⟩
      rw [happ, hdaemon]
      exact hold
  · rintro ⟨e, he, hold⟩
    exact Controller.olderThan_of_not_le hold (h'.rank e he)

/-- **When a restore is not stale.** In every run of routes, App commits, restarts and restores, take a transfer of the daemon
and any context that its COMMIT reaches. `Commit` of that context does not answer STALE_GENERATION unless the context has the
whole snapshot staged and has accepted a greater pair of generations before, on any route. -/
theorem restore_not_stale_iff (config : Config) (bootId : ℕ) (store : SnapshotStore) (adapter cache : Option DeviceIdentity)
    (ops : List (Op E)) (q : Ticket) (snapshot : Snapshot)
    (hopened : Entry.opened q snapshot ∈ (run (boot config bootId store adapter cache) ops : Sys E).log)
    (newer older : List (Note (Tracked E))) (c : Command) (contexts : Table ℕ (DriverContext (Tracked E)))
    (htrace : (run (boot config bootId store adapter cache) ops : Sys E).link.trace = newer ++ .handled c contexts :: older)
    (htype : c.type = .snapshotCommit) (hq : c.ticket = q) (id : ℕ) (y : DriverContext (Tracked E))
    (hy : contexts.get? id = some y) :
    (y.ext.ctx.commitResult E).2.2 ≠ .error .staleGeneration ↔
      ¬ (y.ext.ctx.snapshotApply.staging = true ∧ encodeSnapshot snapshot = .ok y.ext.ctx.snapshotApply.staged ∧
        Outrun y.ext snapshot) := by
  have hwhole := run_whole (boot_whole config bootId store adapter cache) ops
  generalize (run (boot config bootId store adapter cache) ops : Sys E) = s at *
  obtain ⟨-, ⟨bytes, hcarried⟩, -⟩ := hwhole.accounts.openings q snapshot hopened
  have hprovenance := hwhole.sound.provenance.past newer c contexts older htrace id y hy
  have hstanding := hwhole.sound.standing.past newer c contexts older htrace id y hy
  rw [not_iff_not, ViperContext.commitResult, Controller.commit_stale_iff]
  refine and_congr_right fun hstaging => ?_
  obtain ⟨-, hbegins, hmeta, hroute⟩ := staged_of_commit hwhole.sound hcarried htrace hq htype hy hstaging
  have hwholly : y.ext.ctx.snapshotApply.staged = bytes → (y.ext.ctx.snapshotApply.examine E.ids = .refused .staleGeneration ↔
      Outrun y.ext snapshot) := by
    intro hstaged
    rw [← olderThan_last_iff hprovenance hstanding]
    refine Controller.examine_stale_iff ?_ ?_ ?_ hroute.symm ?_
    · rw [hstaged, hmeta]
      have hlen : bytes.length < 2 ^ 32 := lt_of_le_of_lt (encodeSnapshot_size hcarried.encoded) (by decide)
      simp only [ViperContext.metadataOf, beginOf, UInt32.toNat_ofNat']
      omega
    · rw [hstaged, hmeta]
      rfl
    · rw [hstaged]
      exact decodeSnapshot_encode hcarried.encoded
    · rw [hmeta]
      exact ⟨rfl, rfl⟩
  constructor
  · intro hstale
    -- bytes that are not all there are refused for their size
    have hsize : y.ext.ctx.snapshotApply.staged.length = y.ext.ctx.snapshotApply.metadata.totalSize.toNat := by
      by_contra hne
      simp [Controller.examine, hne] at hstale
    have hstaged := eq_of_declared hcarried.encoded hbegins (hmeta ▸ hsize)
    exact ⟨hstaged ▸ hcarried.encoded, (hwholly hstaged).mp hstale⟩
  · rintro ⟨hencoded, houtrun⟩
    exact (hwholly (Except.ok.inj (hencoded.symm.trans hcarried.encoded))).mpr houtrun

/-- the COMMIT of a transfer that reaches only contexts that have accepted nothing newer -/
def isCommitAhead (q : Ticket) (snapshot : Snapshot) : Note (Tracked E) → Bool
  | .handled c contexts => decide (c.type = .snapshotCommit ∧ c.ticket = q ∧ ∀ p ∈ contexts.entries, ¬ Outrun p.2.ext snapshot)
  | _ => false

/-- the restore of the speaker is not stale -/
theorem restore_not_stale_speaker : ∃ c contexts, Note.handled c contexts ∈
      (run (boot { appReportedRoutes := false } 7 speakerStore (some speaker) none)
        (speakerContext ++ [speakerPass]) : Sys gainEngine).link.trace ∧ c.type = .snapshotCommit ∧
      ∀ id y, contexts.get? id = some y → (y.ext.ctx.commitResult gainEngine).2.2 ≠ .error .staleGeneration := by
  have hrun : (⟨0, 2⟩, speakerSnapshot 2) ∈ (run (boot { appReportedRoutes := false } 7 speakerStore (some speaker) none)
        (speakerContext ++ [speakerPass]) : Sys gainEngine).log.filterMap Entry.openedTransfer ∧
      (run (boot { appReportedRoutes := false } 7 speakerStore (some speaker) none)
        (speakerContext ++ [speakerPass]) : Sys gainEngine).link.trace.any (isCommitAhead ⟨0, 2⟩ (speakerSnapshot 2)) = true := by
    decide +kernel
  obtain ⟨hopened, hany⟩ := hrun
  obtain ⟨n, hn, hahead⟩ := List.any_eq_true.mp hany
  cases n with
  | registered id known => cases hahead
  | restarted => cases hahead
  | handled c contexts =>
    obtain ⟨htype, hq, hahead⟩ := of_decide_eq_true hahead
    obtain ⟨newer, older, htrace⟩ := List.append_of_mem hn
    refine ⟨c, contexts, hn, htype, fun id y hy => ?_⟩
    refine (restore_not_stale_iff _ _ _ _ _ _ _ _ (Entry.openedTransfer_inv hopened) newer older c contexts htrace htype hq
      id y hy).mpr ?_
    rintro ⟨-, -, houtrun⟩
    exact hahead (id, y) ((Table.mem_entries_iff contexts id y).mpr hy) houtrun

def headset : DeviceIdentity := { speaker with routeType := ascii ['h'] }

/-- the snapshot of the headset, with a lower App generation than that of the speaker -/
def headsetSnapshot (daemonGeneration : UInt64) : Snapshot :=
  { gainSnapshot 3 [] with
    deviceKey := normalizeDeviceKey headset
    deviceKeyHash := hashDeviceKey (normalizeDeviceKey headset)
    daemonGeneration }

def bothStored : SnapshotStore :=
  (speakerStore.commit (headsetSnapshot 1).deviceKeyHash (headsetSnapshot 1) .none).1

/-- a pass with a driver that handles a command at every turn -/
def promptPass : Op gainEngine := .runOnce (List.replicate 24 { before := [.handle .sent] }) []

/-- a COMMIT of the transfer found context 1 configured and not bypassed, and was refused as stale -/
def isStaleCommit (q : Ticket) : Note (Tracked gainEngine) → Bool
  | .handled c contexts => decide (c.type = .snapshotCommit ∧ c.ticket = q) && (contexts.get? 1).any fun y =>
    decide (y.ext.ctx.dsp.disableReason = .none) && y.ext.ctx.dsp.graphSlots.active.isSome &&
      match (y.ext.ctx.commitResult gainEngine).2.2 with
      | .error e => decide (e = .staleGeneration)
      | .ok _ => false
  | _ => false

/-- The speaker is restored, then the headset is plugged in. Its route is announced, and the only snapshot stored for it is
sent and refused as stale. -/
theorem headset_is_stale :
    let s : Sys gainEngine := run (boot { appReportedRoutes := false } 7 bothStored (some speaker) none)
      (speakerContext ++ [promptPass, .reading (some headset), promptPass])
    s.runtime.announcedRouteHash = (headsetSnapshot 1).deviceKeyHash ∧
      usableSnapshot s.store s.runtime.announcedRouteHash = some (headsetSnapshot 1) ∧
      (⟨0, 4⟩, headsetSnapshot 3) ∈ s.log.filterMap Entry.openedTransfer ∧ s.link.trace.any (isStaleCommit ⟨0, 4⟩) = true := by
  decide +kernel

end ViperFx.System
