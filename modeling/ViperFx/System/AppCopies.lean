/-
Whether the daemon stores what the driver has applied: `OnSnapshotCommand`, `StageAppSnapshotCommand` and
`CommitStagedAppSnapshot` of `daemon/DaemonRuntime.cpp` against the apply controller of every context, over every run.

The daemon stages a frame of the App before it sends it, so its copy can be of a transfer the driver never saw; and it drops its
copy when an answer is missed or is a refusal, while the driver goes on with what it has. Neither is told of the other.

What was sent of the App's transfer (`Conveyed`) and how its COMMITs ended (`Receipts`) is kept over every run; a program that
is not about it is `Beside`.

Results:
  · Copied.stage, Copied.assembled : the daemon's copy is what the App's frames put together
  · books_onSnapshotCommand        : a frame of the App, sent or not, answered or not
  · run_books                      : what the daemon holds and what it has sent, in every run
-/
import ViperFx.System.AppStaging
import ViperFx.System.Transfers

namespace ViperFx.System

open ViperFx.Core ViperFx.Protocol ViperFx.Daemon ViperFx.Channel ViperFx.Driver

/-! ## The copy -/

namespace Offered

/-- the chunks that were given to the daemon, newest first -/
def payloads (o : Offered) : List Bytes := o.chunks.map Offer.payload

/-- those of them that were sent -/
def sentChunks (o : Offered) : List Command :=
  o.chunks.filterMap fun c => c.ticket.map fun q => ⟨.snapshotChunk, c.payload, q⟩

/-- the snapshot the frames put together, when it is as the BEGIN declares -/
def assembled (o : Offered) : Option Snapshot :=
  match decodeSnapshotBegin o.begun.payload, joined o.payloads with
  | .ok b, some bytes =>
    if bytes.length = b.totalSize.toNat ∧ crc32 bytes = b.crc32 then (decodeSnapshot bytes).toOption else none
  | _, _ => none

theorem assembled_iff {o : Offered} {b : SnapshotBegin} (hb : decodeSnapshotBegin o.begun.payload = .ok b)
    {snapshot : Snapshot} : o.assembled = some snapshot ↔ ∃ bytes, joined o.payloads = some bytes ∧
      bytes.length = b.totalSize.toNat ∧ crc32 bytes = b.crc32 ∧ decodeSnapshot bytes = .ok snapshot := by
  unfold assembled
  rw [hb]
  cases hbytes : joined o.payloads with
  | none => simp
  | some bytes =>
    simp only [Option.some.injEq, exists_eq_left']
    split_ifs with hdeclared
    · cases hsnapshot : decodeSnapshot bytes with
      | error e => simp [Except.toOption]
      | ok snapshot' => simp [Except.toOption, hdeclared]
    · rw [← and_assoc]
      simp [hdeclared]

@[simp] theorem grow_begun (payload : Bytes) (o : Offered) : (o.grow payload).begun = o.begun := rfl

@[simp] theorem grow_payloads (payload : Bytes) (o : Offered) : (o.grow payload).payloads = payload :: o.payloads := rfl

@[simp] theorem grow_sentChunks (payload : Bytes) (o : Offered) : (o.grow payload).sentChunks = o.sentChunks := rfl

theorem markSent_payload (type : SnapshotCommandType) (q : Ticket) (o : Offered) :
    (o.markSent type q).begun.payload = o.begun.payload ∧ (o.markSent type q).payloads = o.payloads := by
  obtain ⟨begun, chunks⟩ := o
  cases type <;> cases chunks <;> exact ⟨rfl, rfl⟩

/-- nothing but a BEGIN or a CHUNK is marked -/
theorem markSent_other {type : SnapshotCommandType} (h : type ≠ .snapshotBegin) (h' : type ≠ .snapshotChunk) (q : Ticket)
    (o : Offered) : o.markSent type q = o := by
  obtain ⟨begun, chunks⟩ := o
  cases type with
  | snapshotBegin => exact absurd rfl h
  | snapshotChunk => exact absurd rfl h'
  | _ => cases chunks <;> rfl

end Offered

/-- the copy of the daemon holds what the App's frames put together, and is given up where they do not -/
structure Copied (r : Runtime) : Prop where
  idle : r.offered = none → r.appStaging = false
  declared : ∀ o, r.offered = some o → ∃ b, decodeSnapshotBegin o.begun.payload = .ok b ∧ r.appStagedTotal = b.totalSize ∧
    r.appStagedCrc = b.crc32
  bytes : ∀ o, r.offered = some o → joined o.payloads = if r.appStaging then some r.appStagedBytes else none

/-- all that the copy is -/
def copyOf (r : Runtime) : (Bytes × UInt32 × UInt32 × Bool) × Option Offered := (stagingOf r, r.offered)

theorem Copied.of_eq {r r' : Runtime} (h : Copied r) (hsame : copyOf r' = copyOf r) : Copied r' := by
  simp only [copyOf, stagingOf, Prod.mk.injEq] at hsame
  obtain ⟨⟨hbytes, htotal, hcrc, hstaging⟩, hoffered⟩ := hsame
  refine ⟨?_, ?_, ?_⟩
  · rw [hoffered, hstaging]
    exact h.idle
  · rw [hoffered, htotal, hcrc]
    exact h.declared
  · rw [hoffered, hstaging, hbytes]
    exact h.bytes

theorem Copied.dropped {r : Runtime} (hoffered : r.offered = none) (hstaging : r.appStaging = false) : Copied r where
  idle := fun _ => hstaging
  declared := by
    intro o ho
    rw [hoffered] at ho
    cases ho
  bytes := by
    intro o ho
    rw [hoffered] at ho
    cases ho

theorem Copied.mark {r : Runtime} (h : Copied r) (type : SnapshotCommandType) (q : Ticket) :
    Copied { r with offered := r.offered.map (.markSent type q) } where
  idle := fun hnone => h.idle (Option.map_eq_none_iff.mp hnone)
  declared := by
    intro o ho
    obtain ⟨o, ho', rfl⟩ := Option.map_eq_some_iff.mp ho
    rw [(Offered.markSent_payload type q o).1]
    exact h.declared o ho'
  bytes := by
    intro o ho
    obtain ⟨o, ho', rfl⟩ := Option.map_eq_some_iff.mp ho
    rw [(Offered.markSent_payload type q o).2]
    exact h.bytes o ho'

theorem stage_offered_chunk (r : Runtime) (payload : Bytes) :
    (stageAppSnapshotCommand r .snapshotChunk payload).offered = r.offered.map (.grow payload) := by
  unfold stageAppSnapshotCommand
  dsimp only
  split_ifs
  · rfl
  · cases decodeSnapshotChunk payload with
    | error e => rfl
    | ok chunk =>
      dsimp only
      split_ifs <;> rfl

/-- a chunk is given to the daemon: it goes to the end of the copy, or the copy is given up -/
theorem Copied.chunk {r : Runtime} (h : Copied r) (payload : Bytes) :
    Copied (stageAppSnapshotCommand r .snapshotChunk payload) := by
  have hgrown := stage_offered_chunk r payload
  have hdeclared : (stageAppSnapshotCommand r .snapshotChunk payload).appStagedTotal = r.appStagedTotal ∧
      (stageAppSnapshotCommand r .snapshotChunk payload).appStagedCrc = r.appStagedCrc := by
    unfold stageAppSnapshotCommand
    dsimp only
    split_ifs
    · exact ⟨rfl, rfl⟩
    · cases decodeSnapshotChunk payload with
      | error e => exact ⟨rfl, rfl⟩
      | ok chunk =>
        dsimp only
        split_ifs <;> exact ⟨rfl, rfl⟩
  refine ⟨fun hnone => ?_, fun o ho => ?_, fun o ho => ?_⟩
  · have hidle := h.idle (Option.map_eq_none_iff.mp (hgrown ▸ hnone))
    simp [stageAppSnapshotCommand, hidle]
  · obtain ⟨o, ho', rfl⟩ := Option.map_eq_some_iff.mp (hgrown ▸ ho)
    rw [hdeclared.1, hdeclared.2]
    exact h.declared o ho'
  · obtain ⟨o, ho', rfl⟩ := Option.map_eq_some_iff.mp (hgrown ▸ ho)
    have hbytes := h.bytes o ho'
    rw [Offered.grow_payloads]
    cases hs : r.appStaging with
    | false => simp [joined, hbytes, stageAppSnapshotCommand, hs]
    | true =>
      cases hchunk : decodeSnapshotChunk payload with
      | error e => simp [joined, stageAppSnapshotCommand, hs, hchunk]
      | ok chunk =>
        by_cases hoffset : chunk.offset.toNat = r.appStagedBytes.length
        · simp [joined, hbytes, stageAppSnapshotCommand, hs, hchunk, hoffset]
        · simp [joined, hbytes, stageAppSnapshotCommand, hs, hchunk, hoffset]

/-- **A frame is given to the daemon.** -/
theorem Copied.stage {r : Runtime} (h : Copied r) {type : SnapshotCommandType} {payload : Bytes}
    (haccepts : acceptsCommand type payload = true) : Copied (stageAppSnapshotCommand r type payload) := by
  cases type with
  | snapshotBegin =>
    cases hb : decodeSnapshotBegin payload with
    | error e => simp [acceptsCommand, hb, Except.isOk, Except.toBool] at haccepts
    | ok b =>
      simp only [stageAppSnapshotCommand, hb]
      refine ⟨fun hnone => (by cases hnone), fun o ho => ?_, fun o ho => ?_⟩
      · obtain rfl := Option.some.inj ho
        exact ⟨b, hb, rfl, rfl⟩
      · obtain rfl := Option.some.inj ho
        rfl
  | snapshotChunk => exact h.chunk payload
  | snapshotCommit => exact h
  | snapshotAbort => exact h
  | routeAnnounce => exact h

/-- what is stored is what the frames put together, when it is of the current route -/
theorem Copied.assembled {r : Runtime} (h : Copied r) {stored : Snapshot} :
    stagedAppSnapshot r = some stored ↔ ∃ o snapshot, r.offered = some o ∧ o.assembled = some snapshot ∧
      snapshot.deviceKeyHash = r.routeKeyHash ∧ stored = { snapshot with daemonGeneration := r.daemonGeneration } := by
  cases ho : r.offered with
  | none => simp [stagedAppSnapshot, h.idle ho]
  | some o =>
    obtain ⟨b, hb, htotal, hcrc⟩ := h.declared o ho
    have hbytes := h.bytes o ho
    simp only [Option.some.injEq, exists_and_left, exists_eq_left', Offered.assembled_iff hb]
    cases hs : r.appStaging with
    | false =>
      rw [hs] at hbytes
      simp [stagedAppSnapshot, hs, hbytes]
    | true =>
      rw [hs, if_pos rfl] at hbytes
      simp only [hbytes, Option.some.injEq, exists_eq_left', stagedAppSnapshot, hs, Bool.not_true, Bool.false_eq_true, if_false,
        htotal, hcrc]
      by_cases hdeclared : r.appStagedBytes.length = b.totalSize.toNat ∧ crc32 r.appStagedBytes = b.crc32
      · rw [if_neg (by simp [hdeclared])]
        cases hsnapshot : decodeSnapshot r.appStagedBytes with
        | error e => simp
        | ok snapshot =>
          dsimp only
          split_ifs with hroute
          · simp [hroute]
          · simp [hdeclared, not_not.mp hroute, eq_comm]
      · rw [if_pos (by simpa [or_iff_not_imp_left] using hdeclared)]
        simp only [reduceCtorEq, false_iff]
        rintro ⟨snapshot, ⟨hsize, hsum, -⟩, -⟩
        exact hdeclared ⟨hsize, hsum⟩

/-! ## What was sent of a transfer -/

variable {E : Engine}

/-- the ticket of a transfer of the daemon's own -/
def Entry.openedTicket : Entry E → Option Ticket
  | .opened q _ => some q
  | _ => none

/-- the tickets of the daemon's own transfers -/
def restores (log : List (Entry E)) : List Ticket := log.filterMap Entry.openedTicket

theorem mem_restores {log : List (Entry E)} {q : Ticket} : q ∈ restores log ↔ ∃ snapshot, .opened q snapshot ∈ log := by
  unfold restores
  rw [List.mem_filterMap]
  constructor
  · rintro ⟨e, he, heq⟩
    cases e with
    | opened q' snapshot =>
      obtain rfl := Option.some.inj heq
      exact ⟨snapshot, he⟩
    | _ => cases heq
  · rintro ⟨snapshot, hmem⟩
    exact ⟨_, hmem, rfl⟩

theorem restores_minor {entries : List (Entry E)} (h : ∀ e ∈ entries, e.Minor) : restores entries = [] := by
  unfold restores
  rw [List.filterMap_eq_nil_iff]
  intro e he
  have hminor := h e he
  cases e with
  | opened q snapshot => exact hminor.elim
  | _ => rfl

/-- a chunk the App has sent, from one ticket on and before another -/
def Between (log : List (Entry E)) (b next : Ticket) (d : Command) : Prop :=
  d.type = .snapshotChunk ∧ b.le d.ticket ∧ d.ticket.lt next ∧ d.ticket ∉ restores log

instance decidableBetween (log : List (Entry E)) (b next : Ticket) : DecidablePred (Between log b next) := fun d =>
  inferInstanceAs (Decidable (d.type = .snapshotChunk ∧ b.le d.ticket ∧ d.ticket.lt next ∧ d.ticket ∉ restores log))

/-- the App's BEGIN was sent under the ticket `b` and taken by every context, and what was sent for the App since, up to `next`,
is what the daemon was given and has sent -/
structure Conveyed (s : Sys E) (o : Offered) (b next : Ticket) : Prop where
  before : b.lt next
  begun : ∃ others, Note.handled ⟨.snapshotBegin, o.begun.payload, b⟩ others ∈ s.link.trace ∧
    FannedOut ⟨.snapshotBegin, o.begun.payload, b⟩ others
  own : b ∉ restores s.log
  last : ∀ d ∈ s.link.sent, d.type = .snapshotBegin → d.ticket ∉ restores s.log → d.ticket.lt next → d.ticket.le b
  chunks : o.sentChunks = s.link.sent.filter (Between s.log b next)
  ordered : o.sentChunks.Pairwise fun c d => d.ticket.lt c.ticket

/-- `s` goes on to `t`: what is sent goes under new tickets, and so do the daemon's own transfers -/
structure Later (s t : Sys E) : Prop where
  next : s.next.le t.next
  sent : ∃ commands, t.link.sent = commands ++ s.link.sent ∧ ∀ d ∈ commands, s.next.le d.ticket
  trace : ∃ notes, t.link.trace = notes ++ s.link.trace
  log : ∃ entries, t.log = entries ++ s.log ∧ ∀ q ∈ restores entries, s.next.le q

theorem Later.refl (s : Sys E) : Later s s :=
  ⟨Ticket.le_refl _, ⟨[], rfl, fun _ hd => absurd hd List.not_mem_nil⟩, ⟨[], rfl⟩,
    ⟨[], rfl, fun _ hq => absurd hq List.not_mem_nil⟩⟩

theorem Later.trans {s t u : Sys E} (h : Later s t) (h' : Later t u) : Later s u where
  next := Ticket.le_trans h.next h'.next
  sent := by
    obtain ⟨commands, hsent, hnew⟩ := h.sent
    obtain ⟨commands', hsent', hnew'⟩ := h'.sent
    refine ⟨commands' ++ commands, by rw [hsent', hsent, List.append_assoc], fun d hd => ?_⟩
    rcases List.mem_append.mp hd with hd | hd
    · exact Ticket.le_trans h.next (hnew' d hd)
    · exact hnew d hd
  trace := by
    obtain ⟨notes, hn⟩ := h.trace
    obtain ⟨notes', hn'⟩ := h'.trace
    exact ⟨notes' ++ notes, by rw [hn', hn, List.append_assoc]⟩
  log := by
    obtain ⟨entries, hlog, hnew⟩ := h.log
    obtain ⟨entries', hlog', hnew'⟩ := h'.log
    refine ⟨entries' ++ entries, by rw [hlog', hlog, List.append_assoc], fun q hq => ?_⟩
    rw [restores, List.filterMap_append] at hq
    rcases List.mem_append.mp hq with hq | hq
    · exact Ticket.le_trans h.next (hnew' q hq)
    · exact hnew q hq

/-- whether an older ticket is one of the daemon's own transfers is settled -/
theorem Later.restores_iff {s t : Sys E} (h : Later s t) {q : Ticket} (hq : q.lt s.next) :
    q ∈ restores t.log ↔ q ∈ restores s.log := by
  obtain ⟨entries, hlog, hnew⟩ := h.log
  rw [hlog, restores, List.filterMap_append, List.mem_append]
  constructor
  · rintro (hmem | hmem)
    · exact (Ticket.lt_irrefl_le hq (hnew q hmem)).elim
    · exact hmem
  · exact Or.inr

/-- what was sent under older tickets is settled -/
theorem Later.sent_older {s t : Sys E} (h : Later s t) {d : Command} (hd : d ∈ t.link.sent) (hlt : d.ticket.lt s.next) :
    d ∈ s.link.sent := by
  obtain ⟨commands, hsent, hnew⟩ := h.sent
  rw [hsent] at hd
  rcases List.mem_append.mp hd with hd | hd
  · exact (Ticket.lt_irrefl_le hlt (hnew d hd)).elim
  · exact hd

theorem Later.between {s t : Sys E} (h : Later s t) {next : Ticket} (hnext : next.le s.next) (b : Ticket) :
    t.link.sent.filter (Between t.log b next) = s.link.sent.filter (Between s.log b next) := by
  obtain ⟨commands, hsent, hnew⟩ := h.sent
  have hnone : commands.filter (Between t.log b next) = [] := by
    rw [List.filter_eq_nil_iff]
    intro d hd hbetween
    obtain ⟨-, -, hlt, -⟩ := of_decide_eq_true hbetween
    exact Ticket.lt_irrefl_le (Ticket.lt_of_lt_of_le hlt hnext) (hnew d hd)
  rw [hsent, List.filter_append, hnone, List.nil_append]
  refine List.filter_congr fun d _ => decide_eq_decide.mpr ?_
  refine and_congr_right fun _ => and_congr_right fun _ => and_congr_right fun hlt => not_congr ?_
  exact h.restores_iff (Ticket.lt_of_lt_of_le hlt hnext)

theorem Conveyed.later {s t : Sys E} {o : Offered} {b next : Ticket} (h : Conveyed s o b next) (hnext : next.le s.next)
    (hl : Later s t) : Conveyed t o b next where
  before := h.before
  begun := by
    obtain ⟨notes, hnotes⟩ := hl.trace
    obtain ⟨others, hn, hfan⟩ := h.begun
    exact ⟨others, by rw [hnotes]; exact List.mem_append_right _ hn, hfan⟩
  own := by
    rw [hl.restores_iff (Ticket.lt_of_lt_of_le h.before hnext)]
    exact h.own
  last := by
    intro d hd htype hown hlt
    have hold := Ticket.lt_of_lt_of_le hlt hnext
    rw [hl.restores_iff hold] at hown
    exact h.last d (hl.sent_older hd hold) htype hown hlt
  chunks := by
    rw [hl.between hnext]
    exact h.chunks
  ordered := h.ordered

/-! ## What was told of a COMMIT -/

/-- how a COMMIT of the App has ended: its answer was missed, it was refused, or what the daemon held was stored -/
inductive CommitEnd (s : Sys E) (q : Ticket) (route : Bytes) (offered : Option Offered) : Prop
  | unanswered (h : .unanswered q ∈ s.log)
  | refused (c : Command) (others : Table ℕ (DriverContext (Tracked E))) (hn : Note.handled c others ∈ s.link.trace)
      (hq : c.ticket = q) (hrefused : ¬ FannedOut c others)
  | kept (h : ∀ o snapshot, offered = some o → o.assembled = some snapshot → snapshot.deviceKeyHash = route →
      ∃ stored, .stored q stored ∈ s.log)

/-- what is known of a COMMIT of the App that was sent -/
structure Relayed (s : Sys E) (q : Ticket) (route : Bytes) (offered : Option Offered) : Prop where
  issued : q.lt s.next
  alone : ∀ d ∈ s.link.sent, d.ticket = q → d.type = .snapshotCommit
  declared : ∀ o, offered = some o → ∃ b, decodeSnapshotBegin o.begun.payload = .ok b
  conveyed : ∀ o b, offered = some o → o.begun.ticket = some b → Conveyed s o b q
  ended : CommitEnd s q route offered

/-- every context took the COMMIT -/
def CommitTaken (s : Sys E) (q : Ticket) : Prop :=
  ∃ c others, Note.handled c others ∈ s.link.trace ∧ c.type = .snapshotCommit ∧ c.ticket = q ∧ FannedOut c others

/-- where a snapshot that was stored is from -/
structure StoredFrom (s : Sys E) (q : Ticket) (stored : Snapshot) : Prop where
  assembled : ∃ route o snapshot, .relayed q route (some o) ∈ s.log ∧ o.assembled = some snapshot ∧
    stored = { snapshot with daemonGeneration := stored.daemonGeneration }
  committed : CommitTaken s q

theorem CommitEnd.later {s t : Sys E} {q : Ticket} {route : Bytes} {offered : Option Offered}
    (h : CommitEnd s q route offered) (hl : Later s t) : CommitEnd t q route offered := by
  obtain ⟨entries, hlog, -⟩ := hl.log
  obtain ⟨notes, htrace⟩ := hl.trace
  cases h with
  | unanswered h => exact .unanswered (by rw [hlog]; exact List.mem_append_right _ h)
  | refused c others hn hq hrefused =>
    exact .refused c others (by rw [htrace]; exact List.mem_append_right _ hn) hq hrefused
  | kept h =>
    refine .kept fun o snapshot ho hassembled hroute => ?_
    obtain ⟨stored, hstored⟩ := h o snapshot ho hassembled hroute
    exact ⟨stored, by rw [hlog]; exact List.mem_append_right _ hstored⟩

theorem Relayed.later {s t : Sys E} {q : Ticket} {route : Bytes} {offered : Option Offered} (h : Relayed s q route offered)
    (hl : Later s t) : Relayed t q route offered where
  issued := Ticket.lt_of_lt_of_le h.issued hl.next
  alone := by
    intro d hd hq
    exact h.alone d (hl.sent_older hd (hq ▸ h.issued)) hq
  declared := h.declared
  conveyed := by
    intro o b ho hb
    exact (h.conveyed o b ho hb).later (Ticket.le_of_lt h.issued) hl
  ended := h.ended.later hl

theorem StoredFrom.later {s t : Sys E} {q : Ticket} {stored : Snapshot} (h : StoredFrom s q stored) (hl : Later s t) :
    StoredFrom t q stored where
  assembled := by
    obtain ⟨entries, hlog, -⟩ := hl.log
    obtain ⟨route, o, snapshot, hmem, rest⟩ := h.assembled
    exact ⟨route, o, snapshot, by rw [hlog]; exact List.mem_append_right _ hmem, rest⟩
  committed := by
    obtain ⟨notes, htrace⟩ := hl.trace
    obtain ⟨c, others, hn, rest⟩ := h.committed
    exact ⟨c, others, by rw [htrace]; exact List.mem_append_right _ hn, rest⟩

/-- what the entries of a log say of the App's COMMITs is so -/
structure Receipts (entries : List (Entry E)) (s : Sys E) : Prop where
  relayed : ∀ q route offered, .relayed q route offered ∈ entries → Relayed s q route offered
  stored : ∀ q stored, .stored q stored ∈ entries → StoredFrom s q stored

theorem Receipts.later {entries : List (Entry E)} {s t : Sys E} (h : Receipts entries s) (hl : Later s t) :
    Receipts entries t where
  relayed := fun q route offered hmem => (h.relayed q route offered hmem).later hl
  stored := fun q stored hmem => (h.stored q stored hmem).later hl

/-- entries about no COMMIT of the App -/
def Entry.Apart : Entry E → Prop
  | .relayed _ _ _ => False
  | .stored _ _ => False
  | _ => True

theorem Entry.Minor.apart {e : Entry E} (h : e.Minor) : e.Apart := by
  cases e with
  | unsent q => trivial
  | unanswered q => trivial
  | _ => exact h.elim

theorem Receipts.entries {entries more : List (Entry E)} {s : Sys E} (h : Receipts entries s)
    (hmore : ∀ e ∈ more, e.Apart ∨ e ∈ entries) : Receipts more s where
  relayed := by
    intro q route offered hmem
    rcases hmore _ hmem with hapart | hold
    · exact hapart.elim
    · exact h.relayed q route offered hold
  stored := by
    intro q stored hmem
    rcases hmore _ hmem with hapart | hold
    · exact hapart.elim
    · exact h.stored q stored hold

/-! ## Programs that are not about the App's transfer -/

/-- nothing more is sent of a transfer of the App's -/
structure Spares (s t : Sys E) : Prop where
  later : Later s t
  plain : ∀ d ∈ t.link.sent, s.next.le d.ticket →
    d.type ≠ .snapshotBegin ∧ d.type ≠ .snapshotChunk ∨ d.ticket ∈ restores t.log

/-- `s` goes on to `t`, and the copy and the App's transfer stay as they are -/
structure Passes (s t : Sys E) : Prop extends Spares s t where
  copy : copyOf t.runtime = copyOf s.runtime
  apart : ∀ e ∈ t.log, e.Apart ∨ e ∈ s.log

theorem Later.restores_mono {s t : Sys E} (h : Later s t) {q : Ticket} (hq : q ∈ restores s.log) : q ∈ restores t.log := by
  obtain ⟨entries, hlog, -⟩ := h.log
  rw [hlog, restores, List.filterMap_append]
  exact List.mem_append_right _ hq

theorem Spares.trans {s t u : Sys E} (h : Spares s t) (h' : Spares t u) : Spares s u where
  later := h.later.trans h'.later
  plain := by
    intro d hd hle
    rcases Ticket.lt_or_le d.ticket t.next with hlt | hlater
    · exact (h.plain d (h'.later.sent_older hd hlt) hle).imp (fun ht => ht) h'.later.restores_mono
    · exact h'.plain d hd hlater

theorem Passes.trans {s t u : Sys E} (h : Passes s t) (h' : Passes t u) : Passes s u where
  toSpares := h.toSpares.trans h'.toSpares
  copy := h'.copy.trans h.copy
  apart := by
    intro e he
    rcases h'.apart e he with hapart | hold
    · exact Or.inl hapart
    · exact h.apart e hold

/-- nothing is new for the App's transfer -/
theorem Conveyed.passes {s t : Sys E} {o : Offered} {b : Ticket} (h : Conveyed s o b s.next)
    (hp : Spares s t) : Conveyed t o b t.next := by
  have hkept := h.later (Ticket.le_refl _) hp.later
  have hbefore : b.lt t.next := Ticket.lt_of_lt_of_le h.before hp.later.next
  -- a frame of the App's own is an older one
  have holder : ∀ d ∈ t.link.sent, d.type = .snapshotBegin ∨ d.type = .snapshotChunk → d.ticket ∉ restores t.log →
      d.ticket.lt s.next := by
    intro d hd htype hown
    rcases Ticket.lt_or_le d.ticket s.next with hlt | hle
    · exact hlt
    · rcases hp.plain d hd hle with ⟨hbegin, hchunk⟩ | hr
      · rcases htype with ht | ht
        · exact absurd ht hbegin
        · exact absurd ht hchunk
      · exact absurd hr hown
  refine ⟨hbefore, hkept.begun, hkept.own, fun d hd htype hown _ => ?_, ?_, hkept.ordered⟩
  · exact hkept.last d hd htype hown (holder d hd (Or.inl htype) hown)
  · rw [hkept.chunks]
    refine List.filter_congr fun d hd => decide_eq_decide.mpr ?_
    refine and_congr_right fun htype => and_congr_right fun _ => ?_
    constructor
    · rintro ⟨hlt, hown⟩
      exact ⟨Ticket.lt_of_lt_of_le hlt hp.later.next, hown⟩
    · rintro ⟨-, hown⟩
      exact ⟨holder d hd (Or.inr htype) hown, hown⟩

/-- what is sent is no frame of the App's, or goes under a ticket of the daemon's own transfers -/
theorem Spares.of_sent {s t : Sys E} (hs : Whole s) (commands : List Command) (hnext : s.next.le t.next)
    (hsent : t.link.sent = commands ++ s.link.sent)
    (hcommands : ∀ d ∈ commands, s.next.le d.ticket ∧
      (d.type ≠ .snapshotBegin ∧ d.type ≠ .snapshotChunk ∨ d.ticket ∈ restores t.log))
    (htrace : ∃ notes, t.link.trace = notes ++ s.link.trace)
    (hlog : ∃ entries, t.log = entries ++ s.log ∧ ∀ q ∈ restores entries, s.next.le q) : Spares s t where
  later := ⟨hnext, ⟨commands, hsent, fun d hd => (hcommands d hd).1⟩, htrace, hlog⟩
  plain := by
    intro d hd hle
    rw [hsent] at hd
    rcases List.mem_append.mp hd with hd | hd
    · exact (hcommands d hd).2
    · exact (Ticket.lt_irrefl_le (hs.sound.issued d hd) hle).elim

/-- the link is as it was, and the log tells of other things -/
theorem Passes.of_entries {s t : Sys E} (hs : Whole s) (hlink : t.link = s.link) (entries : List (Entry E))
    (hlog : t.log = entries ++ s.log) (hothers : ∀ e ∈ entries, e.Aside ∧ e.Apart) (hnext : t.next = s.next)
    (hcopy : copyOf t.runtime = copyOf s.runtime) : Passes s t where
  toSpares := by
    refine Spares.of_sent hs [] (hnext ▸ Ticket.le_refl _) (by rw [hlink]; rfl)
      (fun d hd => absurd hd List.not_mem_nil) ⟨[], by rw [hlink]; rfl⟩ ⟨entries, hlog, fun q hq => ?_⟩
    obtain ⟨snapshot, hmem⟩ := mem_restores.mp hq
    exact (hothers _ hmem).1.elim
  copy := hcopy
  apart := by
    intro e he
    rw [hlog] at he
    exact (List.mem_append.mp he).imp (fun hmem => (hothers e hmem).2) id

theorem Passes.of_eq {s t : Sys E} (hs : Whole s) (hlink : t.link = s.link) (hlog : t.log = s.log) (hnext : t.next = s.next)
    (hcopy : copyOf t.runtime = copyOf s.runtime) : Passes s t :=
  Passes.of_entries hs hlink [] hlog (fun _ he => absurd he List.not_mem_nil) hnext hcopy

/-- nothing is sent -/
theorem Passes.of_quiet {s t : Sys E} (hs : Whole s) (h : Advances [] s t) : Passes s t where
  toSpares := by
    obtain ⟨entries, hlog, hminor⟩ := h.log
    refine Spares.of_sent hs [] (h.next ▸ Ticket.le_refl _) h.sent (fun d hd => absurd hd List.not_mem_nil) h.trace
      ⟨entries, hlog, fun q hq => ?_⟩
    rw [restores_minor hminor] at hq
    cases hq
  copy := by rw [h.runtime]
  apart := by
    obtain ⟨entries, hlog, hminor⟩ := h.log
    intro e he
    rw [hlog] at he
    exact (List.mem_append.mp he).imp (fun hmem => (hminor e hmem).apart) id

theorem Commanded.later {type : SnapshotCommandType} {payload : Bytes} {sent : Bool} {s t u : Sys E}
    (h : Commanded type payload sent s t u) : Later s u := by
  obtain ⟨entries, hlog, hminor⟩ := h.advances.log
  refine ⟨?_, ⟨_, h.link ▸ h.advances.sent, fun d hd => ?_⟩, h.link ▸ h.advances.trace, ⟨entries, h.log ▸ hlog, fun q hq => ?_⟩⟩
  · unfold Sys.next
    rw [h.runtime]
    exact Or.inr ⟨rfl, Nat.le_succ _⟩
  · split_ifs at hd
    · rw [List.mem_singleton.mp hd]
      exact Ticket.le_refl _
    · cases hd
  · rw [restores_minor hminor] at hq
    cases hq

/-- what was sent so far is older than the ticket that is issued -/
theorem Commanded.issued {type : SnapshotCommandType} {payload : Bytes} {sent : Bool} {s t u : Sys E}
    (h : Commanded type payload sent s t u) : ∀ d ∈ s.link.sent, d.ticket.lt s.next := fun d hd =>
  h.unused.above d (h.link ▸ hd)

/-- a command that is no frame of the App's was sent, or could not be -/
theorem Commanded.spares {type : SnapshotCommandType} {payload : Bytes} {sent : Bool} {s t u : Sys E}
    (h : Commanded type payload sent s t u)
    (hplain : sent = true → type ≠ .snapshotBegin ∧ type ≠ .snapshotChunk) : Spares s u where
  later := h.later
  plain := by
    intro d hd hle
    rw [h.advances.sent, h.link] at hd
    rcases List.mem_append.mp hd with hd | hd
    · split_ifs at hd with hsent
      · rw [List.mem_singleton.mp hd]
        exact Or.inl (hplain hsent)
      · cases hd
    · exact (Ticket.lt_irrefl_le (h.issued d hd) hle).elim

/-- the entries of a send -/
theorem Commanded.apart {type : SnapshotCommandType} {payload : Bytes} {sent : Bool} {s t u : Sys E}
    (h : Commanded type payload sent s t u) : ∀ e ∈ u.log, e.Apart ∨ e ∈ s.log := by
  obtain ⟨entries, hlog, hminor⟩ := h.advances.log
  intro e he
  rw [hlog, h.log] at he
  exact (List.mem_append.mp he).imp (fun hmem => (hminor e hmem).apart) id

theorem Commanded.copy {type : SnapshotCommandType} {payload : Bytes} {sent : Bool} {s t u : Sys E}
    (h : Commanded type payload sent s t u) : copyOf u.runtime = copyOf s.runtime := by
  rw [h.runtime]
  rfl

/-- a program that is not about the App's transfer -/
def Beside {α : Type} (m : Prog E α) : Prop := ∀ s, Whole s → Whole (m s).2 ∧ Passes s (m s).2

theorem Passes.refl {s : Sys E} (hs : Whole s) : Passes s s := Passes.of_eq hs rfl rfl rfl rfl

theorem Beside.pure {α : Type} (a : α) : Beside (E := E) (pure a) := fun _ hs => ⟨hs, Passes.refl hs⟩

theorem Beside.get : Beside (get : Prog E (Sys E)) := fun _ hs => ⟨hs, Passes.refl hs⟩

theorem Beside.bind {α β : Type} {m : Prog E α} {f : α → Prog E β} (hm : Beside m) (hf : ∀ a, Beside (f a)) :
    Beside (m >>= f) := by
  intro s hs
  obtain ⟨hwhole, hpasses⟩ := hm s hs
  obtain ⟨hwhole', hpasses'⟩ := hf (m s).1 _ hwhole
  exact ⟨hwhole', hpasses.trans hpasses'⟩

theorem Beside.ite {α : Type} {c : Prop} [Decidable c] {m m' : Prog E α} (hm : Beside m) (hm' : Beside m') :
    Beside (if c then m else m') := by
  split_ifs
  · exact hm
  · exact hm'

theorem Quiet.beside {α : Type} {m : Prog E α} (h : Quiet m) : Beside m := fun s hs =>
  ⟨h.whole s hs, Passes.of_quiet hs (h s)⟩

theorem Beside.set {f : Runtime → Runtime} (hf : Unread f) (hcopy : ∀ r, copyOf (f r) = copyOf r) :
    Beside (E := E) (set f) := fun s hs =>
  ⟨whole_set hf s hs, Passes.of_eq hs rfl rfl (congrArg₂ Ticket.mk (hf.life s.runtime) (hf.nextRequestId s.runtime))
    (hcopy s.runtime)⟩

theorem Beside.note {e : Entry E} (haside : e.Aside) (hapart : e.Apart) : Beside (note e) := fun s hs =>
  ⟨whole_note haside s hs, Passes.of_entries hs rfl [e] rfl
    (fun e' he' => by rw [List.mem_singleton.mp he']; exact ⟨haside, hapart⟩) rfl rfl⟩

theorem Beside.modify {f : Sys E → Sys E} (hwhole : ∀ s, Whole s → Whole (f s)) (hlink : ∀ s, (f s).link = s.link)
    (hlog : ∀ s, (f s).log = s.log) (hnext : ∀ s, (f s).next = s.next)
    (hcopy : ∀ s, copyOf (f s).runtime = copyOf s.runtime) : Beside (modify f) := fun s hs =>
  ⟨hwhole s hs, Passes.of_eq hs (hlink s) (hlog s) (hnext s) (hcopy s)⟩

theorem beside_announceRouteToDriver : Beside (E := E) announceRouteToDriver := by
  intro s hs
  refine ⟨whole_announceRouteToDriver s hs, ?_⟩
  show wp announceRouteToDriver (fun _ t => Passes s t) s
  unfold announceRouteToDriver
  rw [wp_bind, wp_get]
  dsimp only
  cases encodeRouteAnnounce { deviceKeyHash := s.runtime.routeKeyHash } with
  | error e => exact Passes.refl hs
  | ok payload =>
    refine command_spec .routeAnnounce payload hs fun sent t u hu => ?_
    have hsent : Passes s u := ⟨hu.spares fun _ => ⟨by simp, by simp⟩, hu.copy, hu.apart⟩
    rw [wp_ite]
    refine ⟨fun _ => ?_, fun _ => hsent⟩
    rw [wp_bind]
    refine wp_mono (awaitApplyOutcome_spec s.next u) fun outcome v hv => ?_
    have hwait : Passes s v := hsent.trans (Passes.of_quiet hu.whole hv.1)
    have hwhole : Whole v := hu.whole.advances hv.1 fun d hd => absurd hd List.not_mem_nil
    rw [wp_ite]
    refine ⟨fun _ => ?_, fun _ => hwait⟩
    refine hwait.trans (Passes.of_entries hwhole rfl [.announced s.next s.runtime.routeKeyHash] rfl ?_ rfl rfl)
    intro e he
    rw [List.mem_singleton.mp he]
    exact ⟨trivial, trivial⟩

theorem beside_applySnapshotToDriver (snapshot : Snapshot) : Beside (E := E) (applySnapshotToDriver snapshot) := by
  intro s hs
  refine ⟨whole_applySnapshotToDriver snapshot s hs, ?_⟩
  show wp (applySnapshotToDriver snapshot) (fun _ t => Passes s t) s
  unfold applySnapshotToDriver
  cases hbytes : encodeSnapshot snapshot with
  | error e => exact Passes.refl hs
  | ok bytes =>
    dsimp only
    rw [wp_bind]
    refine wp_mono (newTicket_spec hs.sound) fun q t ht => ?_
    obtain ⟨rfl, hq, hlink, hlog, hruntime⟩ := ht
    have hq' : Unused s.next (t.enter (.opened s.next snapshot)) := ⟨hq.sound, hq.life, hq.issued, hq.above⟩
    rw [wp_bind]
    refine wp_mono (P := fun _ u => u = t.enter (.opened s.next snapshot)) rfl fun _ u hu => ?_
    subst hu
    rw [wp_bind]
    refine wp_mono (transfer_spec hbytes hq') fun result u hu => ?_
    obtain ⟨⟨commands, ha, hcommands⟩, -⟩ := hu
    obtain ⟨entries, hulog, hminor⟩ := ha.log
    -- all that was sent went under a ticket of the daemon's own
    let u' := u.enter (.returned s.next snapshot result.1)
    have hulog' : u'.log = (.returned s.next snapshot result.1 :: entries ++ [.opened s.next snapshot]) ++ s.log := by
      show _ :: u.log = _
      rw [hulog]
      show _ :: (entries ++ .opened s.next snapshot :: t.log) = _
      rw [hlog]
      simp
    have hopened : s.next ∈ restores u'.log := by
      rw [mem_restores, hulog']
      exact ⟨snapshot, by simp⟩
    have hnext : s.next.le u'.next := by
      have hlt : s.next.lt u'.next := ha.next ▸ hq.issued
      exact Ticket.le_of_lt hlt
    show Passes s u'
    refine ⟨?_, ?_, fun e he => ?_⟩
    · refine Spares.of_sent hs commands hnext (ha.sent.trans (by rw [← hlink]; rfl)) (fun d hd => ?_) ?_ ⟨_, hulog', fun q hq => ?_⟩
      · rw [hcommands d hd]
        exact ⟨Ticket.le_refl _, Or.inr hopened⟩
      · rw [← hlink]
        exact ha.trace
      · obtain ⟨snapshot', hmem⟩ := mem_restores.mp hq
        rcases List.mem_append.mp hmem with hmem | hmem
        · rcases List.mem_cons.mp hmem with heq | hmem
          · cases heq
          · exact (hminor _ hmem).elim
        · obtain ⟨rfl, -⟩ := Entry.opened.inj (List.mem_singleton.mp hmem)
          exact Ticket.le_refl _
    · show copyOf u.runtime = _
      rw [ha.runtime]
      show copyOf t.runtime = _
      rw [hruntime]
      rfl
    · rw [hulog'] at he
      rcases List.mem_append.mp he with hnew | hold
      · rcases List.mem_append.mp hnew with hnew | hnew
        · rcases List.mem_cons.mp hnew with rfl | hnew
          · exact Or.inl trivial
          · exact Or.inl (hminor _ hnew).apart
        · obtain rfl := List.mem_singleton.mp hnew
          exact Or.inl trivial
      · exact Or.inr hold

theorem beside_restoreCurrentRoute : Beside (E := E) restoreCurrentRoute := by
  have hbypassed : ∀ contexts, Beside (E := E) (do note (.bypassed contexts); pure (false, true)) :=
    fun contexts => (Beside.note (e := .bypassed contexts) trivial trivial).bind fun _ => .pure _
  refine Beside.get.bind fun s => Beside.ite (hbypassed _) ?_
  cases usableSnapshot s.store s.runtime.routeKeyHash with
  | none => exact hbypassed _
  | some loaded =>
    refine Beside.bind (.set ⟨fun _ => rfl, fun _ => rfl, fun _ => .inl ⟨rfl, rfl⟩⟩ fun _ => rfl) fun _ => ?_
    refine (Beside.note (e := .restoring _) trivial trivial).bind fun _ => ?_
    exact (beside_applySnapshotToDriver _).bind fun _ => .pure _

theorem pollRoute_others (s : Sys E) : s.pollRoute.link = s.link ∧ s.pollRoute.log = s.log ∧ s.pollRoute.next = s.next ∧
    copyOf s.pollRoute.runtime = copyOf s.runtime := by
  unfold Sys.pollRoute
  cases newRouteKey s.adapter s.runtime.routeKey <;> exact ⟨rfl, rfl, rfl, rfl⟩

theorem beside_pollRoute : Beside (E := E) (modify Sys.pollRoute) :=
  .modify (fun _ hs => pollRoute_whole hs) (fun s => (pollRoute_others s).1) (fun s => (pollRoute_others s).2.1)
    (fun s => (pollRoute_others s).2.2.1) fun s => (pollRoute_others s).2.2.2

theorem beside_onRouteReport (report : AppRouteReport) : Beside (E := E) (onRouteReport report) := by
  refine Beside.get.bind fun s => Beside.ite (.pure _) (Beside.ite (.pure _) (quiet_turn.beside.bind fun t => ?_))
  refine Beside.bind (.modify (fun s hs => ?_) (fun s => ?_) (fun s => ?_) (fun s => ?_) fun s => ?_) fun _ =>
    Beside.get.bind fun _ => .pure _
  · exact pollRoute_whole (hs.of_eq rfl rfl rfl (.inl ⟨rfl, rfl⟩))
  · exact (pollRoute_others _).1
  · exact (pollRoute_others _).2.1
  · exact (pollRoute_others _).2.2.1
  · exact (pollRoute_others _).2.2.2

theorem beside_announcePass (driverConnected newConnection : Bool) :
    Beside (E := E) (announcePass driverConnected newConnection) := by
  have hforget : Beside (E := E) (set forgetAnnounce) := .set ⟨fun _ => rfl, fun _ => rfl, fun _ => .inr rfl⟩ fun _ => rfl
  have hlast : Beside (E := E) (set fun r => { r with driverWasConnected := driverConnected }) :=
    .set ⟨fun _ => rfl, fun _ => rfl, fun _ => .inl ⟨rfl, rfl⟩⟩ fun _ => rfl
  have htried : Beside (E := E) (set fun r => { r with announceAttempts := r.announceAttempts + 1 }) :=
    .set ⟨fun _ => rfl, fun _ => rfl, fun _ => .inl ⟨rfl, rfl⟩⟩ fun _ => rfl
  have hdone : Beside (E := E) (set fun r => { r with announceAttempts := 0 }) :=
    .set ⟨fun _ => rfl, fun _ => rfl, fun _ => .inl ⟨rfl, rfl⟩⟩ fun _ => rfl
  have hagain : Beside (E := E) (modify fun s => { s with
      runtime := { s.runtime with announceNextAttempt := s.now + kAnnounceRetryDelay } }) :=
    .modify (fun _ hs => hs.of_eq rfl rfl rfl (.inl ⟨rfl, rfl⟩)) (fun _ => rfl) (fun _ => rfl) (fun _ => rfl) fun _ => rfl
  have hdue : Beside (E := E) (do
      if announceDue (← get) then do
        set fun r => { r with announceAttempts := r.announceAttempts + 1 }
        if ← announceRouteToDriver then set fun r => { r with announceAttempts := 0 }
        else modify fun s => { s with
          runtime := { s.runtime with announceNextAttempt := s.now + kAnnounceRetryDelay } }
      set fun r => { r with driverWasConnected := driverConnected }) := by
    refine Beside.get.bind fun s => Beside.ite ?_ hlast
    refine htried.bind fun _ => beside_announceRouteToDriver.bind fun ok => ?_
    exact Beside.ite (hdone.bind fun _ => hlast) (hagain.bind fun _ => hlast)
  refine Beside.ite (Beside.ite ?_ hdue) (hforget.bind fun _ => hlast)
  exact hforget.bind fun _ => hdue

theorem beside_restorePass (driverConnected newConnection : Bool) :
    Beside (E := E) (restorePass driverConnected newConnection) := by
  have hlowered : Beside (E := E) (set fun r => { r with routeRestorePending := false }) :=
    .set ⟨fun _ => rfl, fun _ => rfl, fun _ => .inl ⟨rfl, rfl⟩⟩ fun _ => rfl
  refine Beside.get.bind fun s => Beside.ite ?_ (.pure _)
  refine hlowered.bind fun _ => beside_restoreCurrentRoute.bind fun _ => ?_
  exact .modify (fun _ hs => hs.of_eq rfl rfl rfl (.inl ⟨rfl, rfl⟩)) (fun _ => rfl) (fun _ => rfl) (fun _ => rfl) fun _ => rfl

/-! ## Frames of the App -/

/-- the invariant of every run -/
structure Books (s : Sys E) : Prop where
  whole : Whole s
  copied : Copied s.runtime
  conveyed : ∀ o b, s.runtime.offered = some o → o.begun.ticket = some b → Conveyed s o b s.next
  receipts : Receipts s.log s

theorem Books.passes {s t : Sys E} (h : Books s) (ht : Whole t) (hp : Passes s t) : Books t where
  whole := ht
  copied := h.copied.of_eq hp.copy
  conveyed := by
    intro o b ho hb
    have hsame : t.runtime.offered = s.runtime.offered := congrArg Prod.snd hp.copy
    exact (h.conveyed o b (hsame ▸ ho) hb).passes hp.toSpares
  receipts := (h.receipts.later hp.later).entries hp.apart

theorem Beside.books {α : Type} {m : Prog E α} (h : Beside m) : Keeps Books m := fun s hs =>
  hs.passes (h s hs.whole).1 (h s hs.whole).2

/-- a frame that was given to the daemon and is not sent yet -/
inductive Given : SnapshotCommandType → Bytes → Option Offered → Prop
  | begin (payload : Bytes) : Given .snapshotBegin payload (some { begun := { payload } })
  | chunk (payload : Bytes) (o : Option Offered) : Given .snapshotChunk payload (o.map (.grow payload))
  | commit (payload : Bytes) (o : Option Offered) : Given .snapshotCommit payload o
  | abort (payload : Bytes) (o : Option Offered) : Given .snapshotAbort payload o

/-- **A frame is given to the daemon.** -/
theorem Books.stage {s : Sys E} (h : Books s) {type : SnapshotCommandType} {payload : Bytes}
    (haccepts : acceptsCommand type payload = true) :
    Books { s with runtime := stageAppSnapshotCommand s.runtime type payload } ∧
      Given type payload (stageAppSnapshotCommand s.runtime type payload).offered := by
  have hwhole : Whole { s with runtime := stageAppSnapshotCommand s.runtime type payload } :=
    whole_set (unread_stage type payload) s h.whole
  have hnext : { s with runtime := stageAppSnapshotCommand s.runtime type payload }.next = s.next :=
    congrArg₂ Ticket.mk ((unread_stage type payload).life s.runtime) ((unread_stage type payload).nextRequestId s.runtime)
  have hpasses : Spares s { s with runtime := stageAppSnapshotCommand s.runtime type payload } :=
    Spares.of_sent h.whole [] (hnext ▸ Ticket.le_refl _) rfl (fun _ hd => absurd hd List.not_mem_nil) ⟨[], rfl⟩
      ⟨[], rfl, fun _ hq => absurd hq List.not_mem_nil⟩
  have hreceipts : Receipts s.log { s with runtime := stageAppSnapshotCommand s.runtime type payload } :=
    h.receipts.later hpasses.later
  refine ⟨⟨hwhole, h.copied.stage haccepts, fun o b ho hb => ?_, hreceipts⟩, ?_⟩
  · cases type with
    | snapshotBegin =>
      cases hdecode : decodeSnapshotBegin payload with
      | error e => simp [acceptsCommand, hdecode, Except.isOk, Except.toBool] at haccepts
      | ok begin =>
        simp only [stageAppSnapshotCommand, hdecode] at ho
        obtain rfl := Option.some.inj ho
        cases hb
    | snapshotChunk =>
      rw [stage_offered_chunk] at ho
      obtain ⟨o', ho', rfl⟩ := Option.map_eq_some_iff.mp ho
      have hold := (h.conveyed o' b ho' hb).passes hpasses
      exact ⟨hold.before, hold.begun, hold.own, hold.last, hold.chunks, hold.ordered⟩
    | snapshotCommit => exact (h.conveyed o b ho hb).passes hpasses
    | snapshotAbort => exact (h.conveyed o b ho hb).passes hpasses
    | routeAnnounce => cases haccepts
  · cases type with
    | snapshotBegin =>
      cases hdecode : decodeSnapshotBegin payload with
      | error e => simp [acceptsCommand, hdecode, Except.isOk, Except.toBool] at haccepts
      | ok begin =>
        simp only [stageAppSnapshotCommand, hdecode]
        exact .begin payload
    | snapshotChunk =>
      rw [stage_offered_chunk]
      exact .chunk payload _
    | snapshotCommit => exact .commit payload _
    | snapshotAbort => exact .abort payload _
    | routeAnnounce => cases haccepts

theorem unread_mark (type : SnapshotCommandType) (q : Ticket) :
    Unread fun r => { r with offered := r.offered.map (.markSent type q) } :=
  ⟨fun _ => rfl, fun _ => rfl, fun _ => .inl ⟨rfl, rfl⟩⟩

theorem Commanded.sent {type : SnapshotCommandType} {payload : Bytes} {s t u : Sys E}
    (h : Commanded type payload true s t u) : u.link.sent = ⟨type, payload, s.next⟩ :: s.link.sent := by
  rw [h.advances.sent, h.link]
  rfl

theorem Commanded.next {type : SnapshotCommandType} {payload : Bytes} {sent : Bool} {s t u : Sys E}
    (h : Commanded type payload sent s t u) : s.next.lt u.next := h.advances.next ▸ h.unused.issued

/-- no transfer of the daemon's own has the ticket that is issued -/
theorem Commanded.own {type : SnapshotCommandType} {payload : Bytes} {sent : Bool} {s t u : Sys E} (hs : Whole s)
    (h : Commanded type payload sent s t u) : s.next ∉ restores u.log := by
  intro hmem
  obtain ⟨snapshot, hopened⟩ := mem_restores.mp hmem
  obtain ⟨entries, hlog, hminor⟩ := h.advances.log
  rw [hlog, h.log] at hopened
  rcases List.mem_append.mp hopened with hnew | hold
  · exact (hminor _ hnew).elim
  · exact hs.unopened hold rfl

/-- a CHUNK of the App's has been sent -/
theorem Conveyed.chunk {s t u : Sys E} (hs : Whole s) {payload : Bytes} (hsend : Commanded .snapshotChunk payload true s t u)
    {o : Offered} {b : Ticket} (h : Conveyed s o b s.next) :
    Conveyed u { o with chunks := ⟨payload, some s.next⟩ :: o.chunks } b u.next := by
  have hkept := h.later (Ticket.le_refl _) hsend.later
  have hsent := hsend.sent
  have hissued := hsend.issued
  have hgrown : ({ o with chunks := ⟨payload, some s.next⟩ :: o.chunks } : Offered).sentChunks =
      ⟨.snapshotChunk, payload, s.next⟩ :: o.sentChunks := rfl
  refine ⟨Ticket.lt_of_lt_of_le h.before hsend.later.next, hkept.begun, hkept.own, fun d hd htype hown _ => ?_, ?_, ?_⟩
  · rw [hsent] at hd
    rcases List.mem_cons.mp hd with rfl | hd
    · cases htype
    · exact hkept.last d (by rw [hsent]; exact List.mem_cons_of_mem _ hd) htype hown (hissued d hd)
  · rw [hgrown, h.chunks, hsent, List.filter_cons_of_pos]
    · congr 1
      refine List.filter_congr fun d hd => decide_eq_decide.mpr ?_
      refine and_congr_right fun _ => and_congr_right fun _ => and_congr ?_ (not_congr ?_)
      · exact iff_of_true (hissued d hd) (Ticket.lt_of_lt_of_le (hissued d hd) hsend.later.next)
      · exact (hsend.later.restores_iff (hissued d hd)).symm
    · exact decide_eq_true ⟨rfl, Ticket.le_of_lt h.before, hsend.next, hsend.own hs⟩
  · rw [hgrown, List.pairwise_cons]
    refine ⟨fun d hd => ?_, h.ordered⟩
    rw [h.chunks] at hd
    exact hissued d (List.mem_of_mem_filter hd)

/-- a BEGIN of the App's has been sent, and every context has taken it -/
theorem Conveyed.opened {s t u w : Sys E} (hs : Whole s) {payload : Bytes}
    (hsend : Commanded .snapshotBegin payload true s t u) (hlater : Later u w) (hsame : w.link.sent = u.link.sent)
    {others : Table ℕ (DriverContext (Tracked E))}
    (hn : Note.handled ⟨.snapshotBegin, payload, s.next⟩ others ∈ w.link.trace)
    (hfan : FannedOut ⟨.snapshotBegin, payload, s.next⟩ others) :
    Conveyed w { begun := ⟨payload, some s.next⟩ } s.next w.next := by
  have hsent : w.link.sent = ⟨.snapshotBegin, payload, s.next⟩ :: s.link.sent := hsame.trans hsend.sent
  have hown : s.next ∉ restores w.log := by
    rw [hlater.restores_iff hsend.next]
    exact hsend.own hs
  refine ⟨Ticket.lt_of_lt_of_le hsend.next hlater.next, ⟨others, hn, hfan⟩, hown, fun d hd _ _ _ => ?_, ?_, List.Pairwise.nil⟩
  · rw [hsent] at hd
    rcases List.mem_cons.mp hd with rfl | hd
    · exact Ticket.le_refl _
    · exact Ticket.le_of_lt (hsend.issued d hd)
  · symm
    show List.filter _ _ = []
    rw [List.filter_eq_nil_iff, hsent]
    intro d hd hbetween
    obtain ⟨htype, hle, -, -⟩ := of_decide_eq_true hbetween
    rcases List.mem_cons.mp hd with rfl | hd
    · cases htype
    · exact Ticket.lt_irrefl_le (hsend.issued d hd) hle

/-! ## Answers to the App -/

/-- what becomes of the copy, of the link and of the log when the answer to a frame is there -/
structure Settles (type : SnapshotCommandType) (q : Ticket) (accepted : Bool) (s t : Sys E) : Prop where
  later : Later s t
  sent : t.link.sent = s.link.sent
  copied : Copied t.runtime
  offered : t.runtime.offered = s.runtime.offered ∨ t.runtime.offered = none
  dropped : accepted = false ∨ type = .snapshotAbort → t.runtime.offered = none
  entries : ∀ e ∈ t.log, (e.Apart ∨ e ∈ s.log) ∨ accepted = true ∧ type = .snapshotCommit ∧ ∃ o snapshot stored,
    s.runtime.offered = some o ∧ o.assembled = some snapshot ∧
    stored = { snapshot with daemonGeneration := stored.daemonGeneration } ∧ e = .stored q stored
  stored : accepted = true → type = .snapshotCommit → ∀ o snapshot, s.runtime.offered = some o → o.assembled = some snapshot →
    snapshot.deviceKeyHash = s.runtime.routeKeyHash → ∃ stored, .stored q stored ∈ t.log

/-- a change of the runtime alone -/
theorem Later.of_runtime {s t : Sys E} (hlink : t.link = s.link) (hlog : t.log = s.log) (hnext : t.next = s.next) : Later s t :=
  ⟨hnext ▸ Ticket.le_refl _, ⟨[], by rw [hlink]; rfl, fun _ hd => absurd hd List.not_mem_nil⟩, ⟨[], by rw [hlink]; rfl⟩,
    ⟨[], by rw [hlog]; rfl, fun _ hq => absurd hq List.not_mem_nil⟩⟩

theorem Later.of_quiet {s t : Sys E} (h : Advances [] s t) : Later s t := by
  obtain ⟨entries, hlog, hminor⟩ := h.log
  refine ⟨h.next ▸ Ticket.le_refl _, ⟨[], h.sent, fun _ hd => absurd hd List.not_mem_nil⟩, h.trace, ⟨entries, hlog, fun q hq => ?_⟩⟩
  rw [restores_minor hminor] at hq
  cases hq

/-- what was put together is stored, if it is of the current route -/
theorem commitStagedAppSnapshot_spec (q : Ticket) {s : Sys E} (h : Copied s.runtime) :
    wp (commitStagedAppSnapshot q) (fun _ t => Settles .snapshotCommit q true s t) s := by
  have hnever : ¬ ((true : Bool) = false ∨ SnapshotCommandType.snapshotCommit = .snapshotAbort) := by simp
  have hfound : ∀ o snapshot, s.runtime.offered = some o → o.assembled = some snapshot →
      snapshot.deviceKeyHash = s.runtime.routeKeyHash → (stagedAppSnapshot s.runtime).isSome = true := by
    intro o snapshot ho hassembled hroute
    rw [h.assembled.mpr ⟨o, snapshot, ho, hassembled, hroute, rfl⟩]
    rfl
  let released : Sys E := { s with
    runtime := { s.runtime with appStaging := false, appStagedBytes := [], offered := none } }
  unfold commitStagedAppSnapshot
  rw [wp_bind, wp_get, wp_ite]
  refine ⟨fun hs => ?_, fun hs => ?_⟩
  · rw [wp_bind]
    refine wp_mono (P := fun _ u => u = released) rfl fun _ u hu => ?_
    subst hu
    cases hstaged : stagedAppSnapshot s.runtime with
    | none =>
      refine ⟨Later.of_runtime rfl rfl rfl, rfl, Copied.dropped rfl rfl, Or.inr rfl, fun hd => absurd hd hnever,
        fun _ he => Or.inl (Or.inr he), fun _ _ o snapshot ho hassembled hroute => ?_⟩
      have hsome := hfound o snapshot ho hassembled hroute
      rw [hstaged] at hsome
      cases hsome
    | some stored =>
      dsimp only
      rw [wp_bind]
      refine wp_mono (P := fun _ u => Advances [] released u) (quiet_turn released) fun turn u hu => ?_
      obtain ⟨entries, hlog, hminor⟩ := hu.log
      have hoffered : u.runtime.offered = none := by rw [hu.runtime]
      have hidle : u.runtime.appStaging = false := by rw [hu.runtime]
      have hmoved : Later s u := (Later.of_runtime (s := s) (t := released) rfl rfl rfl).trans (Later.of_quiet hu)
      have hstored : Later u (({ u with
          store := (u.store.commit stored.deviceKeyHash stored turn.disk).1 } : Sys E).enter (.stored q stored)) :=
        ⟨Ticket.le_refl _, ⟨[], rfl, fun _ hd => absurd hd List.not_mem_nil⟩, ⟨[], rfl⟩,
          ⟨[.stored q stored], rfl, fun _ hq => absurd hq List.not_mem_nil⟩⟩
      refine ⟨hmoved.trans hstored, hu.sent, Copied.dropped hoffered hidle, Or.inr hoffered, fun hd => absurd hd hnever,
        fun e he => ?_, fun _ _ _ _ _ _ _ => ⟨stored, List.mem_cons_self⟩⟩
      rcases List.mem_cons.mp he with rfl | hold
      · obtain ⟨o, snapshot, ho, hassembled, -, rfl⟩ := h.assembled.mp hstaged
        exact Or.inr ⟨rfl, rfl, o, snapshot, _, ho, hassembled, rfl, rfl⟩
      · refine Or.inl ?_
        have hmem : e ∈ u.log := hold
        rw [hlog] at hmem
        exact (List.mem_append.mp hmem).imp (fun hnew => (hminor e hnew).apart) id
  · refine ⟨Later.refl s, rfl, h, Or.inl rfl, fun hd => absurd hd hnever, fun _ he => Or.inl (Or.inr he),
      fun _ _ o snapshot ho hassembled hroute => ?_⟩
    have hsome := hfound o snapshot ho hassembled hroute
    rw [stagedAppSnapshot, if_pos (by simpa using hs)] at hsome
    cases hsome

/-- a copy that is given up -/
theorem dropStaged_settles {type : SnapshotCommandType} {q : Ticket} {accepted : Bool} (s : Sys E)
    (h : accepted = true → type ≠ .snapshotCommit) :
    Settles type q accepted s { s with runtime := dropStaged s.runtime } where
  later := Later.of_runtime rfl rfl rfl
  sent := rfl
  copied := Copied.dropped rfl rfl
  offered := Or.inr rfl
  dropped := fun _ => rfl
  entries := fun _ he => Or.inl (Or.inr he)
  stored := fun hacc htype => absurd htype (h hacc)

theorem settleAppTransfer_spec (type : SnapshotCommandType) (q : Ticket) (outcome : Option Channel.ApplyOutcome) {s : Sys E}
    (h : Copied s.runtime) :
    wp (settleAppTransfer type q outcome) (fun _ t => Settles type q (accepted outcome) s t) s := by
  let raised : Sys E := { s with runtime := { s.runtime with daemonGeneration := s.runtime.daemonGeneration + 1 } }
  unfold settleAppTransfer
  by_cases hcommit : accepted outcome = true ∧ type = .snapshotCommit
  · obtain ⟨hacc, rfl⟩ := hcommit
    dsimp only
    rw [wp_ite]
    refine ⟨fun _ => ?_, fun hno => absurd ⟨hacc, rfl⟩ hno⟩
    have hraised : Copied raised.runtime := h.of_eq rfl
    rw [wp_bind]
    refine wp_mono (P := fun _ u => u = raised) rfl fun _ u hu => ?_
    subst hu
    rw [wp_bind]
    refine wp_mono (commitStagedAppSnapshot_spec q hraised) fun _ t ht => ?_
    rw [if_neg (by simp [hacc]), hacc]
    have hmoved : Later s raised := Later.of_runtime rfl rfl rfl
    exact ⟨hmoved.trans ht.later, ht.sent, ht.copied, ht.offered, ht.dropped, ht.entries, ht.stored⟩
  · have hnever : accepted outcome = true → type ≠ .snapshotCommit := fun hacc htype => hcommit ⟨hacc, htype⟩
    dsimp only
    rw [if_neg hcommit]
    show wp (if !accepted outcome ∨ type = .snapshotAbort then set dropStaged else pure ()) _ s
    rw [wp_ite]
    refine ⟨fun _ => dropStaged_settles s hnever, fun hkeep => ?_⟩
    refine ⟨Later.refl s, rfl, h, Or.inl rfl, fun hd => ?_, fun _ he => Or.inl (Or.inr he), fun hacc htype => absurd htype (hnever hacc)⟩
    exact absurd (hd.imp (fun hacc => by simp [hacc]) id) hkeep

/-- the wait for an answer and what follows from it -/
structure Answered (type : SnapshotCommandType) (q : Ticket) (outcome : Option Channel.ApplyOutcome) (u v w : Sys E) : Prop where
  wait : Advances [] u v
  taken : ∀ o, outcome = some o → Taken q.requestId o u v
  missed : outcome = none → .unanswered q ∈ v.log
  settles : Settles type q (accepted outcome) v w
  whole : Whole w

theorem answer_spec {α : Type} {k : Option Channel.ApplyOutcome → Prog E α} {Q : α → Sys E → Prop} (type : SnapshotCommandType)
    (q : Ticket) {u : Sys E} (hu : Whole u) (hcopied : Copied u.runtime)
    (hk : ∀ outcome v w, Answered type q outcome u v w → wp (k outcome) Q w) :
    wp (awaitApplyOutcome q >>= fun outcome => settleAppTransfer type q outcome >>= fun _ => k outcome) Q u := by
  rw [wp_bind]
  refine wp_mono (awaitApplyOutcome_spec q u) fun outcome v hv => ?_
  obtain ⟨hwait, htaken, hmissed⟩ := hv
  have hwhole : Whole v := hu.advances hwait fun d hd => absurd hd List.not_mem_nil
  have hcopied' : Copied v.runtime := hcopied.of_eq (by rw [hwait.runtime])
  rw [wp_bind]
  refine wp_mono (wp_and (settleAppTransfer_spec type q outcome hcopied')
    ((whole_settleAppTransfer type q outcome).wp hwhole)) fun _ w hw => ?_
  exact hk outcome v w ⟨hwait, htaken, hmissed, hw.1, hw.2⟩

section Answered

variable {type : SnapshotCommandType} {q : Ticket} {outcome : Option Channel.ApplyOutcome} {u v w : Sys E}

theorem Answered.later (h : Answered type q outcome u v w) : Later u w := (Later.of_quiet h.wait).trans h.settles.later

theorem Answered.sent (h : Answered type q outcome u v w) : w.link.sent = u.link.sent := h.settles.sent.trans h.wait.sent

theorem Answered.offered (h : Answered type q outcome u v w) :
    w.runtime.offered = u.runtime.offered ∨ w.runtime.offered = none := by
  rw [← h.wait.runtime]
  exact h.settles.offered

theorem Answered.entries (h : Answered type q outcome u v w) {e : Entry E} (he : e ∈ w.log) :
    (e.Apart ∨ e ∈ u.log) ∨ accepted outcome = true ∧ type = .snapshotCommit ∧ ∃ o snapshot stored,
      u.runtime.offered = some o ∧ o.assembled = some snapshot ∧
      stored = { snapshot with daemonGeneration := stored.daemonGeneration } ∧ e = .stored q stored := by
  obtain ⟨entries, hlog, hminor⟩ := h.wait.log
  rw [← h.wait.runtime]
  refine (h.settles.entries e he).imp (fun hold => ?_) id
  rcases hold with hapart | hold
  · exact Or.inl hapart
  · rw [hlog] at hold
    exact (List.mem_append.mp hold).imp (fun hnew => (hminor e hnew).apart) id

/-- an answer that was heard is that of every context, to this command -/
theorem Answered.fanned (h : Answered type q outcome u v w) (hsound : Sound u.next u.link) {payload : Bytes}
    {older : List Command} (hsent : u.link.sent = ⟨type, payload, q⟩ :: older) (holder : ∀ d ∈ older, d.ticket.lt q)
    (hlife : q.life = u.runtime.life) {o : Channel.ApplyOutcome} (ho : outcome = some o) :
    ∃ others, Note.handled ⟨type, payload, q⟩ others ∈ w.link.trace ∧
      (accepted outcome = true ↔ FannedOut ⟨type, payload, q⟩ others) := by
  obtain ⟨others, hn, hfan⟩ := answer_of_newest hsound hsent holder hlife (h.taken o ho)
  obtain ⟨notes, htrace⟩ := h.settles.later.trace
  refine ⟨others, by rw [htrace]; exact List.mem_append_right _ hn, ?_⟩
  rw [ho]
  exact hfan

end Answered

/-- the frame that was sent is marked -/
def Sys.marked (s : Sys E) (type : SnapshotCommandType) (q : Ticket) : Sys E :=
  { s with runtime := { s.runtime with offered := s.runtime.offered.map (.markSent type q) } }

section Sent

variable {payload : Bytes} {s t u : Sys E}

theorem Commanded.marked_whole {type : SnapshotCommandType} (h : Commanded type payload true s t u) :
    Whole (u.marked type s.next) := whole_set (unread_mark type s.next) u h.whole

theorem Commanded.marked_copied {type : SnapshotCommandType} (h : Commanded type payload true s t u)
    (hcopied : Copied s.runtime) : Copied (u.marked type s.next).runtime := (hcopied.of_eq h.copy).mark type s.next

theorem Commanded.life {type : SnapshotCommandType} (h : Commanded type payload true s t u) :
    s.next.life = u.runtime.life := by
  rw [h.runtime]
  rfl

theorem Commanded.offered {type : SnapshotCommandType} (h : Commanded type payload true s t u) :
    u.runtime.offered = s.runtime.offered := congrArg Prod.snd h.copy

/-- the books of a frame whose answer is there, but for the transfer that is open now -/
theorem Books.answered {type : SnapshotCommandType} (h : Books s) (hsend : Commanded type payload true s t u)
    (htype : type ≠ .snapshotCommit) {outcome : Option Channel.ApplyOutcome} {v w : Sys E}
    (hanswer : Answered type s.next outcome (u.marked type s.next) v w)
    (hconveyed : ∀ o b, w.runtime.offered = some o → o.begun.ticket = some b → Conveyed w o b w.next) : Books w where
  whole := hanswer.whole
  copied := hanswer.settles.copied
  conveyed := hconveyed
  receipts := by
    have hmarked : Later u (u.marked type s.next) := Later.of_runtime rfl rfl rfl
    refine (h.receipts.later ((hsend.later.trans hmarked).trans hanswer.later)).entries fun e he => ?_
    rcases hanswer.entries he with hold | ⟨-, hcommit, -⟩
    · rcases hold with hapart | hold
      · exact Or.inl hapart
      · exact hsend.apart e hold
    · exact absurd hcommit htype

/-- **A CHUNK was sent.** -/
theorem Books.chunk (h : Books s) (hsend : Commanded .snapshotChunk payload true s t u) {before : Option Offered}
    (hgiven : s.runtime.offered = before.map (.grow payload)) : Books (u.marked .snapshotChunk s.next) where
  whole := hsend.marked_whole
  copied := hsend.marked_copied h.copied
  conveyed := by
    intro o b ho hb
    obtain ⟨grown, hgrown, rfl⟩ := Option.map_eq_some_iff.mp ho
    rw [hsend.offered, hgiven] at hgrown
    obtain ⟨o, hbefore, rfl⟩ := Option.map_eq_some_iff.mp hgrown
    have hold := h.conveyed (o.grow payload) b (by rw [hgiven, hbefore]; rfl) hb
    have hsame : Conveyed s o b s.next := ⟨hold.before, hold.begun, hold.own, hold.last, hold.chunks, hold.ordered⟩
    have hnew := hsame.chunk h.whole hsend
    exact ⟨hnew.before, hnew.begun, hnew.own, hnew.last, hnew.chunks, hnew.ordered⟩
  receipts := by
    have hmarked : Later u (u.marked .snapshotChunk s.next) := Later.of_runtime rfl rfl rfl
    exact (h.receipts.later (hsend.later.trans hmarked)).entries hsend.apart

/-- **A BEGIN was sent, and answered or not.** -/
theorem Books.begin (h : Books s) (hsend : Commanded .snapshotBegin payload true s t u)
    (hgiven : s.runtime.offered = some { begun := { payload } }) {outcome : Option Channel.ApplyOutcome} {v w : Sys E}
    (hanswer : Answered .snapshotBegin s.next outcome (u.marked .snapshotBegin s.next) v w) : Books w := by
  refine h.answered hsend (by simp) hanswer fun o b ho hb => ?_
  have hmarked : Later u (u.marked .snapshotBegin s.next) := Later.of_runtime rfl rfl rfl
  have hopen : (u.marked .snapshotBegin s.next).runtime.offered = some { begun := ⟨payload, some s.next⟩ } := by
    show u.runtime.offered.map _ = _
    rw [hsend.offered, hgiven]
    rfl
  rcases hanswer.offered with hkept | hdropped
  · obtain rfl := Option.some.inj ((ho.symm.trans hkept).trans hopen)
    obtain rfl := Option.some.inj hb
    -- a copy that was kept is one of a BEGIN that was accepted
    cases haccepted : accepted outcome with
    | false =>
      have hnone := hanswer.settles.dropped (Or.inl haccepted)
      rw [ho] at hnone
      cases hnone
    | true =>
      obtain ⟨answer, houtcome, -⟩ := accepted_inv haccepted
      obtain ⟨others, hn, hfan⟩ := hanswer.fanned hsend.marked_whole.sound hsend.sent hsend.issued hsend.life houtcome
      exact Conveyed.opened h.whole hsend (hmarked.trans hanswer.later) hanswer.sent hn (hfan.mp haccepted)
  · rw [ho] at hdropped
    cases hdropped

/-- **An ABORT was sent.** -/
theorem Books.abort (h : Books s) (hsend : Commanded .snapshotAbort payload true s t u)
    {outcome : Option Channel.ApplyOutcome} {v w : Sys E}
    (hanswer : Answered .snapshotAbort s.next outcome (u.marked .snapshotAbort s.next) v w) : Books w := by
  refine h.answered hsend (by simp) hanswer fun o b ho _ => ?_
  rw [hanswer.settles.dropped (Or.inr rfl)] at ho
  cases ho

/-- the COMMIT that was sent is entered, with what the daemon holds -/
def Sys.relaying (s : Sys E) (q : Ticket) : Sys E := s.enter (.relayed q s.runtime.routeKeyHash s.runtime.offered)

theorem Commanded.commit_offered (h : Commanded .snapshotCommit payload true s t u) :
    (u.marked .snapshotCommit s.next).runtime.offered = s.runtime.offered := by
  show u.runtime.offered.map _ = _
  rw [h.offered]
  cases s.runtime.offered with
  | none => rfl
  | some o => exact congrArg some (Offered.markSent_other (by simp) (by simp) _ o)

theorem relaying_later (s : Sys E) (q : Ticket) : Later s (s.relaying q) :=
  ⟨Ticket.le_refl _, ⟨[], rfl, fun _ hd => absurd hd List.not_mem_nil⟩, ⟨[], rfl⟩,
    ⟨[.relayed q s.runtime.routeKeyHash s.runtime.offered], rfl, fun _ hq => absurd hq List.not_mem_nil⟩⟩

/-- how the COMMIT has ended -/
theorem Commanded.commit_end (h : Commanded .snapshotCommit payload true s t u) {outcome : Option Channel.ApplyOutcome}
    {v w : Sys E}
    (hanswer : Answered .snapshotCommit s.next outcome ((u.marked .snapshotCommit s.next).relaying s.next) v w) :
    CommitEnd w s.next s.runtime.routeKeyHash s.runtime.offered ∧ (accepted outcome = true → CommitTaken w s.next) := by
  cases houtcome : outcome with
  | none =>
    obtain ⟨entries, hlog, -⟩ := hanswer.settles.later.log
    refine ⟨.unanswered ?_, fun hacc => by cases hacc⟩
    rw [hlog]
    exact List.mem_append_right _ (hanswer.missed houtcome)
  | some answer =>
    obtain ⟨others, hn, hfan⟩ := hanswer.fanned h.marked_whole.sound h.sent h.issued h.life houtcome
    rw [← houtcome]
    refine ⟨?_, fun hacc => ⟨_, others, hn, rfl, rfl, hfan.mp hacc⟩⟩
    cases hacc : accepted outcome with
    | false => exact .refused _ others hn rfl fun hf => absurd (hacc.symm.trans (hfan.mpr hf)) (by decide)
    | true =>
      refine .kept fun o snapshot ho hassembled hroute => ?_
      have hoffered : v.runtime.offered = some o := by
        rw [hanswer.wait.runtime]
        exact h.commit_offered.trans ho
      refine hanswer.settles.stored hacc rfl o snapshot hoffered hassembled ?_
      rw [hroute, hanswer.wait.runtime]
      show _ = u.runtime.routeKeyHash
      rw [h.runtime]

/-- **A COMMIT was sent, and answered or not.** -/
theorem Books.commit (h : Books s) (hsend : Commanded .snapshotCommit payload true s t u)
    {outcome : Option Channel.ApplyOutcome} {v w : Sys E}
    (hanswer : Answered .snapshotCommit s.next outcome ((u.marked .snapshotCommit s.next).relaying s.next) v w) : Books w := by
  have hroute : (u.marked .snapshotCommit s.next).runtime.routeKeyHash = s.runtime.routeKeyHash := by
    show u.runtime.routeKeyHash = _
    rw [hsend.runtime]
  have hmarked : Later u (u.marked .snapshotCommit s.next) := Later.of_runtime rfl rfl rfl
  have hu : Later u w := (hmarked.trans (relaying_later _ _)).trans hanswer.later
  have hlater : Later s w := hsend.later.trans hu
  have hsent : w.link.sent = ⟨.snapshotCommit, payload, s.next⟩ :: s.link.sent := hanswer.sent.trans hsend.sent
  have hspares : Spares s w := by
    refine ⟨hlater, fun d hd hle => ?_⟩
    rw [hsent] at hd
    rcases List.mem_cons.mp hd with rfl | hd
    · exact Or.inl ⟨by simp, by simp⟩
    · exact (Ticket.lt_irrefl_le (hsend.issued d hd) hle).elim
  obtain ⟨hended, htaken⟩ := hsend.commit_end hanswer
  have hnew : Relayed w s.next s.runtime.routeKeyHash s.runtime.offered := by
    refine ⟨Ticket.lt_of_lt_of_le hsend.next hu.next, fun d hd hq => ?_, fun o ho => ?_, fun o b ho hb => ?_, hended⟩
    · rw [hsent] at hd
      rcases List.mem_cons.mp hd with rfl | hd
      · rfl
      · have hlt := hsend.issued d hd
        rw [hq] at hlt
        exact (Ticket.lt_irrefl_le hlt (Ticket.le_refl _)).elim
    · obtain ⟨b, hb, -⟩ := h.copied.declared o ho
      exact ⟨b, hb⟩
    · exact (h.conveyed o b ho hb).later (Ticket.le_refl _) hlater
  have hentry : Entry.relayed s.next s.runtime.routeKeyHash s.runtime.offered ∈ w.log := by
    obtain ⟨entries, hlog, -⟩ := hanswer.later.log
    rw [hlog, ← hroute, ← hsend.commit_offered]
    exact List.mem_append_right _ List.mem_cons_self
  have hentries : ∀ e ∈ w.log, (e.Apart ∨ e ∈ s.log ∨ e = .relayed s.next s.runtime.routeKeyHash s.runtime.offered) ∨
      accepted outcome = true ∧ ∃ o snapshot stored, s.runtime.offered = some o ∧ o.assembled = some snapshot ∧
      stored = { snapshot with daemonGeneration := stored.daemonGeneration } ∧ e = .stored s.next stored := by
    intro e he
    rcases hanswer.entries he with hold | ⟨hacc, -, o, snapshot, stored, ho, rest⟩
    · refine Or.inl ?_
      rcases hold with hapart | hold
      · exact Or.inl hapart
      · rcases List.mem_cons.mp hold with rfl | hold
        · rw [hroute, hsend.commit_offered]
          exact Or.inr (Or.inr rfl)
        · exact (hsend.apart e hold).imp id Or.inl
    · exact Or.inr ⟨hacc, o, snapshot, stored, hsend.commit_offered.symm.trans ho, rest⟩
  refine ⟨hanswer.whole, hanswer.settles.copied, fun o b ho hb => ?_, fun q route offered hmem => ?_, fun q stored hmem => ?_⟩
  · rcases hanswer.offered with hkept | hdropped
    · exact (h.conveyed o b (hsend.commit_offered.symm.trans (hkept.symm.trans ho)) hb).passes hspares
    · rw [ho] at hdropped
      cases hdropped
  · rcases hentries _ hmem with (hapart | hold | heq) | ⟨-, _, _, _, -, -, -, heq⟩
    · exact hapart.elim
    · exact (h.receipts.relayed q route offered hold).later hlater
    · obtain ⟨rfl, rfl, rfl⟩ := Entry.relayed.inj heq
      exact hnew
    · cases heq
  · rcases hentries _ hmem with (hapart | hold | heq) | ⟨hacc, o, snapshot, stored', ho, hassembled, hstored, heq⟩
    · exact hapart.elim
    · exact (h.receipts.stored q stored hold).later hlater
    · cases heq
    · obtain ⟨rfl, rfl⟩ := Entry.stored.inj heq
      exact ⟨⟨_, o, snapshot, ho ▸ hentry, hassembled, hstored⟩, htaken hacc⟩

end Sent

theorem wp_set (f : Runtime → Runtime) (Q : PUnit → Sys E → Prop) (s : Sys E) :
    wp (set f) Q s ↔ Q ⟨⟩ { s with runtime := f s.runtime } := Iff.rfl

theorem wp_note (e : Entry E) (Q : PUnit → Sys E → Prop) (s : Sys E) : wp (note e) Q s ↔ Q ⟨⟩ (s.enter e) := Iff.rfl

theorem wp_connected (Q : Bool → Sys E → Prop) (s : Sys E) : wp connected Q s ↔ Q s.link.client.isSome s := Iff.rfl

/-- **A snapshot command of the App**, whatever becomes of it. -/
theorem books_onSnapshotCommand {type : SnapshotCommandType} {payload : Bytes}
    (haccepts : acceptsCommand type payload = true) : Keeps (Books (E := E)) (onSnapshotCommand type payload) := by
  intro s₀ hs₀
  show wp (onSnapshotCommand type payload) (fun _ t => Books t) s₀
  obtain ⟨hs, hgiven⟩ := hs₀.stage haccepts
  unfold onSnapshotCommand
  rw [wp_bind, wp_get]
  dsimp only
  rw [wp_bind, wp_set]
  generalize hstaged : ({ s₀ with runtime := stageAppSnapshotCommand s₀.runtime type payload } : Sys E) = s at hs ⊢
  have hgiven' : Given type payload s.runtime.offered := by
    rw [← hstaged]
    exact hgiven
  rw [wp_bind, wp_connected, wp_ite]
  refine ⟨fun _ => hs, fun _ => command_spec type payload hs.whole fun sent t u hsend => ?_⟩
  rw [wp_ite]
  refine ⟨fun hunsent => ?_, fun hsent => ?_⟩
  · have hno : sent ≠ true := by simpa using hunsent
    exact hs.passes hsend.whole ⟨hsend.spares fun hyes => absurd hyes hno, hsend.copy, hsend.apart⟩
  · obtain rfl : sent = true := by simpa using hsent
    have hmarked : Whole (u.marked type s.next) := hsend.marked_whole
    have hcopied : Copied (u.marked type s.next).runtime := hsend.marked_copied hs.copied
    rw [wp_bind, wp_set]
    change wp _ _ (u.marked type s.next)
    generalize hoffered : s.runtime.offered = offered at hgiven'
    cases hgiven' with
    | begin =>
      rw [if_neg (by decide), wp_bind, wp_get, if_neg (by decide)]
      refine answer_spec .snapshotBegin s.next hmarked hcopied fun outcome v w hanswer => ?_
      exact hs.begin hsend hoffered hanswer
    | chunk before =>
      rw [if_pos rfl]
      exact hs.chunk hsend hoffered
    | commit =>
      rw [if_neg (by decide), wp_bind, wp_get, if_pos rfl, wp_bind, wp_note]
      have hentered : Whole ((u.marked .snapshotCommit s.next).relaying s.next) :=
        whole_note (e := .relayed _ _ _) trivial _ hmarked
      refine answer_spec .snapshotCommit s.next hentered hcopied fun outcome v w hanswer => ?_
      exact hs.commit hsend hanswer
    | abort =>
      rw [if_neg (by decide), wp_bind, wp_get, if_neg (by decide)]
      refine answer_spec .snapshotAbort s.next hmarked hcopied fun outcome v w hanswer => ?_
      exact hs.abort hsend hanswer

/-! ## Runs -/

theorem books_handleAppMessages (messages : List AppMessage) : Keeps (Books (E := E)) (handleAppMessages messages) := by
  induction messages with
  | nil => exact Keeps.pure _
  | cons m rest ih =>
    refine Keeps.bind ?_ fun _ => ih
    cases m with
    | routeReport report => exact (beside_onRouteReport report).books.bind fun _ => Keeps.pure _
    | snapshotCommand type payload =>
      unfold handleAppMessage
      dsimp only
      split_ifs with haccepts
      · exact (books_onSnapshotCommand haccepts).bind fun _ => Keeps.pure _
      · exact Keeps.pure _

theorem books_runOnce (messages : List AppMessage) : Keeps (Books (E := E)) (runOnce messages) := by
  refine quiet_poll.beside.books.bind fun _ => (books_handleAppMessages messages).bind fun _ => ?_
  refine beside_pollRoute.books.bind fun _ => Keeps.get.bind fun s => ?_
  exact (beside_announcePass _ _).books.bind fun _ => (beside_restorePass _ _).books

theorem Books.of_eq {s t : Sys E} (h : Books s) (ht : Whole t) (hlink : t.link = s.link) (hlog : t.log = s.log)
    (hnext : t.next = s.next) (hcopy : copyOf t.runtime = copyOf s.runtime) : Books t :=
  h.passes ht (Passes.of_eq h.whole hlink hlog hnext hcopy)

/-- **One step of a run.** -/
theorem step_books {s : Sys E} (h : Books s) (op : Op E) : Books (step s op) := by
  have hwhole := step_whole h.whole op
  cases op with
  | driver op =>
    exact h.passes hwhole (Passes.of_quiet h.whole (drive_advances s [op] s.turns s.now))
  | runOnce turns messages =>
    have hs : Books { s with turns } :=
      h.of_eq (h.whole.of_eq rfl rfl rfl (.inl ⟨rfl, rfl⟩)) rfl rfl rfl rfl
    exact (books_runOnce messages _ hs).of_eq hwhole rfl rfl rfl rfl
  | reading identity =>
    refine h.of_eq hwhole ?_ ?_ ?_ ?_
    all_goals
      simp only [step]
      split_ifs <;> rfl
  | wait duration => exact h.of_eq hwhole rfl rfl rfl rfl
  | restart cacheReadable =>
    -- a new process holds nothing of the App's
    obtain ⟨hlink, hlog, hnext, hcopy⟩ := pollRoute_others ({ s with
      adapter := if s.config.appReportedRoutes then (if cacheReadable then s.cache.filter isValidDeviceIdentity else none) else s.adapter
      link := s.link.restartDaemon
      runtime := { life := s.runtime.life + 1 } } : Sys E)
    have hoffered : (step s (.restart cacheReadable)).runtime.offered = none := congrArg Prod.snd hcopy
    have hidle : (step s (.restart cacheReadable)).runtime.appStaging = false := congrArg (fun x => x.1.2.2.2) hcopy
    have hreads := Link.restartDaemon_reads s.link
    have hlater : Later s (step s (.restart cacheReadable)) := by
      refine ⟨?_, ⟨[], ?_, fun _ hd => absurd hd List.not_mem_nil⟩, ⟨[], ?_⟩, ⟨[], hlog, fun _ hq => absurd hq List.not_mem_nil⟩⟩
      · refine Or.inl ?_
        have hlife : (step s (.restart cacheReadable)).next.life = s.runtime.life + 1 := congrArg Ticket.life hnext
        rw [hlife]
        exact Nat.lt_succ_self _
      · exact (congrArg Link.sent hlink).trans hreads.sent
      · exact (congrArg Link.trace hlink).trans hreads.trace
    refine ⟨hwhole, Copied.dropped hoffered hidle, fun o b ho _ => ?_, ?_⟩
    · rw [hoffered] at ho
      cases ho
    · refine (h.receipts.later hlater).entries fun e he => Or.inr ?_
      rw [show (step s (.restart cacheReadable)).log = s.log from hlog] at he
      exact he

theorem run_books {s : Sys E} (h : Books s) (ops : List (Op E)) : Books (run s ops) := by
  induction ops generalizing s with
  | nil => exact h
  | cons op ops ih => exact ih (step_books h op)

theorem boot_books (config : Config) (bootId : ℕ) (store : SnapshotStore) (adapter cache : Option DeviceIdentity) :
    Books (boot config bootId store adapter cache : Sys E) := by
  have hwhole := boot_whole (E := E) config bootId store adapter cache
  obtain ⟨-, hlog, -, hcopy⟩ := pollRoute_others ({
    config, link := Channel.init bootId, store, cache
    adapter := if config.appReportedRoutes then (if true then cache.filter isValidDeviceIdentity else none) else adapter } : Sys E)
  have hoffered : (boot config bootId store adapter cache : Sys E).runtime.offered = none := congrArg Prod.snd hcopy
  have hidle : (boot config bootId store adapter cache : Sys E).runtime.appStaging = false := congrArg (fun x => x.1.2.2.2) hcopy
  have hempty : (boot config bootId store adapter cache : Sys E).log = [] := hlog
  refine ⟨hwhole, Copied.dropped hoffered hidle, fun o b ho _ => ?_, fun q route offered hmem => ?_, fun q stored hmem => ?_⟩
  · rw [hoffered] at ho
    cases ho
  · rw [hempty] at hmem
    cases hmem
  · rw [hempty] at hmem
    cases hmem

end ViperFx.System
