/-
What the history of a driver context says about its state, over every run.

A context that is staging owes it to a BEGIN that was handled and accepted, and no COMMIT of that transfer was handled
since. Its generation pair is the greatest it ever applied, its route the one of the last announce it has seen, and a
snapshot it accepted under a transfer of the daemon is of the route that transfer declared. Each of these is a
predicate on the context and the trace that every driver step preserves.

Results:
  · answer_effect                      : everything a command can do to a context and its history
  · provenance_closed, standing_closed : the predicates, preserved by every step
-/
import ViperFx.Channel.Answers
import ViperFx.System.Runtime

namespace ViperFx.Channel

/-! ## The order of commands -/

namespace Ticket

/-- the order in which tickets are issued -/
def lt (a b : Ticket) : Prop := a.life < b.life ∨ a.life = b.life ∧ a.requestId < b.requestId

def le (a b : Ticket) : Prop := a.life < b.life ∨ a.life = b.life ∧ a.requestId ≤ b.requestId

instance decidableLt (a b : Ticket) : Decidable (a.lt b) :=
  inferInstanceAs (Decidable (a.life < b.life ∨ a.life = b.life ∧ a.requestId < b.requestId))

instance decidableLe (a b : Ticket) : Decidable (a.le b) :=
  inferInstanceAs (Decidable (a.life < b.life ∨ a.life = b.life ∧ a.requestId ≤ b.requestId))

theorem le_refl (a : Ticket) : a.le a := .inr ⟨rfl, le_rfl⟩

theorem le_of_lt {a b : Ticket} (h : a.lt b) : a.le b := by unfold lt at h; unfold le; omega

theorem lt_of_le_of_ne {a b : Ticket} (h : a.le b) (hne : a ≠ b) : a.lt b := by
  obtain ⟨la, ra⟩ := a
  obtain ⟨lb, rb⟩ := b
  simp only [le, lt, ne_eq, Ticket.mk.injEq, not_and] at *
  omega

theorem le_trans {a b c : Ticket} (h : a.le b) (h' : b.le c) : a.le c := by unfold le at *; omega

theorem lt_of_lt_of_le {a b c : Ticket} (h : a.lt b) (h' : b.le c) : a.lt c := by unfold lt at *; unfold le at h'; omega

theorem lt_or_le (a b : Ticket) : a.lt b ∨ b.le a := by unfold lt le; omega

theorem le_antisymm {a b : Ticket} (h : a.le b) (h' : b.le a) : a = b := by
  obtain ⟨la, ra⟩ := a
  obtain ⟨lb, rb⟩ := b
  simp only [le, Ticket.mk.injEq] at *
  omega

theorem lt_irrefl_le {a b : Ticket} (h : a.lt b) (h' : b.le a) : False := by
  unfold lt at h; unfold le at h'; omega

theorem lt_of_le_of_lt {a b c : Ticket} (h : a.le b) (h' : b.lt c) : a.lt c := by
  unfold le at h; unfold lt at *; omega

end Ticket

end ViperFx.Channel

namespace ViperFx.System

open ViperFx.Core ViperFx.Protocol ViperFx.Daemon ViperFx.Channel ViperFx.Driver

/-- under one request id a BEGIN comes first and nothing follows a COMMIT -/
def Follows (d c : SnapshotCommandType) : Prop :=
  (d = .snapshotBegin ∨ d = .snapshotChunk) ∧ (c = .snapshotChunk ∨ c = .snapshotCommit)

/-- what is known of two commands when the first is sent, or handled, before the second -/
def Before (d c : Command) : Prop := d.ticket.le c.ticket ∧ (d.ticket = c.ticket → Follows d.type c.type)

theorem Before.not_begin {d c : Command} (h : Before d c) (ht : d.ticket = c.ticket) : c.type ≠ .snapshotBegin := by
  intro hc
  obtain ⟨-, hf | hf⟩ := h.2 ht <;> rw [hc] at hf <;> cases hf

/-! ## What a command does to a context and its history -/

section History

variable {E : Engine}

theorem landing_of_lands {x : ViperContext E} {c : Command} {outcome : Driver.ApplyOutcome} {snapshot : Snapshot}
    (htype : c.type = .snapshotCommit) (h : x.Lands E c.payload outcome)
    (hd : decodeSnapshot x.snapshotApply.staged = .ok snapshot) :
    landing E x c = [⟨c.ticket, outcome, snapshot⟩] := by
  obtain ⟨⟨p, hp⟩, r, hr, rfl⟩ := h
  simp only [landing, htype, hp, hr, hd]

theorem landing_of_type {x : ViperContext E} {c : Command} (h : c.type ≠ .snapshotCommit) : landing E x c = [] := by
  unfold landing
  split
  · rename_i ht _ _ _
    exact absurd ht h
  · rfl

theorem landing_of_not_lands {x : ViperContext E} {c : Command} (h : ∀ outcome, ¬ x.Lands E c.payload outcome) :
    landing E x c = [] := by
  unfold landing
  split
  · rename_i p r _ _ hp hr _
    exact absurd ⟨⟨p, hp⟩, r, hr, rfl⟩ (h r.outcome)
  · rfl

/-- what a command leaves of a context: what it was before, up to its last error, with nothing new in its history -/
structure Same (x x' : Tracked E) : Prop where
  staging : x'.ctx.snapshotApply.staging = x.ctx.snapshotApply.staging
  metadata : x'.ctx.snapshotApply.metadata = x.ctx.snapshotApply.metadata
  staged : x'.ctx.snapshotApply.staged = x.ctx.snapshotApply.staged
  route : x'.ctx.snapshotApply.deviceKeyHash = x.ctx.snapshotApply.deviceKeyHash
  lastApp : x'.ctx.snapshotApply.lastAppGeneration = x.ctx.snapshotApply.lastAppGeneration
  lastDaemon : x'.ctx.snapshotApply.lastDaemonGeneration = x.ctx.snapshotApply.lastDaemonGeneration
  stagedBy : x'.stagedBy = x.stagedBy
  landings : x'.landings = x.landings
  audible : x'.ctx.dsp.audible = x.ctx.dsp.audible

/-- a context that is not staging; the rest of the controller as before -/
structure Idle (x x' : Tracked E) : Prop where
  staging : x'.ctx.snapshotApply.staging = false
  route : x'.ctx.snapshotApply.deviceKeyHash = x.ctx.snapshotApply.deviceKeyHash

/-- a context that has just accepted a BEGIN -/
def Tracked.opening (x : Tracked E) (c : Command) (b : SnapshotBegin) : Tracked E :=
  { x with
    ctx := { x.ctx with
      snapshotApply := { x.ctx.snapshotApply with metadata := ViperContext.metadataOf b, staged := [], staging := true } }
    stagedBy := some c.ticket }

/-- a context that has just accepted a chunk -/
def Tracked.growing (x : Tracked E) (chunk : SnapshotChunk) : Tracked E :=
  { x with
    ctx := { x.ctx with
      snapshotApply := { x.ctx.snapshotApply with staged := x.ctx.snapshotApply.staged ++ chunk.data } } }

/-- everything a command can do to a context and its history -/
inductive Effect (x : Tracked E) (c : Command) (x' : Tracked E) (accepted : Bool) : Prop
  | adopted (hash : Bytes) (htype : c.type = .routeAnnounce) (hdecode : decodeRouteAnnounce c.payload = .ok { deviceKeyHash := hash })
      (hsame : Same { x with ctx := x.ctx.setDaemonRoute E hash } x') (hack : accepted = true)
  | opened (b : SnapshotBegin) (htype : c.type = .snapshotBegin) (hdecode : decodeSnapshotBegin c.payload = .ok b)
      (hidle : x.ctx.snapshotApply.staging = false) (hroute : b.deviceKeyHash = x.ctx.snapshotApply.deviceKeyHash)
      (hsame : Same (x.opening c b) x') (hack : accepted = true)
  | extended (chunk : SnapshotChunk) (htype : c.type = .snapshotChunk)
      (hdecode : decodeSnapshotChunk c.payload = .ok chunk) (hstaging : x.ctx.snapshotApply.staging = true)
      (hoffset : chunk.offset = UInt32.ofNat x.ctx.snapshotApply.staged.length)
      (hsame : Same (x.growing chunk) x') (hack : accepted = true) (hroom : x.ctx.snapshotApply.staged.length < 2 ^ 32)
  | applied (request : CommitRequest) (htype : c.type = .snapshotCommit)
      (hstaging : x.ctx.snapshotApply.staging = true)
      (hexamine : x.ctx.snapshotApply.examine E.ids = .candidate request) (hidle : Idle x x')
      (happ : x'.ctx.snapshotApply.lastAppGeneration = request.snapshot.appGeneration)
      (hdaemon : x'.ctx.snapshotApply.lastDaemonGeneration = request.snapshot.daemonGeneration)
      (hdsp : x'.ctx.dsp = (commitDaemonSnapshot E x.ctx.dsp request).1)
      (hland : x'.landings = ⟨c.ticket, .applied, request.snapshot⟩ :: x.landings) (hack : accepted = true)
  | repeated (snapshot : Snapshot) (htype : c.type = .snapshotCommit)
      (hstaging : x.ctx.snapshotApply.staging = true)
      (hexamine : x.ctx.snapshotApply.examine E.ids = .idempotent)
      (hdecode : decodeSnapshot x.ctx.snapshotApply.staged = .ok snapshot)
      (hroute : snapshot.deviceKeyHash = x.ctx.snapshotApply.deviceKeyHash) (hidle : Idle x x')
      (happ : x'.ctx.snapshotApply.lastAppGeneration = x.ctx.snapshotApply.lastAppGeneration)
      (hdaemon : x'.ctx.snapshotApply.lastDaemonGeneration = x.ctx.snapshotApply.lastDaemonGeneration)
      (hdsp : x'.ctx.dsp.audible = x.ctx.dsp.audible)
      (hland : x'.landings = ⟨c.ticket, .idempotent, snapshot⟩ :: x.landings) (hack : accepted = true)
  | dropped (htype : c.type = .snapshotChunk ∨ c.type = .snapshotCommit ∨ c.type = .snapshotAbort) (hidle : Idle x x')
      (happ : x'.ctx.snapshotApply.lastAppGeneration = x.ctx.snapshotApply.lastAppGeneration)
      (hdaemon : x'.ctx.snapshotApply.lastDaemonGeneration = x.ctx.snapshotApply.lastDaemonGeneration)
      (hdsp : x'.ctx.dsp.audible = x.ctx.dsp.audible) (hland : x'.landings = x.landings)
      (hack : accepted = true → c.type = .snapshotAbort)
  | kept (htype : c.type = .routeAnnounce ∨ c.type = .snapshotBegin ∨
        x.ctx.snapshotApply.staging = false ∧ (c.type = .snapshotChunk ∨ c.type = .snapshotCommit))
      (hsame : Same x x') (hack : accepted = false)

/-- **Everything a command can do to a context and its history.** -/
theorem answer_effect (x : Tracked E) (c : Command) : Effect x c (answer E x c).1 (answer E x c).2.accepted := by
  have hr := ViperContext.handle_reaction E x.ctx c.type c.payload
  simp only [answer]
  generalize (x.ctx.handleSnapshotCommand E c.type c.payload).1 = x' at hr ⊢
  generalize (x.ctx.handleSnapshotCommand E c.type c.payload).2 = ack at hr ⊢
  cases hr with
  | adopted hash _ _ htype hdecode hx hack =>
    refine .adopted hash htype hdecode ?_ hack
    rw [landing_of_type (by simp [htype])]
    simp only [htype, hx, reduceCtorEq, false_and, if_false, List.nil_append]
    exact ⟨rfl, rfl, rfl, rfl, rfl, rfl, rfl, rfl, rfl⟩
  | opened b _ _ htype hdecode hidle hroute hx hack =>
    refine .opened b htype hdecode hidle hroute ?_ hack
    rw [landing_of_type (by simp [htype])]
    simp only [htype, hx, hack, true_and, if_true, List.nil_append]
    exact ⟨rfl, rfl, rfl, rfl, rfl, rfl, rfl, rfl, rfl⟩
  | extended chunk _ _ htype hdecode hstaging hoffset hx hack =>
    refine .extended chunk htype hdecode hstaging ?_ ?_ hack ?_
    · unfold Controller.appendError at hoffset
      split_ifs at hoffset with ho
      exact not_not.mp ho
    · rw [landing_of_type (by simp [htype])]
      simp only [htype, hx, hack, reduceCtorEq, false_and, if_false, List.nil_append]
      exact ⟨rfl, rfl, rfl, rfl, rfl, rfl, rfl, rfl, rfl⟩
    · -- a chunk that fits leaves what is staged below the declared size
      have htotal := x.ctx.snapshotApply.metadata.totalSize.toNat_lt
      unfold Controller.appendError at hoffset
      split_ifs at hoffset with ho hempty hrange
      rw [List.isEmpty_iff_length_eq_zero] at hempty
      omega
  | applied request resource graph _ _ htype hstaging hexamine hcommit hresult hx hack =>
    have hd := (Controller.examine_candidate hexamine).2.2.1
    refine .applied request htype hstaging hexamine ⟨?_, ?_⟩ ?_ ?_ ?_ ?_ hack
    · rw [hx]; rfl
    · rw [hx]; rfl
    · rw [hx]; rfl
    · rw [hx]; rfl
    · rw [hx]
    · simp only [landing_of_lands htype hresult hd, List.singleton_append]
  | repeated _ _ htype hstaging hexamine hresult hx hack =>
    obtain ⟨snapshot, hd, -, -, hroute, -, -⟩ := Controller.examine_idempotent hexamine
    refine .repeated snapshot htype hstaging hexamine hd hroute ⟨?_, ?_⟩ ?_ ?_ ?_ ?_ hack
    · rw [hx]; rfl
    · rw [hx]; rfl
    · rw [hx]; rfl
    · rw [hx]; rfl
    · rw [hx]
    · simp only [landing_of_lands htype hresult hd, List.singleton_append]
  | aborted _ _ htype hx hack =>
    refine .dropped (.inr (.inr htype)) ⟨?_, ?_⟩ ?_ ?_ ?_ ?_ fun _ => htype
    · rw [hx]; rfl
    · rw [hx]; rfl
    · rw [hx]; rfl
    · rw [hx]; rfl
    · rw [hx]; rfl
    · simp only [landing_of_type (show c.type ≠ .snapshotCommit by simp [htype]), List.nil_append]
  | kept _ _ htype hx hresult hack =>
    refine .kept htype ?_ hack
    have hland : landing E x.ctx c = [] := by
      by_cases ht : c.type = .snapshotCommit
      · exact landing_of_not_lands (hresult ht)
      · exact landing_of_type ht
    simp only [hland, hack, Bool.false_eq_true, and_false, if_false, List.nil_append]
    rcases hx with rfl | ⟨e, rfl⟩ <;> exact ⟨rfl, rfl, rfl, rfl, rfl, rfl, rfl, rfl, rfl⟩
  | dropped e e' _ _ htype hx hdsp hresult hack =>
    have hland : landing E x.ctx c = [] := by
      by_cases ht : c.type = .snapshotCommit
      · exact landing_of_not_lands (hresult ht)
      · exact landing_of_type ht
    refine .dropped (htype.elim .inl fun h => .inr (.inl h)) ⟨?_, ?_⟩ ?_ ?_ ?_ ?_ fun h => ?_
    · simp only [hx]; rfl
    · simp only [hx]; rfl
    · simp only [hx]; rfl
    · simp only [hx]; rfl
    · exact hdsp
    · simp only [hland, List.nil_append]
    · rw [hack] at h
      cases h

/-! ## Where a transfer comes from -/

/-- the fan-out of a command was accepted by every context there was -/
def FannedOut (c : Command) (contexts : Table ℕ (DriverContext (Tracked E))) : Prop :=
  (Link.applySnapshotCommand (applier E) contexts c).2.accepted = true

/-- the transfer a context is staging: the BEGIN that opened it, with nothing since that would have ended it -/
structure OpenedBy (trace : List (Note (Tracked E))) (x : Tracked E) (q : Ticket) : Prop where
  begun : ∃ c contexts b, Note.handled c contexts ∈ trace ∧ c.type = .snapshotBegin ∧ c.ticket = q ∧
    decodeSnapshotBegin c.payload = .ok b ∧ x.ctx.snapshotApply.metadata = ViperContext.metadataOf b ∧
    ∃ id y, contexts.get? id = some y ∧ (answer E y.ext c).2.accepted = true
  uncommitted : ∀ d ∈ handledCommands trace, d.ticket = q → d.type ≠ .snapshotCommit
  route : x.ctx.snapshotApply.deviceKeyHash = x.ctx.snapshotApply.metadata.deviceKeyHash ∨
    ∃ d ∈ handledCommands trace, d.type = .routeAnnounce ∧ q.lt d.ticket
  agreed : ∀ c contexts, Note.handled c contexts ∈ trace → c.type = .snapshotBegin → FannedOut c contexts →
    c.ticket.le q

theorem OpenedBy.handled {trace : List (Note (Tracked E))} {x x' : Tracked E} {q : Ticket} (h : OpenedBy trace x q)
    {c : Command} {contexts : Table ℕ (DriverContext (Tracked E))}
    (hmeta : x'.ctx.snapshotApply.metadata = x.ctx.snapshotApply.metadata)
    (hcommit : c.type ≠ .snapshotCommit)
    (hroute : x'.ctx.snapshotApply.deviceKeyHash = x.ctx.snapshotApply.deviceKeyHash ∨
      c.type = .routeAnnounce ∧ q.lt c.ticket)
    (hagreed : c.type = .snapshotBegin → FannedOut c contexts → c.ticket.le q) :
    OpenedBy (.handled c contexts :: trace) x' q where
  begun := by
    obtain ⟨d, others, b, hn, hd, hq, hb, hm, hacc⟩ := h.begun
    exact ⟨d, others, b, List.mem_cons_of_mem _ hn, hd, hq, hb, hmeta.trans hm, hacc⟩
  uncommitted := by
    intro d hd hq
    rcases List.mem_cons.mp hd with rfl | hd
    · exact hcommit
    · exact h.uncommitted d hd hq
  route := by
    rcases hroute with hr | ⟨ht, hlt⟩
    · rw [hmeta, hr]
      exact h.route.imp id fun ⟨d, hd, rest⟩ => ⟨d, List.mem_cons_of_mem _ hd, rest⟩
    · exact .inr ⟨c, List.mem_cons_self, ht, hlt⟩
  agreed := by
    intro d others hn hd hf
    rcases List.mem_cons.mp hn with heq | hn
    · obtain ⟨rfl, rfl⟩ := Note.handled.inj heq
      exact hagreed hd hf
    · exact h.agreed d others hn hd hf

theorem OpenedBy.registered {trace : List (Note (Tracked E))} {x : Tracked E} {q : Ticket} (h : OpenedBy trace x q)
    (id : ℕ) (known : Bool) : OpenedBy (.registered id known :: trace) x q where
  begun := by
    obtain ⟨d, others, b, hn, rest⟩ := h.begun
    exact ⟨d, others, b, List.mem_cons_of_mem _ hn, rest⟩
  uncommitted := h.uncommitted
  route := h.route
  agreed := by
    intro d others hn
    rcases List.mem_cons.mp hn with heq | hn
    · cases heq
    · exact h.agreed d others hn

/-- the transfer was begun by a command that was handled -/
theorem OpenedBy.begin_handled {trace : List (Note (Tracked E))} {x : Tracked E} {q : Ticket} (h : OpenedBy trace x q) :
    ∃ d ∈ handledCommands trace, ∃ b, d.type = .snapshotBegin ∧ d.ticket = q ∧ decodeSnapshotBegin d.payload = .ok b ∧
      x.ctx.snapshotApply.metadata = ViperContext.metadataOf b := by
  obtain ⟨c, contexts, b, hn, ht, hq, hb, hm, -⟩ := h.begun
  exact ⟨c, Link.mem_handledCommands.mpr ⟨contexts, hn⟩, b, ht, hq, hb, hm⟩

open Controller in
/-- what the history of a context says about it -/
structure Provenance (_id : ℕ) (trace : List (Note (Tracked E))) (x : Tracked E) : Prop where
  opened : x.ctx.snapshotApply.staging = true → ∃ q, x.stagedBy = some q ∧ OpenedBy trace x q
  newest : (x.ctx.snapshotApply.lastAppGeneration = 0 ∧ x.ctx.snapshotApply.lastDaemonGeneration = 0) ∨
    ∃ e ∈ x.landings, e.outcome = .applied ∧ e.snapshot.appGeneration = x.ctx.snapshotApply.lastAppGeneration ∧
      e.snapshot.daemonGeneration = x.ctx.snapshotApply.lastDaemonGeneration
  committed : ∀ e ∈ x.landings, ∃ d ∈ handledCommands trace, d.type = .snapshotCommit ∧ d.ticket = e.ticket
  landed : ∀ e ∈ x.landings, ∀ c contexts, Note.handled c contexts ∈ trace → c.type = .snapshotBegin →
    c.ticket = e.ticket → FannedOut c contexts → ∃ d ∈ handledCommands trace, ∃ b, d.type = .snapshotBegin ∧
      d.ticket = e.ticket ∧ decodeSnapshotBegin d.payload = .ok b ∧ e.snapshot.deviceKeyHash = b.deviceKeyHash

/-- nothing is new in the history but the note, and the note is no COMMIT of this context -/
theorem Provenance.landed_handled {id : ℕ} {trace : List (Note (Tracked E))} {x : Tracked E} (h : Provenance id trace x)
    {c : Command} {contexts : Table ℕ (DriverContext (Tracked E))} (hbefore : ∀ d ∈ handledCommands trace, Before d c)
    {e : Landing} (he : e ∈ x.landings) {d : Command} {others : Table ℕ (DriverContext (Tracked E))}
    (hn : Note.handled d others ∈ .handled c contexts :: trace) (hd : d.type = .snapshotBegin) (hq : d.ticket = e.ticket)
    (hf : FannedOut d others) : ∃ d' ∈ handledCommands (.handled c contexts :: trace), ∃ b, d'.type = .snapshotBegin ∧
      d'.ticket = e.ticket ∧ decodeSnapshotBegin d'.payload = .ok b ∧ e.snapshot.deviceKeyHash = b.deviceKeyHash := by
  rcases List.mem_cons.mp hn with heq | hn
  · -- a BEGIN under the ticket of a COMMIT that was handled before
    obtain ⟨rfl, rfl⟩ := Note.handled.inj heq
    obtain ⟨d', hd', -, hq'⟩ := h.committed e he
    exact absurd hd ((hbefore d' hd').not_begin (hq'.trans hq.symm))
  · obtain ⟨d', hd', rest⟩ := h.landed e he d others hn hd hq hf
    exact ⟨d', List.mem_cons_of_mem _ hd', rest⟩

theorem Provenance.committed_handled {id : ℕ} {trace : List (Note (Tracked E))} {x : Tracked E}
    (h : Provenance id trace x) {c : Command} {contexts : Table ℕ (DriverContext (Tracked E))} {e : Landing}
    (he : e ∈ x.landings) : ∃ d ∈ handledCommands (.handled c contexts :: trace), d.type = .snapshotCommit ∧
      d.ticket = e.ticket := by
  obtain ⟨d, hd, rest⟩ := h.committed e he
  exact ⟨d, List.mem_cons_of_mem _ hd, rest⟩

/-- a COMMIT that lands: it is of the route the BEGIN under its ticket declared -/
theorem OpenedBy.landed {trace : List (Note (Tracked E))} {x : Tracked E} {q : Ticket} (h : OpenedBy trace x q)
    {c : Command} {contexts : Table ℕ (DriverContext (Tracked E))} (hbefore : ∀ d ∈ handledCommands trace, Before d c)
    {snapshot : Snapshot} (hroute : snapshot.deviceKeyHash = x.ctx.snapshotApply.deviceKeyHash)
    (hcommit : c.type = .snapshotCommit) {d : Command} {others : Table ℕ (DriverContext (Tracked E))}
    (hn : Note.handled d others ∈ .handled c contexts :: trace) (hd : d.type = .snapshotBegin) (hq : d.ticket = c.ticket)
    (hf : FannedOut d others) : ∃ d' ∈ handledCommands (.handled c contexts :: trace), ∃ b, d'.type = .snapshotBegin ∧
      d'.ticket = c.ticket ∧ decodeSnapshotBegin d'.payload = .ok b ∧ snapshot.deviceKeyHash = b.deviceKeyHash := by
  have hold : Note.handled d others ∈ trace := by
    rcases List.mem_cons.mp hn with heq | hn
    · obtain ⟨rfl, -⟩ := Note.handled.inj heq
      rw [hcommit] at hd
      cases hd
    · exact hn
  obtain ⟨d', hd', b, ht', hq', hb, hm⟩ := h.begin_handled
  -- the context is staging this very transfer: neither an earlier nor a later one
  have hqc : q = c.ticket := Ticket.le_antisymm (hq' ▸ (hbefore d' hd').1) (hq ▸ h.agreed d others hold hd hf)
  refine ⟨d', List.mem_cons_of_mem _ hd', b, ht', hq'.trans hqc, hb, ?_⟩
  rcases h.route with hr | ⟨a, ha, -, hlt⟩
  · rw [hroute, hr, hm]
    rfl
  · exact absurd (hbefore a ha).1 fun hle => Ticket.lt_irrefl_le hlt (hqc ▸ hle)

theorem provenance_answer {id : ℕ} {trace : List (Note (Tracked E))} {x : Tracked E} (h : Provenance id trace x)
    (c : Command) (contexts : Table ℕ (DriverContext (Tracked E))) {y : DriverContext (Tracked E)}
    (hy : contexts.get? id = some y) (hyx : y.ext = x) (hbefore : ∀ d ∈ handledCommands trace, Before d c) :
    Provenance id (.handled c contexts :: trace) (answer E x c).1 := by
  have hcommitted : ∀ e ∈ x.landings, ∃ d ∈ handledCommands (.handled c contexts :: trace),
      d.type = .snapshotCommit ∧ d.ticket = e.ticket := fun e he => h.committed_handled he
  have hlanded : ∀ e ∈ x.landings, ∀ d others, Note.handled d others ∈ .handled c contexts :: trace →
      d.type = .snapshotBegin → d.ticket = e.ticket → FannedOut d others →
      ∃ d' ∈ handledCommands (.handled c contexts :: trace), ∃ b, d'.type = .snapshotBegin ∧ d'.ticket = e.ticket ∧
        decodeSnapshotBegin d'.payload = .ok b ∧ e.snapshot.deviceKeyHash = b.deviceKeyHash :=
    fun e he d others hn hd hq hf => h.landed_handled hbefore he hn hd hq hf
  have hans := answer_effect x c
  generalize hx' : (answer E x c).1 = x' at hans ⊢
  cases hans with
  | adopted hash htype hdecode hsame hack =>
    refine ⟨fun hs => ?_, ?_, ?_, ?_⟩
    · obtain ⟨q, hq, ho⟩ := h.opened (hsame.staging ▸ hs)
      refine ⟨q, hsame.stagedBy.trans hq, ho.handled hsame.metadata (by simp [htype]) (.inr ⟨htype, ?_⟩)
        (by simp [htype])⟩
      obtain ⟨d, hd, b, hdt, hdq, -⟩ := ho.begin_handled
      have hb := hbefore d hd
      refine hdq ▸ Ticket.lt_of_le_of_ne hb.1 fun heq => ?_
      obtain ⟨-, hf | hf⟩ := hb.2 heq <;> rw [htype] at hf <;> cases hf
    · rw [hsame.lastApp, hsame.lastDaemon, hsame.landings]
      exact h.newest
    · rw [hsame.landings]
      exact hcommitted
    · rw [hsame.landings]
      exact hlanded
  | opened b htype hdecode hidle hroute hsame hack =>
    refine ⟨fun _ => ⟨c.ticket, hsame.stagedBy, ?_, ?_, ?_, ?_⟩, ?_, ?_, ?_⟩
    · refine ⟨c, contexts, b, List.mem_cons_self, htype, rfl, hdecode, hsame.metadata, id, y, hy, ?_⟩
      rw [hyx]
      exact hack
    · intro d hd hq
      rcases List.mem_cons.mp hd with rfl | hd
      · rw [htype]
        decide
      · exact absurd htype ((hbefore d hd).not_begin hq)
    · left
      rw [hsame.route, hsame.metadata]
      exact hroute.symm
    · intro d others hn hd hf
      rcases List.mem_cons.mp hn with heq | hn
      · obtain ⟨rfl, -⟩ := Note.handled.inj heq
        exact Ticket.le_refl _
      · exact (hbefore d (Link.mem_handledCommands.mpr ⟨others, hn⟩)).1
    · rw [hsame.lastApp, hsame.lastDaemon, hsame.landings]
      exact h.newest
    · rw [hsame.landings]
      exact hcommitted
    · rw [hsame.landings]
      exact hlanded
  | extended chunk htype hdecode hstaging hoffset hsame hack =>
    refine ⟨fun _ => ?_, ?_, ?_, ?_⟩
    · obtain ⟨q, hq, ho⟩ := h.opened hstaging
      exact ⟨q, hsame.stagedBy.trans hq, ho.handled hsame.metadata (by simp [htype]) (.inl hsame.route) (by simp [htype])⟩
    · rw [hsame.lastApp, hsame.lastDaemon, hsame.landings]
      exact h.newest
    · rw [hsame.landings]
      exact hcommitted
    · rw [hsame.landings]
      exact hlanded
  | applied request htype hstaging hexamine hidle happ hdaemon hdsp hland hack =>
    obtain ⟨q, -, ho⟩ := h.opened hstaging
    obtain ⟨-, -, -, hroute, -⟩ := Controller.examine_candidate hexamine
    refine ⟨fun hs => ?_, .inr ⟨_, by rw [hland]; exact List.mem_cons_self, rfl, happ.symm, hdaemon.symm⟩, ?_, ?_⟩
    · rw [hidle.staging] at hs
      cases hs
    · rw [hland]
      intro e he
      rcases List.mem_cons.mp he with rfl | he
      · exact ⟨c, List.mem_cons_self, htype, rfl⟩
      · exact hcommitted e he
    · rw [hland]
      intro e he d others hn hd hq hf
      rcases List.mem_cons.mp he with rfl | he
      · exact ho.landed hbefore hroute htype hn hd hq hf
      · exact hlanded e he d others hn hd hq hf
  | repeated snapshot htype hstaging hexamine hdecode hroute hidle happ hdaemon hdsp hland hack =>
    obtain ⟨q, -, ho⟩ := h.opened hstaging
    refine ⟨fun hs => ?_, ?_, ?_, ?_⟩
    · rw [hidle.staging] at hs
      cases hs
    · rw [happ, hdaemon, hland]
      exact h.newest.imp (fun h => h) fun ⟨e, he, rest⟩ => ⟨e, List.mem_cons_of_mem _ he, rest⟩
    · rw [hland]
      intro e he
      rcases List.mem_cons.mp he with rfl | he
      · exact ⟨c, List.mem_cons_self, htype, rfl⟩
      · exact hcommitted e he
    · rw [hland]
      intro e he d others hn hd hq hf
      rcases List.mem_cons.mp he with rfl | he
      · exact ho.landed hbefore hroute htype hn hd hq hf
      · exact hlanded e he d others hn hd hq hf
  | dropped htype hidle happ hdaemon hdsp hland hack =>
    refine ⟨fun hs => ?_, ?_, ?_, ?_⟩
    · rw [hidle.staging] at hs
      cases hs
    · rw [happ, hdaemon, hland]
      exact h.newest
    · rw [hland]
      exact hcommitted
    · rw [hland]
      exact hlanded
  | kept htype hsame hack =>
    refine ⟨fun hs => ?_, ?_, ?_, ?_⟩
    · have hs' := hsame.staging ▸ hs
      obtain ⟨q, hq, ho⟩ := h.opened hs'
      have hcommit : c.type ≠ .snapshotCommit := by
        rcases htype with ht | ht | ⟨hidle, -⟩
        · simp [ht]
        · simp [ht]
        · rw [hidle] at hs'
          cases hs'
      refine ⟨q, hsame.stagedBy.trans hq, ho.handled hsame.metadata hcommit (.inl hsame.route) fun ht hf => ?_⟩
      -- a fan-out that every context accepted was accepted by this one
      have hacc := Link.applySnapshotCommand_accepted (applier E) contexts c hf id y hy
      rw [hyx] at hacc
      exact absurd (hacc.symm.trans hack) (by decide)
    · rw [hsame.lastApp, hsame.lastDaemon, hsame.landings]
      exact h.newest
    · rw [hsame.landings]
      exact hcommitted
    · rw [hsame.landings]
      exact hlanded

/-- the work of a context's own threads -/
def Works (f : Tracked E → Tracked E) : Prop := ∃ g, f = Tracked.work g

/-- **The history of a context explains its state**, whatever the driver does. -/
theorem provenance_closed : Link.Closed (applier E) Before Works (Provenance (E := E)) where
  fresh := fun id known trace =>
    ⟨(fun h => by cases h), .inl ⟨rfl, rfl⟩, (fun e he => by cases he), (fun e he => by cases he)⟩
  registered := fun id id' known trace x hne h => by
    refine ⟨fun hs => ?_, h.newest, h.committed, fun e he c contexts hn => ?_⟩
    · obtain ⟨q, hq, ho⟩ := h.opened hs
      exact ⟨q, hq, ho.registered id' known⟩
    · rcases List.mem_cons.mp hn with heq | hn
      · cases heq
      · exact h.landed e he c contexts hn
  worked := fun id f trace x hf h => by
    obtain ⟨g, rfl⟩ := hf
    refine ⟨fun hs => ?_, h.newest, h.committed, h.landed⟩
    obtain ⟨q, hq, ho⟩ := h.opened hs
    exact ⟨q, hq, ho.begun, ho.uncommitted, ho.route, ho.agreed⟩
  handled := fun id contexts c trace y hy hbefore h => provenance_answer h c contexts hy rfl hbefore

/-! ## The route of a context and the order of what it applied -/

/-- the route a command announces -/
def announced (c : Command) : Option Bytes :=
  if c.type = .routeAnnounce then (decodeRouteAnnounce c.payload).toOption.map RouteAnnounce.deviceKeyHash else none

/-- the route a context has according to the trace: none when it has registered and seen no announce since -/
def routeSeen (id : ℕ) : List (Note (Tracked E)) → Option Bytes
  | [] => none
  | .registered id' _ :: older => if id' = id then some [] else routeSeen id older
  | .handled c _ :: older => (announced c).or (routeSeen id older)
  | .restarted :: older => routeSeen id older

theorem routeSeen_append (id : ℕ) (newer older : List (Note (Tracked E))) :
    routeSeen id (newer ++ older) = (routeSeen id newer).or (routeSeen id older) := by
  induction newer with
  | nil => rfl
  | cons n newer ih =>
    cases n with
    | registered id' known =>
      simp only [List.cons_append, routeSeen]
      split_ifs
      · rfl
      · exact ih
    | handled c contexts => simp only [List.cons_append, routeSeen, ih, Option.or_assoc]
    | restarted => exact ih

/-- a context that takes a command takes the route it announces, and no other -/
theorem answer_route (x : Tracked E) (c : Command) :
    (answer E x c).1.ctx.snapshotApply.deviceKeyHash = (announced c).getD x.ctx.snapshotApply.deviceKeyHash := by
  have hnone : c.type ≠ .routeAnnounce → announced c = none := fun ht => by simp [announced, ht]
  have hknown : ∀ hash, c.type = .routeAnnounce → decodeRouteAnnounce c.payload = .ok { deviceKeyHash := hash } →
      announced c = some hash := fun hash ht hd => by simp [announced, ht, hd, Except.toOption]
  have heff := answer_effect x c
  have hack : ∀ a, c.type = .routeAnnounce → decodeRouteAnnounce c.payload = .ok a → (answer E x c).2.accepted = true := by
    intro a ht hd
    simp only [answer, ht, ViperContext.handleSnapshotCommand, hd]
  generalize (answer E x c).1 = x' at heff ⊢
  cases heff with
  | adopted hash htype hdecode hsame _ =>
    rw [hknown hash htype hdecode, hsame.route]
    rfl
  | opened _ htype _ _ _ hsame _ => rw [hnone (by simp [htype]), hsame.route]; rfl
  | extended _ htype _ _ _ hsame _ => rw [hnone (by simp [htype]), hsame.route]; rfl
  | applied _ htype _ _ hidle => rw [hnone (by simp [htype]), hidle.route]; rfl
  | repeated _ htype _ _ _ _ hidle => rw [hnone (by simp [htype]), hidle.route]; rfl
  | dropped htype hidle =>
    have hne : c.type ≠ .routeAnnounce := by rcases htype with ht | ht | ht <;> simp [ht]
    rw [hnone hne, hidle.route]
    rfl
  | kept _ hsame hrefused =>
    rw [hsame.route]
    by_cases ht : c.type = .routeAnnounce
    · cases hd : decodeRouteAnnounce c.payload with
      | error e => simp [announced, ht, hd, Except.toOption]
      | ok a => exact absurd ((hack a ht hd).symm.trans hrefused) (by decide)
    · rw [hnone ht]
      rfl

open Controller in
/-- the route of a context is the last one it has seen announced; the generation pair it holds is above all it accepted;
and what it accepted was of its route at that time -/
structure Standing (id : ℕ) (trace : List (Note (Tracked E))) (x : Tracked E) : Prop where
  route : x.ctx.snapshotApply.deviceKeyHash = (routeSeen id trace).getD []
  rank : ∀ e ∈ x.landings, ¬ olderThan x.ctx.snapshotApply.lastAppGeneration x.ctx.snapshotApply.lastDaemonGeneration
    e.snapshot.appGeneration e.snapshot.daemonGeneration
  landed : ∀ e ∈ x.landings, ∃ newer c contexts older, trace = newer ++ .handled c contexts :: older ∧
    c.type = .snapshotCommit ∧ c.ticket = e.ticket ∧ (∀ known, .registered id known ∉ newer) ∧
    e.snapshot.deviceKeyHash = (routeSeen id older).getD []

theorem Standing.landed_cons {id : ℕ} {trace : List (Note (Tracked E))} {x : Tracked E} (h : Standing id trace x)
    {n : Note (Tracked E)} (hn : ∀ known, n ≠ .registered id known) {e : Landing} (he : e ∈ x.landings) :
    ∃ newer c contexts older, n :: trace = newer ++ .handled c contexts :: older ∧ c.type = .snapshotCommit ∧
      c.ticket = e.ticket ∧ (∀ known, .registered id known ∉ newer) ∧
      e.snapshot.deviceKeyHash = (routeSeen id older).getD [] := by
  obtain ⟨newer, c, contexts, older, rfl, htype, hq, hreg, hroute⟩ := h.landed e he
  refine ⟨n :: newer, c, contexts, older, rfl, htype, hq, fun known hmem => ?_, hroute⟩
  rcases List.mem_cons.mp hmem with heq | hmem
  · exact hn known heq.symm
  · exact hreg known hmem

/-- what a COMMIT that lands adds to the history -/
theorem Standing.landed_commit {id : ℕ} {trace : List (Note (Tracked E))} {x : Tracked E} (h : Standing id trace x)
    {c : Command} (contexts : Table ℕ (DriverContext (Tracked E))) (htype : c.type = .snapshotCommit)
    {snapshot : Snapshot} (hroute : snapshot.deviceKeyHash = x.ctx.snapshotApply.deviceKeyHash)
    (outcome : Driver.ApplyOutcome) : ∀ e ∈ ⟨c.ticket, outcome, snapshot⟩ :: x.landings,
      ∃ newer d others older, .handled c contexts :: trace = newer ++ .handled d others :: older ∧
        d.type = .snapshotCommit ∧ d.ticket = e.ticket ∧ (∀ known, .registered id known ∉ newer) ∧
        e.snapshot.deviceKeyHash = (routeSeen id older).getD [] := by
  intro e he
  rcases List.mem_cons.mp he with rfl | he
  · refine ⟨[], c, contexts, trace, rfl, htype, rfl, (fun known hmem => by cases hmem), ?_⟩
    rw [← h.route]
    exact hroute
  · exact h.landed_cons (by simp) he

theorem standing_answer {id : ℕ} {trace : List (Note (Tracked E))} {x : Tracked E} (h : Standing id trace x)
    (c : Command) (contexts : Table ℕ (DriverContext (Tracked E))) :
    Standing id (.handled c contexts :: trace) (answer E x c).1 := by
  have hroute : (answer E x c).1.ctx.snapshotApply.deviceKeyHash =
      (routeSeen id (.handled c contexts :: trace)).getD [] := by
    rw [answer_route, h.route]
    simp only [routeSeen]
    cases announced c <;> rfl
  have hland : ∀ e ∈ x.landings, ∃ newer d others older,
      .handled c contexts :: trace = newer ++ .handled d others :: older ∧ d.type = .snapshotCommit ∧
      d.ticket = e.ticket ∧ (∀ known, .registered id known ∉ newer) ∧
      e.snapshot.deviceKeyHash = (routeSeen id older).getD [] := fun e he => h.landed_cons (by simp) he
  have heff := answer_effect x c
  generalize (answer E x c).1 = x' at heff hroute ⊢
  cases heff with
  | adopted hash _ _ hsame _ =>
    refine ⟨hroute, ?_, hsame.landings ▸ hland⟩
    rw [hsame.lastApp, hsame.lastDaemon, hsame.landings]
    exact h.rank
  | opened b _ _ _ _ hsame _ =>
    refine ⟨hroute, ?_, hsame.landings ▸ hland⟩
    rw [hsame.lastApp, hsame.lastDaemon, hsame.landings]
    exact h.rank
  | extended chunk _ _ _ _ hsame _ =>
    refine ⟨hroute, ?_, hsame.landings ▸ hland⟩
    rw [hsame.lastApp, hsame.lastDaemon, hsame.landings]
    exact h.rank
  | applied request htype _ hexamine _ happ hdaemon _ hlanding _ =>
    obtain ⟨-, -, -, hhash, -, -, hnewer, -⟩ := Controller.examine_candidate hexamine
    refine ⟨hroute, ?_, hlanding ▸ h.landed_commit contexts htype hhash _⟩
    rw [happ, hdaemon, hlanding]
    intro e he
    rcases List.mem_cons.mp he with rfl | he
    · exact Controller.olderThan_irrefl _ _
    · exact fun hold => hnewer (Controller.olderThan_of_not_le hold (h.rank e he))
  | repeated snapshot htype _ hexamine hdecode hhash _ happ hdaemon _ hlanding _ =>
    obtain ⟨snapshot', hdecode', -, -, -, happ', hdaemon'⟩ := Controller.examine_idempotent hexamine
    obtain rfl := Except.ok.inj (hdecode.symm.trans hdecode')
    refine ⟨hroute, ?_, hlanding ▸ h.landed_commit contexts htype hhash _⟩
    rw [happ, hdaemon, hlanding]
    intro e he
    rcases List.mem_cons.mp he with rfl | he
    · simp only [happ', hdaemon']
      exact Controller.olderThan_irrefl _ _
    · exact h.rank e he
  | dropped _ _ happ hdaemon _ hlanding _ =>
    refine ⟨hroute, ?_, hlanding ▸ hland⟩
    rw [happ, hdaemon, hlanding]
    exact h.rank
  | kept _ hsame _ =>
    refine ⟨hroute, ?_, hsame.landings ▸ hland⟩
    rw [hsame.lastApp, hsame.lastDaemon, hsame.landings]
    exact h.rank

theorem standing_closed : Link.Closed (applier E) Before Works (Standing (E := E)) where
  fresh := fun id known trace => ⟨by simp [routeSeen, applier], (fun e he => by cases he), (fun e he => by cases he)⟩
  registered := fun id id' known trace x hne h => by
    refine ⟨?_, h.rank, fun e he => h.landed_cons (fun known' heq => ?_) he⟩
    · rw [h.route]
      simp only [routeSeen, if_neg (Ne.symm hne)]
    · obtain ⟨rfl, -⟩ := Note.registered.inj heq
      exact hne rfl
  worked := fun id f trace x hf h => by
    obtain ⟨g, rfl⟩ := hf
    exact ⟨h.route, h.rank, h.landed⟩
  handled := fun id contexts c trace y hy _ h => standing_answer h c contexts

end History

end ViperFx.System
