/-
Whether a restore stays armed until it has landed: `DaemonRuntime::RunOnce` of `daemon/DaemonRuntime.cpp`, over every run.

A restore is armed by a change of the route, by a new connection, and by a context that joins the registry. The pass that tries it
lowers the flag and takes the context generation as restored, whatever became of the try: a context that refused it, since it is
not configured yet, is not tried again, and a context that joined while the answer was waited for counts as restored.

What is left is `Covers`: a context that is listed and has accepted no snapshot of the route is one that joined after the last
try. The world keeps it as long as no context is registered under a key that the registry lists; a pass keeps it as long as its
restore lands.

Results:
  · restore_disarmed    : a context that is not configured refuses the restore, and nothing is armed any more
  · deliver_grows       : a context that joins the registry raises its generation
  · Covers.drive        : what the driver does leaves no new context uncovered
  · restorePass_covered : a pass whose restore lands
  · restore_stays_armed : in every run in which every restore lands
-/
import ViperFx.Channel.Gaps
import ViperFx.System.Inheritance

namespace ViperFx.System

open ViperFx.Core ViperFx.Protocol ViperFx.Daemon ViperFx.Channel ViperFx.Driver

variable {E : Engine}

/-! ## Contexts without a snapshot -/

/-- the context has accepted a snapshot of the route -/
def HasSnapshot (hash : Bytes) (x : Tracked E) : Prop := ∃ e ∈ x.landings, e.snapshot.deviceKeyHash = hash

/-- the registry lists the context -/
def Listed (l : Link (Tracked E)) (id : ℕ) : Prop := (l.registry.contexts.get? ⟨l.driver.bootId, id⟩).isSome = true

/-- some live context that is listed has accepted no snapshot of the route since it was created -/
def Lacking (hash : Bytes) (l : Link (Tracked E)) : Prop := ∃ id x, l.context id = some x ∧ Listed l id ∧ ¬ HasSnapshot hash x

/-- a further restore is armed -/
def Armed (s : Sys E) : Prop :=
  s.runtime.routeRestorePending = true ∨ s.link.registry.contextGeneration ≠ s.runtime.restoredContextGeneration

/-- there is a snapshot to restore, and nothing in the way of it -/
structure Restorable (s : Sys E) : Prop where
  enabled : s.config.restoreEnabled = true
  connected : s.link.client.isSome = true
  announced : s.runtime.announcedRouteHash = s.runtime.routeKeyHash
  settled : routeSettled s = true
  usable : (usableSnapshot s.store s.runtime.routeKeyHash).isSome = true

def StaysArmed (s : Sys E) : Prop := Restorable s → Lacking s.runtime.routeKeyHash s.link → Armed s

/-- one context registers, the bridge connects, and the daemon will read that the context was created -/
def listedContext : List (Op gainEngine) :=
  [.driver (.register 5 6), .driver (.stamp 0), .driver (.enqueue 0), .driver (.connect .sent), .driver (.drain .sent)]

/-- **A refused restore is not tried again.** The route of the speaker is announced and its snapshot stored; the context takes the
BEGIN and refuses the COMMIT, since it is not configured yet. It has accepted nothing, and no restore is armed. -/
theorem restore_disarmed :
    ¬ StaysArmed (run (boot { appReportedRoutes := false } 7 speakerStore (some speaker) none)
      (listedContext ++ [promptPass]) : Sys gainEngine) := by
  have hrun :
      let s : Sys gainEngine := run (boot { appReportedRoutes := false } 7 speakerStore (some speaker) none)
        (listedContext ++ [promptPass])
      (s.config.restoreEnabled = true ∧ s.link.client.isSome = true ∧
        s.runtime.announcedRouteHash = s.runtime.routeKeyHash ∧ routeSettled s = true ∧
        (usableSnapshot s.store s.runtime.routeKeyHash).isSome = true) ∧
      ((s.link.context 1).map fun x => x.landings.length) = some 0 ∧
      (s.link.registry.contexts.get? ⟨s.link.driver.bootId, 1⟩).isSome = true ∧
      s.runtime.routeRestorePending = false ∧ s.link.registry.contextGeneration = s.runtime.restoredContextGeneration := by
    decide +kernel
  obtain ⟨⟨henabled, hconnected, hannounced, hsettled, husable⟩, hlandings, hlisted, hpending, hgeneration⟩ := hrun
  intro hstays
  obtain ⟨x, hx, hnone⟩ := Option.map_eq_some_iff.mp hlandings
  have hlacks : ∀ hash, ¬ HasSnapshot hash x := by
    rintro hash ⟨e, he, -⟩
    rw [List.length_eq_zero_iff.mp hnone] at he
    cases he
  rcases hstays ⟨henabled, hconnected, hannounced, hsettled, husable⟩ ⟨1, x, hx, hlisted, hlacks _⟩ with harmed | harmed
  · rw [hpending] at harmed
    cases harmed
  · exact harmed hgeneration

/-! ## What joins the registry -/

/-- the contexts that are listed later are those that were, as long as the generation is the same -/
structure Grows (r r' : Registry) : Prop where
  generation : r.contextGeneration ≤ r'.contextGeneration
  listed : ∀ k, (r'.contexts.get? k).isSome = true →
    (r.contexts.get? k).isSome = true ∨ r.contextGeneration < r'.contextGeneration

theorem Grows.refl (r : Registry) : Grows r r := ⟨le_rfl, fun _ hk => Or.inl hk⟩

theorem Grows.trans {r r' r'' : Registry} (h : Grows r r') (h' : Grows r' r'') : Grows r r'' where
  generation := h.generation.trans h'.generation
  listed := by
    intro k hk
    rcases h'.listed k hk with hmid | hlt
    · rcases h.listed k hmid with hold | hlt
      · exact Or.inl hold
      · exact Or.inr (lt_of_lt_of_le hlt h'.generation)
    · exact Or.inr (lt_of_le_of_lt h.generation hlt)

/-- entries change or go, and none joins -/
theorem Grows.of_retain {r r' : Registry} {f : ContextKey → ContextEntry → Option ContextEntry}
    (hgeneration : r'.contextGeneration = r.contextGeneration) (hcontexts : r'.contexts = r.contexts.retain f) :
    Grows r r' where
  generation := hgeneration.ge
  listed := by
    intro k hk
    rw [hcontexts, Table.get?_retain] at hk
    cases hold : r.contexts.get? k with
    | none => simp [hold] at hk
    | some entry => exact Or.inl rfl

theorem absorb_grows (r : Registry) (e : DriverEvent) : Grows r (r.absorb e).1 := by
  unfold Registry.absorb
  dsimp only
  split_ifs with hreleased hknown
  · refine ⟨le_rfl, fun k hk => ?_⟩
    rw [Table.get?_erase] at hk
    split_ifs at hk
    · cases hk
    · exact Or.inl hk
  · refine ⟨le_rfl, fun k hk => ?_⟩
    rw [Table.get?_put] at hk
    split_ifs at hk with hkey
    · exact Or.inl (hkey ▸ hknown)
    · exact Or.inl hk
  · exact ⟨Nat.le_succ _, fun _ _ => Or.inr (Nat.lt_succ_self _)⟩

theorem apply_grows (r : Registry) (e : DriverEvent) : Grows r (r.apply e).1 := by
  obtain ⟨-, hb⟩ | ⟨-, hb⟩ | ⟨-, -, -, -, hb⟩ | ⟨-, -, -, hb⟩ | ⟨-, -, -, -, hb⟩ := Registry.apply_cases r e
  · rw [hb]
    exact Grows.refl r
  · rw [hb]
    exact Grows.of_retain rfl rfl
  · rw [hb]
    exact Grows.refl r
  · rw [hb]
    exact Grows.refl r
  · rw [hb]
    exact absorb_grows r e

/-- a context that joins the registry raises its generation -/
theorem deliver_grows (r : Registry) (e : DriverEvent) : Grows r (r.deliver e) := by
  have happly := apply_grows r e
  unfold Registry.deliver
  split
  · rename_i r' heq
    rw [heq] at happly
    exact happly.trans (Grows.of_retain rfl rfl)
  · rename_i r' result heq
    rw [heq] at happly
    exact happly

/-! ## Nothing uncovered -/

/-- whether the context of a note has a key that the registry listed already -/
def reused : Note (Tracked E) → Bool
  | .registered _ known => known
  | _ => false

/-- no context was registered under a key that the registry listed -/
def FreshKeys (l : Link (Tracked E)) : Prop := ∀ n ∈ l.trace, reused n = false

instance decidableFreshKeys (l : Link (Tracked E)) : Decidable (FreshKeys l) :=
  inferInstanceAs (Decidable (∀ n ∈ l.trace, reused n = false))

theorem FreshKeys.earlier {l l' : Link (Tracked E)} (h : FreshKeys l') (htrace : ∃ notes, l'.trace = notes ++ l.trace) :
    FreshKeys l := by
  obtain ⟨notes, hnotes⟩ := htrace
  intro n hn
  refine h n ?_
  rw [hnotes]
  exact List.mem_append_right _ hn

/-- the generation is not behind `restored`, and a listed context without a snapshot of the route is ahead of it, unless a
restore is pending anyway -/
structure Covers (hash : Bytes) (pending : Bool) (restored : ℕ) (l : Link (Tracked E)) : Prop where
  behind : restored ≤ l.registry.contextGeneration
  ahead : Lacking hash l → pending = true ∨ restored < l.registry.contextGeneration

variable {hash : Bytes} {pending : Bool} {restored : ℕ}

/-- no context is new, and what was accepted stays accepted -/
theorem Covers.of_contexts {l l' : Link (Tracked E)} (h : Covers hash pending restored l) (hgrows : Grows l.registry l'.registry)
    (hboot : l'.driver.bootId = l.driver.bootId)
    (hcontexts : ∀ id x', l'.context id = some x' → Listed l id →
      ∃ x, l.context id = some x ∧ (HasSnapshot hash x → HasSnapshot hash x')) :
    Covers hash pending restored l' where
  behind := h.behind.trans hgrows.generation
  ahead := by
    rintro ⟨id, x', hx', hlisted, hlacks⟩
    unfold Listed at hlisted
    rw [hboot] at hlisted
    rcases hgrows.listed _ hlisted with hold | hjoined
    · obtain ⟨x, hx, hkeeps⟩ := hcontexts id x' hx' hold
      rcases h.ahead ⟨id, x, hx, hold, fun hhas => hlacks (hkeeps hhas)⟩ with hpending | hlt
      · exact Or.inl hpending
      · exact Or.inr (lt_of_lt_of_le hlt hgrows.generation)
    · exact Or.inr (lt_of_le_of_lt h.behind hjoined)

/-- a command adds to what was accepted -/
theorem HasSnapshot.answer {x : Tracked E} (h : HasSnapshot hash x) (c : Command) : HasSnapshot hash (answer E x c).1 := by
  obtain ⟨e, he, hroute⟩ := h
  exact ⟨e, List.mem_append_right _ he, hroute⟩

/-- **A driver step.** -/
theorem Covers.stepDriver {l : Link (Tracked E)} (h : Covers hash pending restored l) (op : DriverOp (Dsp E))
    (hfresh : FreshKeys (Link.stepDriver (applier E) l (liftOp E op))) :
    Covers hash pending restored (Link.stepDriver (applier E) l (liftOp E op)) := by
  have hext := Link.stepDriver_ext (applier E) l (liftOp E op)
  have hmove := Link.stepDriver_move (applier E) l (liftOp E op)
  refine h.of_contexts (by rw [hext.registry]; exact Grows.refl _) hext.bootId fun id x' hx' hlisted => ?_
  cases hmove with
  | passive hp => exact ⟨x', (hp.context id).symm.trans hx', fun hhas => hhas⟩
  | registered id' hcontext htrace _ _ =>
    rw [hcontext] at hx'
    split_ifs at hx' with hid
    · subst hid
      have hknown := hfresh (.registered id' true) (by rw [htrace, hlisted]; exact List.mem_cons_self)
      cases hknown
    · exact ⟨x', hx', fun hhas => hhas⟩
  | released id' hcontext _ _ _ =>
    rw [hcontext] at hx'
    split_ifs at hx'
    exact ⟨x', hx', fun hhas => hhas⟩
  | worked id' f hop hcontext _ _ _ =>
    obtain ⟨g, rfl⟩ := liftOp_works hop
    rw [hcontext] at hx'
    split_ifs at hx'
    · obtain ⟨x, hx, rfl⟩ := Option.map_eq_some_iff.mp hx'
      exact ⟨x, hx, fun hhas => hhas⟩
    · exact ⟨x', hx', fun hhas => hhas⟩
  | handled c rest _ hcontext _ _ _ =>
    rw [hcontext] at hx'
    obtain ⟨x, hx, rfl⟩ := Option.map_eq_some_iff.mp hx'
    exact ⟨x, hx, fun hhas => hhas.answer c⟩
  | restarted hcontext _ _ _ =>
    rw [hcontext] at hx'
    cases hx'

/-- what the driver does leaves no new context uncovered -/
theorem Covers.drive {l : Link (Tracked E)} (h : Covers hash pending restored l) (ops : List (DriverOp (Dsp E)))
    (hfresh : FreshKeys (ops.foldl (fun l op => Link.stepDriver (applier E) l (liftOp E op)) l)) :
    Covers hash pending restored (ops.foldl (fun l op => Link.stepDriver (applier E) l (liftOp E op)) l) := by
  induction ops using List.reverseRecOn with
  | nil => exact h
  | append_singleton ops op ih =>
    rw [List.foldl_append] at hfresh ⊢
    have hext := Link.stepDriver_ext (applier E)
      (ops.foldl (fun l op => Link.stepDriver (applier E) l (liftOp E op)) l) (liftOp E op)
    exact (ih (hfresh.earlier hext.trace)).stepDriver op hfresh

/-- **A step of the daemon**, which does not start anew -/
theorem Covers.stepDaemon {l : Link (Tracked E)} (h : Covers hash pending restored l) {op : DaemonOp} (hop : op ≠ .restart) :
    Covers hash pending restored (l.stepDaemon op) := by
  have hdriver := Link.stepDaemon_driver l op
  have hgrows : Grows l.registry (l.stepDaemon op).registry := by
    cases op with
    | accept =>
      show Grows _ l.acceptPending.registry
      rw [Link.acceptPending_registry]
      exact Grows.refl _
    | recv rescanSent =>
      show Grows _ (l.recv rescanSent).1.registry
      obtain ⟨f, w, rest, -, -, hrecv⟩ | ⟨-, hkept⟩ := Link.recv_cases l rescanSent
      · rw [hrecv, Link.process_registry]
        exact deliver_grows _ _
      · rw [hkept]
        exact Grows.refl _
    | send c ok =>
      show Grows _ (l.sendSnapshotCommand c ok).1.registry
      rw [Link.sendSnapshotCommand_registry]
      exact Grows.refl _
    | take => exact Grows.refl _
    | restart => exact absurd rfl hop
  refine h.of_contexts hgrows (by rw [hdriver]) fun id x' hx' _ => ⟨x', ?_, fun hhas => hhas⟩
  rw [Link.context, hdriver] at hx'
  exact hx'

/-- a call keeps it for as long as the keys are fresh -/
theorem walked_covers (hash : Bytes) (pending : Bool) (restored : ℕ) :
    Walked (fun s : Sys E => FreshKeys s.link → Covers hash pending restored s.link) where
  turn := by
    intro s hs
    simp only [System.turn, modifyGet, MonadStateOf.modifyGet, StateT.modifyGet]
    cases s.turns with
    | nil => exact hs
    | cons t rest =>
      intro hfresh
      have htrace := (drive_advances s t.before rest (s.now + t.elapsed)).trace
      exact (hs (hfresh.earlier htrace)).drive t.before hfresh
  onLink := by
    intro s op hop hs hfresh
    have htrace : (s.link.stepDaemon op).trace = s.link.trace := Link.stepDaemon_trace s.link op
    exact (hs (hfresh.earlier ⟨[], htrace⟩)).stepDaemon hop
  aside := by
    intro s t hlink _ _ _ hs
    rw [hlink]
    exact hs

/-! ## A restore that lands -/

/-- what every context took when a command was handled, it has among what it accepted, unless it registered later -/
def Took (id : ℕ) (trace : List (Note (Tracked E))) (x : Tracked E) : Prop :=
  ∀ newer c contexts older, trace = newer ++ .handled c contexts :: older → (∀ known, .registered id known ∉ newer) →
    ∃ y, contexts.get? id = some y ∧ ∀ e ∈ landing E y.ext.ctx c, e ∈ x.landings

theorem took_closed : Link.Closed (applier E) (fun _ _ => True) Works (Took (E := E)) where
  fresh := by
    intro id known trace newer c contexts older htrace hnone
    cases newer with
    | nil => cases htrace
    | cons n newer =>
      obtain ⟨rfl, -⟩ := List.cons.inj htrace
      exact absurd List.mem_cons_self (hnone known)
  registered := by
    intro id id' known trace x _ h newer c contexts older htrace hnone
    cases newer with
    | nil => cases htrace
    | cons n newer =>
      exact h newer c contexts older (List.cons.inj htrace).2 fun known' hmem => hnone known' (List.mem_cons_of_mem _ hmem)
  worked := by
    intro id f trace x hf h
    obtain ⟨g, rfl⟩ := hf
    exact h
  handled := by
    intro id contexts c trace y hy _ h newer d others older htrace hnone
    cases newer with
    | nil =>
      obtain ⟨hnote, rfl⟩ := List.cons.inj htrace
      obtain ⟨rfl, rfl⟩ := Note.handled.inj hnote
      exact ⟨y, hy, fun e he => List.mem_append_left _ he⟩
    | cons n newer =>
      obtain ⟨y', hy', hkept⟩ := h newer d others older (List.cons.inj htrace).2
        fun known hmem => hnone known (List.mem_cons_of_mem _ hmem)
      exact ⟨y', hy', fun e he => List.mem_append_right _ (hkept e he)⟩

theorem took_stable : Stable (fun _ => True) (fun l : Link (Tracked E) => l.Throughout Took) where
  driver := by
    intro l op _ h
    exact took_closed.move (fun _ _ => liftOp_works) (Link.stepDriver_move (applier E) l (liftOp E op))
      (fun _ _ _ _ _ => trivial) h
  daemon := fun l op h => h.of_eq (Link.stepDaemon_driver l op) (Link.stepDaemon_trace l op)

/-- every context took a snapshot of the route from the command -/
def takesRoute (hash : Bytes) : Note (Tracked E) → Bool
  | .handled c contexts => contexts.entries.all fun p => (landing E p.2.ext.ctx c).any fun e => e.snapshot.deviceKeyHash = hash
  | _ => false

/-- between two states the driver takes a snapshot of the route on all its contexts, and none that it registers afterwards is
listed by then -/
def Lands (hash : Bytes) (l l' : Link (Tracked E)) : Prop :=
  ∃ newer n older, l'.trace = newer ++ n :: older ∧ l.trace.length ≤ older.length ∧ takesRoute hash n = true ∧
    ∀ id known, .registered id known ∈ newer → ¬ Listed l' id

/-- nothing lacks a snapshot of the route, and nothing joins the registry -/
def Needless (hash : Bytes) (l l' : Link (Tracked E)) : Prop :=
  ¬ Lacking hash l ∧ l'.registry.contextGeneration = l.registry.contextGeneration

/-- the command that every context took is the last thing that happened -/
theorem lands_of_newest {l l' : Link (Tracked E)} (hlater : l.trace.length < l'.trace.length)
    (htakes : l'.trace.head?.any (takesRoute hash) = true) : Lands hash l l' := by
  cases htrace : l'.trace with
  | nil =>
    rw [htrace] at hlater
    cases hlater
  | cons n older =>
    rw [htrace] at hlater htakes
    exact ⟨[], n, older, htrace, Nat.le_of_lt_succ hlater, htakes, fun _ _ hmem => absurd hmem List.not_mem_nil⟩

theorem Lands.not_lacking {l l' : Link (Tracked E)} (h : Lands hash l l') (htook : l'.Throughout Took) : ¬ Lacking hash l' := by
  rintro ⟨id, x, hx, hlisted, hlacks⟩
  obtain ⟨newer, n, older, htrace, -, htakes, hlate⟩ := h
  cases n with
  | handled c contexts =>
    obtain ⟨y, hy, hkept⟩ := htook.now id x hx newer c contexts older htrace fun known hmem => hlate id known hmem hlisted
    have hmem := (Table.mem_entries_iff contexts id y).mpr hy
    obtain ⟨e, he, hroute⟩ := List.any_eq_true.mp (List.all_eq_true.mp htakes (id, y) hmem)
    exact hlacks ⟨e, hkept e he, of_decide_eq_true hroute⟩
  | registered id' known => cases htakes
  | restarted => cases htakes

/-! ## Runs -/

/-- a listed context without a snapshot is covered by what the runtime remembers, when restores are enabled -/
def Covered (s : Sys E) : Prop :=
  FreshKeys s.link → s.config.restoreEnabled = true →
    Covers s.runtime.routeKeyHash s.runtime.routeRestorePending s.runtime.restoredContextGeneration s.link

/-- what was armed before and is not lowered -/
theorem Covered.stays_armed {s : Sys E} (h : Covered s) (hfresh : FreshKeys s.link) : StaysArmed s := by
  intro hrestorable hlacking
  have hcovers := h hfresh hrestorable.enabled
  rcases hcovers.ahead hlacking with hpending | hlt
  · exact Or.inl hpending
  · exact Or.inr hlt.ne'

theorem Covered.of_eq {s t : Sys E} (h : Covered s) (hlink : t.link = s.link) (hconfig : t.config = s.config)
    (harming : armingOf t.runtime = armingOf s.runtime) : Covered t := by
  simp only [armingOf, Prod.mk.injEq] at harming
  obtain ⟨-, hhash, hpending, hrestored⟩ := harming
  unfold Covered
  rw [hlink, hconfig, hhash, hpending, hrestored]
  exact h

theorem turn_runtime (s : Sys E) : (System.turn s).2.runtime = s.runtime ∧ (System.turn s).2.config = s.config := by
  simp only [System.turn, modifyGet, MonadStateOf.modifyGet, StateT.modifyGet]
  cases s.turns <;> exact ⟨rfl, rfl⟩

theorem walked_covered : Walked (Covered (E := E)) where
  turn := by
    intro s hs hfresh henabled
    rw [(turn_runtime s).2] at henabled
    rw [(turn_runtime s).1]
    exact (walked_covers _ _ _).turn s (fun hf => hs hf henabled) hfresh
  onLink := by
    intro s op hop hs hfresh henabled
    exact (walked_covers _ _ _).onLink s op hop (fun hf => hs hf henabled) hfresh
  aside := fun _ _ hlink _ hconfig harming hs => hs.of_eq hlink hconfig harming

/-- a new route arms its restore -/
theorem pollRoute_covered {s : Sys E} (h : Covered s) : Covered s.pollRoute := by
  unfold Sys.pollRoute
  cases newRouteKey s.adapter s.runtime.routeKey with
  | none => exact h
  | some key =>
    intro hfresh henabled
    exact ⟨(h hfresh henabled).behind, fun _ => Or.inl henabled⟩

/-- the restore of a pass, where one is due, lands or has nothing to do -/
def RestoreLands (s : Sys E) (driverConnected newConnection : Bool) : Prop :=
  restoreDue s driverConnected newConnection = true →
    Lands s.runtime.routeKeyHash s.link (restorePass driverConnected newConnection s).2.link ∨
      Needless s.runtime.routeKeyHash s.link (restorePass driverConnected newConnection s).2.link

/-- the calls of the runtime leave the route alone -/
theorem walked_route (hash : Bytes) : Walked (fun s : Sys E => s.runtime.routeKeyHash = hash) where
  turn := by
    intro s hs
    rw [(turn_runtime s).1]
    exact hs
  onLink := fun _ _ _ hs => hs
  aside := by
    intro s t _ _ _ harming hs
    simp only [armingOf, Prod.mk.injEq] at harming
    rw [harming.2.1]
    exact hs

/-- **A pass whose restore lands.** The flags go down, and nothing listed is without a snapshot. -/
theorem restorePass_covered {s : Sys E} (h : Covered s) {driverConnected newConnection : Bool}
    (hlands : RestoreLands s driverConnected newConnection)
    (htook : (restorePass driverConnected newConnection s).2.link.Throughout Took) :
    Covered (restorePass driverConnected newConnection s).2 := by
  by_cases hdue : restoreDue s driverConnected newConnection = true
  · -- the pass is the restore of the lowered state, and then the generation is taken
    let lowered : Sys E := { s with runtime := { s.runtime with routeRestorePending := false } }
    have hpass : (restorePass driverConnected newConnection s).2 =
        { (restoreCurrentRoute lowered).2 with
          runtime := { (restoreCurrentRoute lowered).2.runtime with
            restoredContextGeneration := (restoreCurrentRoute lowered).2.link.registry.contextGeneration } } := by
      unfold restorePass
      show ((if restoreDue s driverConnected newConnection = true then _ else _ : Prog E Unit) s).2 = _
      rw [if_pos hdue]
      rfl
    have hhash : (restoreCurrentRoute lowered).2.runtime.routeKeyHash = s.runtime.routeKeyHash :=
      (walked_route s.runtime.routeKeyHash).restoreCurrentRoute lowered rfl
    have hnone : FreshKeys (restorePass driverConnected newConnection s).2.link →
        ¬ Lacking s.runtime.routeKeyHash (restorePass driverConnected newConnection s).2.link := by
      intro hfresh
      rcases hlands hdue with hland | ⟨hcovered, hgeneration⟩
      · exact hland.not_lacking htook
      · have hkept := (walked_covers s.runtime.routeKeyHash false s.link.registry.contextGeneration).restoreCurrentRoute
          lowered fun _ => ⟨le_rfl, fun hlacking => absurd hlacking hcovered⟩
        rw [hpass] at hfresh hgeneration ⊢
        intro hlacking
        rcases (hkept hfresh).ahead hlacking with hpending | hlt
        · cases hpending
        · exact absurd hgeneration hlt.ne'
    intro hfresh _
    have hlacking := hnone hfresh
    rw [hpass] at hlacking ⊢
    dsimp only at hlacking ⊢
    rw [hhash]
    exact ⟨le_rfl, fun hlack => absurd hlack hlacking⟩
  · have hpass : (restorePass driverConnected newConnection s).2 = s := by
      unfold restorePass
      show ((if restoreDue s driverConnected newConnection = true then _ else _ : Prog E Unit) s).2 = _
      rw [if_neg hdue]
      rfl
    rw [hpass]
    exact h

/-- no step registers a context under a key that the registry lists, and the restore of every pass lands -/
def Meets (s : Sys E) (op : Op E) : Prop :=
  FreshKeys (step s op).link ∧
    match op with
    | .runOnce turns messages =>
      let seen := beforeRestore messages { s with turns }
      RestoreLands seen.2 seen.1.1 seen.1.2
    | _ => True

/-- every step of a run meets the condition -/
def AllMeet (s : Sys E) : List (Op E) → Prop
  | [] => True
  | op :: ops => Meets s op ∧ AllMeet (step s op) ops

/-- the invariant of the runs -/
structure Remembers (s : Sys E) : Prop where
  fresh : FreshKeys s.link
  covered : Covered s
  took : s.link.Throughout Took

theorem Remembers.step {s : Sys E} (h : Remembers s) {op : Op E} (hmeets : Meets s op) : Remembers (System.step s op) where
  fresh := hmeets.1
  took := took_stable.step h.took op (by cases op <;> simp [Op.Of])
  covered := by
    cases op with
    | driver op =>
      intro hfresh henabled
      exact (h.covered (hmeets.1.earlier (drive_advances s [op] s.turns s.now).trace) henabled).drive [op] hfresh
    | runOnce turns messages =>
      obtain ⟨-, hlands⟩ := hmeets
      have hroute : ∀ t : Sys E, Covered t → Covered t.pollRoute := fun _ ht => pollRoute_covered ht
      have hprelude : Covered (System.beforeRestore messages { s with turns }).2 :=
        walked_covered.beforeRestore hroute messages _ (h.covered.of_eq rfl rfl rfl)
      have htook : (System.step s (.runOnce turns messages)).link.Throughout Took :=
        took_stable.step h.took (.runOnce turns messages) (by simp [Op.Of])
      exact (restorePass_covered hprelude hlands htook).of_eq rfl rfl rfl
    | reading identity =>
      simp only [System.step]
      split_ifs
      · exact h.covered
      · exact h.covered.of_eq rfl rfl rfl
    | wait duration => exact h.covered.of_eq rfl rfl rfl
    | restart cacheReadable =>
      refine pollRoute_covered fun _ _ => ⟨le_rfl, ?_⟩
      rintro ⟨id, x, -, hlisted, -⟩
      cases hlisted

theorem Remembers.run {s : Sys E} (h : Remembers s) {ops : List (Op E)} (hmeet : AllMeet s ops) :
    Remembers (System.run s ops) := by
  induction ops generalizing s with
  | nil => exact h
  | cons op ops ih => exact ih (h.step hmeet.1) hmeet.2

theorem boot_remembers (config : Config) (bootId : ℕ) (store : SnapshotStore) (adapter cache : Option DeviceIdentity) :
    Remembers (boot config bootId store adapter cache : Sys E) where
  fresh := by
    have hlink : (boot config bootId store adapter cache : Sys E).link = Channel.init bootId := (pollRoute_link _).1
    intro n hn
    rw [hlink] at hn
    cases hn
  covered := by
    refine pollRoute_covered fun _ _ => ⟨le_rfl, ?_⟩
    rintro ⟨id, x, hx, -⟩
    cases hx
  took := by
    have hlink : (boot config bootId store adapter cache : Sys E).link = Channel.init bootId := (pollRoute_link _).1
    rw [hlink]
    exact init_throughout bootId _

/-- **A restore stays armed until it has landed**, in every run in which no context is registered under a key that the registry
lists, and whenever a restore is due it lands or has nothing to do. -/
theorem restore_stays_armed (config : Config) (bootId : ℕ) (store : SnapshotStore) (adapter cache : Option DeviceIdentity)
    {ops : List (Op E)} (hmeet : AllMeet (boot config bootId store adapter cache) ops) :
    StaysArmed (run (boot config bootId store adapter cache) ops) := by
  have hkept := (boot_remembers config bootId store adapter cache).run hmeet
  exact hkept.covered.stays_armed hkept.fresh

/-- the context is configured, and the restore lands on it -/
theorem restore_stays_armed_speaker :
    StaysArmed (run (boot { appReportedRoutes := false } 7 speakerStore (some speaker) none)
      (.driver (.register 5 6) :: .driver (.touch 1 fun _ => configuredGain) :: listedContext.tail ++ [promptPass]) :
        Sys gainEngine) := by
  refine restore_stays_armed _ _ _ _ _ ?_
  refine ⟨⟨by decide +kernel, trivial⟩, ⟨by decide +kernel, trivial⟩, ⟨by decide +kernel, trivial⟩,
    ⟨by decide +kernel, trivial⟩, ⟨by decide +kernel, trivial⟩, ⟨by decide +kernel, trivial⟩, ⟨by decide +kernel, ?_⟩, trivial⟩
  intro _
  exact Or.inl (lands_of_newest (by decide +kernel) (by decide +kernel))

end ViperFx.System
