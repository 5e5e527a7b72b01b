/-
What the log of a run tells of its store: `daemon/DaemonRuntime.cpp` with `daemon/SnapshotStore.cpp`, over all passes, restarts,
routes and connections.

A program of the runtime makes moves (`Move`), and a move is all that an invariant has to be checked for. Most of what a program
does moves nothing here: it sends, waits and keeps its books (`Unmoved`).

The store is a file for each route, written, rotated and renamed. What it is for is a map: a route has the snapshot that was
stored for it last. The log says the same, and outlives the process.

Results:
  · makes_runOnce      : a pass makes moves
  · restored_as_stored : the store is the map, and a restore sends what the map has for the route that was announced last
-/
import ViperFx.Core.Log
import ViperFx.System.StoredCopies

namespace ViperFx.System

open ViperFx.Core ViperFx.Protocol ViperFx.Daemon ViperFx.Channel ViperFx.Driver

variable {E : Engine}

/-! ## Moves -/

/-- entries about no store, no restore and no announce -/
def Entry.Incidental : Entry E → Prop
  | .opened _ _ => False
  | .stored _ _ => False
  | .announced _ _ => False
  | _ => True

/-- the process, the route, the generation and what is announced -/
def standingOf (r : Runtime) : ℕ × Bytes × UInt64 × Bytes :=
  (r.life, r.routeKeyHash, r.daemonGeneration, r.announcedRouteHash)

/-- nothing is stored, restored, announced or learned of the route -/
structure Unmoved (s t : Sys E) : Prop where
  store : t.store = s.store
  turns : t.turns <:+ s.turns
  standing : standingOf t.runtime = standingOf s.runtime
  log : ∃ entries, t.log = entries ++ s.log ∧ ∀ e ∈ entries, e.Incidental

theorem Unmoved.of_eq {s t : Sys E} (hstore : t.store = s.store) (hturns : t.turns = s.turns)
    (hstanding : standingOf t.runtime = standingOf s.runtime) (hlog : t.log = s.log) : Unmoved s t :=
  ⟨hstore, hturns ▸ List.suffix_rfl, hstanding, [], hlog, fun _ he => absurd he List.not_mem_nil⟩

theorem Unmoved.trans {s t u : Sys E} (h : Unmoved s t) (h' : Unmoved t u) : Unmoved s u where
  store := h'.store.trans h.store
  turns := h'.turns.trans h.turns
  standing := h'.standing.trans h.standing
  log := by
    obtain ⟨entries, hlog, hentries⟩ := h.log
    obtain ⟨entries', hlog', hentries'⟩ := h'.log
    refine ⟨entries' ++ entries, by rw [hlog', hlog, List.append_assoc], fun e he => ?_⟩
    rcases List.mem_append.mp he with he | he
    · exact hentries' e he
    · exact hentries e he

/-- a program that moves nothing -/
def Unmoving {α : Type} (m : Prog E α) : Prop := ∀ s, Unmoved s (m s).2

theorem Unmoving.pure {α : Type} (a : α) : Unmoving (E := E) (pure a) := fun _ => .of_eq rfl rfl rfl rfl

theorem Unmoving.get : Unmoving (get : Prog E (Sys E)) := fun _ => .of_eq rfl rfl rfl rfl

theorem Unmoving.bind {α β : Type} {m : Prog E α} {f : α → Prog E β} (hm : Unmoving m) (hf : ∀ a, Unmoving (f a)) :
    Unmoving (m >>= f) := fun s => (hm s).trans (hf _ _)

theorem Unmoving.ite {α : Type} {c : Prop} [Decidable c] {m m' : Prog E α} (hm : Unmoving m) (hm' : Unmoving m') :
    Unmoving (if c then m else m') := by
  split_ifs
  · exact hm
  · exact hm'

theorem Unmoving.set {f : Runtime → Runtime} (hf : ∀ r, standingOf (f r) = standingOf r) : Unmoving (E := E) (set f) :=
  fun s => .of_eq rfl rfl (hf s.runtime) rfl

theorem Unmoving.note {e : Entry E} (he : e.Incidental) : Unmoving (note e) :=
  fun _ => ⟨rfl, List.suffix_rfl, rfl, [e], rfl, fun e' he' => by rw [List.mem_singleton.mp he']; exact he⟩

theorem Unmoving.onLink {α : Type} (f : Sys E → α) (op : DaemonOp) :
    Unmoving (modifyGet fun s : Sys E => (f s, s.onLink op)) :=
  fun _ => .of_eq rfl rfl rfl rfl

theorem turn_cases (s : Sys E) : (turn s).1 = s.turns.headD {} ∧ (turn s).2.turns = s.turns.tail ∧
    (turn s).2.store = s.store ∧ (turn s).2.runtime = s.runtime ∧ (turn s).2.log = s.log := by
  simp only [turn, modifyGet, MonadStateOf.modifyGet, StateT.modifyGet]
  cases hturns : s.turns with
  | nil => exact ⟨rfl, hturns, rfl, rfl, rfl⟩
  | cons t rest => exact ⟨rfl, rfl, rfl, rfl, rfl⟩

theorem unmoving_turn : Unmoving (turn (E := E)) := by
  intro s
  obtain ⟨-, hturns, hstore, hruntime, hlog⟩ := turn_cases s
  refine ⟨hstore, ?_, by rw [hruntime], [], hlog, fun _ he => absurd he List.not_mem_nil⟩
  rw [hturns]
  exact List.tail_suffix _

theorem unmoving_poll : Unmoving (poll (E := E)) := by
  have hrecv : Unmoving (recv (E := E)) := unmoving_turn.bind fun t => .onLink _ _
  have hloop : ∀ attempts, Unmoving (recvLoop (E := E) attempts) := by
    intro attempts
    induction attempts with
    | zero => exact .pure _
    | succ attempts ih => exact hrecv.bind fun more => .ite ih (.pure _)
  have haccept : Unmoving (acceptPending (E := E)) := unmoving_turn.bind fun _ _ => .of_eq rfl rfl rfl rfl
  exact haccept.bind fun _ => hloop _

theorem unmoving_sendSnapshotCommand (c : Command) : Unmoving (sendSnapshotCommand (E := E) c) := by
  refine unmoving_turn.bind fun t => (Unmoving.onLink _ _).bind fun sent => ?_
  exact .ite ((Unmoving.note (e := .unsent c.ticket) trivial).bind fun _ => .pure _) (.pure _)

theorem unmoving_awaitApplyOutcome (ticket : Ticket) : Unmoving (awaitApplyOutcome (E := E) ticket) := by
  have hpause : Unmoving (pause (E := E) kApplyPollInterval) := fun _ => .of_eq rfl rfl rfl rfl
  have htake : Unmoving (takeApplyOutcome (E := E)) := .onLink _ _
  have hloop : ∀ id attempts, Unmoving (awaitLoop (E := E) id attempts) := by
    intro id attempts
    induction attempts with
    | zero => exact .pure _
    | succ attempts ih =>
      refine unmoving_poll.bind fun _ => htake.bind fun outcome => ?_
      cases outcome with
      | none => exact hpause.bind fun _ => ih
      | some outcome => exact .ite (.pure _) (hpause.bind fun _ => ih)
  exact (hloop _ _).bind fun outcome => .ite ((Unmoving.note (e := .unanswered ticket) trivial).bind fun _ => .pure _) (.pure _)

theorem unmoving_sendChunks (bytes : Bytes) (ticket : Ticket) (fuel offset : ℕ) :
    Unmoving (sendChunks (E := E) bytes ticket fuel offset) := by
  induction fuel generalizing offset with
  | zero => exact .pure _
  | succ fuel ih =>
    refine .ite ?_ (.pure _)
    cases encodeSnapshotChunk (chunkAt bytes offset) with
    | error e => exact .pure _
    | ok payload => exact (unmoving_sendSnapshotCommand _).bind fun sent => .ite (ih _) (.pure _)

theorem unmoving_transfer (snapshot : Snapshot) (bytes : Bytes) (ticket : Ticket) :
    Unmoving (transfer (E := E) snapshot bytes ticket) := by
  have hbody : Unmoving (sendBody (E := E) snapshot bytes ticket) := by
    refine (unmoving_sendChunks _ _ _ _).bind fun sent => .ite ?_ (.pure _)
    cases encodeSnapshotCommit ⟨snapshot.appGeneration, snapshot.daemonGeneration⟩ with
    | error e => exact .pure _
    | ok payload =>
      exact (unmoving_sendSnapshotCommand _).bind fun sent =>
        .ite ((unmoving_awaitApplyOutcome _).bind fun _ => .pure _) (.pure _)
  unfold transfer
  cases encodeSnapshotBegin (beginOf snapshot bytes) with
  | error e => exact .pure _
  | ok payload =>
    exact (unmoving_sendSnapshotCommand _).bind fun sent =>
      .ite ((unmoving_awaitApplyOutcome _).bind fun outcome => .ite hbody (.pure _)) (.pure _)

/-- what a program of the runtime does, one thing at a time -/
inductive Move : Sys E → Sys E → Prop
  | unmoved {s t : Sys E} (h : Unmoved s t) : Move s t
  | routed {s t : Sys E} (hash : Bytes) (hstore : t.store = s.store) (hturns : t.turns = s.turns)
      (hstanding : standingOf t.runtime = (s.runtime.life, hash, s.runtime.daemonGeneration, s.runtime.announcedRouteHash))
      (hlog : t.log = s.log) : Move s t
  | forgotten (s : Sys E) : Move s { s with runtime := forgetAnnounce s.runtime }
  | counted (s : Sys E) : Move s { s with runtime := { s.runtime with daemonGeneration := s.runtime.daemonGeneration + 1 } }
  | announced {s t : Sys E} (q : Ticket) (hq : q.life = s.runtime.life) (hstore : t.store = s.store) (hturns : t.turns = s.turns)
      (hstanding : standingOf t.runtime = (s.runtime.life, s.runtime.routeKeyHash, s.runtime.daemonGeneration,
        s.runtime.routeKeyHash))
      (hlog : t.log = .announced q s.runtime.routeKeyHash :: s.log) : Move s t
  /-- a restore takes the next generation -/
  | opened {s t : Sys E} (q : Ticket) (loaded : Snapshot) (hq : q.life = s.runtime.life)
      (hloaded : usableSnapshot s.store s.runtime.routeKeyHash = some loaded)
      (hannounced : s.runtime.announcedRouteHash = s.runtime.routeKeyHash) (hstore : t.store = s.store)
      (hturns : t.turns = s.turns)
      (hstanding : standingOf t.runtime = (s.runtime.life, s.runtime.routeKeyHash, s.runtime.daemonGeneration + 1,
        s.runtime.announcedRouteHash))
      (entries : List (Entry E)) (hentries : ∀ e ∈ entries, e.Incidental)
      (hlog : t.log = .opened q { loaded with daemonGeneration := s.runtime.daemonGeneration + 1 } :: (entries ++ s.log)) :
      Move s t
  /-- and so does a COMMIT of the App -/
  | stored {s t : Sys E} (q : Ticket) (bytes : Bytes) (sent : Snapshot) (hq : q.life = s.runtime.life)
      (hdecode : decodeSnapshot bytes = .ok sent) (hroute : sent.deviceKeyHash = s.runtime.routeKeyHash)
      (hstore : t.store = (s.store.commit sent.deviceKeyHash { sent with daemonGeneration := s.runtime.daemonGeneration + 1 }
        (s.turns.headD {}).disk).1)
      (hturns : t.turns <:+ s.turns)
      (hstanding : standingOf t.runtime = (s.runtime.life, s.runtime.routeKeyHash, s.runtime.daemonGeneration + 1,
        s.runtime.announcedRouteHash))
      (hlog : t.log = .stored q { sent with daemonGeneration := s.runtime.daemonGeneration + 1 } :: s.log) : Move s t

theorem Move.life {s t : Sys E} (h : Move s t) : t.runtime.life = s.runtime.life := by
  cases h with
  | unmoved h => exact congrArg Prod.fst h.standing
  | routed _ _ _ hstanding => exact congrArg Prod.fst hstanding
  | forgotten => rfl
  | counted => rfl
  | announced _ _ _ _ hstanding => exact congrArg Prod.fst hstanding
  | opened _ _ _ _ _ _ _ hstanding => exact congrArg Prod.fst hstanding
  | stored _ _ _ _ _ _ _ _ hstanding => exact congrArg Prod.fst hstanding

theorem Unmoving.makes {α : Type} {m : Prog E α} (h : Unmoving m) : Makes Move m := .of_move fun s => .unmoved (h s)

theorem wp_newTicket (Q : Ticket → Sys E → Prop) (s : Sys E) : wp newTicket Q s ↔
    Q ⟨s.runtime.life, s.runtime.nextRequestId⟩
      { s with runtime := { s.runtime with nextRequestId := s.runtime.nextRequestId + 1 } } := Iff.rfl

/-! ## The programs -/

theorem makes_applySnapshotToDriver {s : Sys E} {loaded : Snapshot} {contexts : Table ℕ (DriverContext (Tracked E))}
    (hloaded : usableSnapshot s.store s.runtime.routeKeyHash = some loaded)
    (hannounced : s.runtime.announcedRouteHash = s.runtime.routeKeyHash) :
    Relation.ReflTransGen Move s (applySnapshotToDriver { loaded with daemonGeneration := s.runtime.daemonGeneration + 1 }
      (({ s with runtime := { s.runtime with daemonGeneration := s.runtime.daemonGeneration + 1 } } : Sys E).enter
        (.restoring contexts))).2 := by
  unfold applySnapshotToDriver
  cases encodeSnapshot { loaded with daemonGeneration := s.runtime.daemonGeneration + 1 } with
  | error e =>
    refine (Relation.ReflTransGen.single (.counted s)).tail (.unmoved ?_)
    exact Unmoving.note (e := .restoring contexts) trivial _
  | ok bytes =>
    let q : Ticket := ⟨s.runtime.life, s.runtime.nextRequestId⟩
    let u : Sys E := (({ s with
      runtime := { s.runtime with
        daemonGeneration := s.runtime.daemonGeneration + 1
        nextRequestId := s.runtime.nextRequestId + 1 } } : Sys E).enter (.restoring contexts)).enter
      (.opened q { loaded with daemonGeneration := s.runtime.daemonGeneration + 1 })
    have hopened : Move s u := .opened q loaded rfl hloaded hannounced rfl rfl rfl [.restoring contexts]
      (fun e he => by rw [List.mem_singleton.mp he]; trivial) rfl
    have hrest : Unmoving (E := E) (do
        let result ← transfer { loaded with daemonGeneration := s.runtime.daemonGeneration + 1 } bytes q
        note (.returned q { loaded with daemonGeneration := s.runtime.daemonGeneration + 1 } result.1)
        pure result) :=
      (unmoving_transfer _ _ _).bind fun result => (Unmoving.note (e := .returned _ _ result.1) trivial).bind fun _ => .pure _
    exact (Relation.ReflTransGen.single hopened).tail (.unmoved (hrest u))

theorem makes_restorePass (driverConnected newConnection : Bool) :
    Makes Move (restorePass (E := E) driverConnected newConnection) := by
  have hbypassed : ∀ contexts, Unmoving (E := E) (do note (.bypassed contexts); pure (false, true)) :=
    fun contexts => (Unmoving.note (e := .bypassed contexts) trivial).bind fun _ => .pure _
  intro s₀
  show wp (restorePass driverConnected newConnection) (fun _ t => Relation.ReflTransGen Move s₀ t) s₀
  unfold restorePass
  rw [wp_bind, wp_get, wp_ite]
  refine ⟨fun hdue => ?_, fun _ => .refl⟩
  have hannounced : s₀.runtime.announcedRouteHash = s₀.runtime.routeKeyHash := by
    simp only [restoreDue, Bool.and_eq_true, beq_iff_eq] at hdue
    exact hdue.1.2
  rw [wp_bind, wp_set]
  have hlowered : Move s₀ { s₀ with runtime := { s₀.runtime with routeRestorePending := false } } :=
    .unmoved (.of_eq rfl rfl rfl rfl)
  generalize hs : ({ s₀ with runtime := { s₀.runtime with routeRestorePending := false } } : Sys E) = s at hlowered
  have hannounced' : s.runtime.announcedRouteHash = s.runtime.routeKeyHash := by
    rw [← hs]
    exact hannounced
  rw [wp_bind]
  refine wp_mono (P := fun _ t => Relation.ReflTransGen Move s t) ?_ fun _ t ht => ?_
  · unfold restoreCurrentRoute
    rw [wp_bind, wp_get, wp_ite]
    refine ⟨fun _ => (hbypassed _).makes s, fun _ => ?_⟩
    cases hloaded : usableSnapshot s.store s.runtime.routeKeyHash with
    | none => exact (hbypassed _).makes s
    | some loaded =>
      dsimp only
      rw [wp_bind, wp_set, wp_bind, wp_note, wp_bind]
      exact wp_mono (P := fun _ t => Relation.ReflTransGen Move s t) (makes_applySnapshotToDriver hloaded hannounced')
        fun _ t ht => ht
  · exact ((Relation.ReflTransGen.single hlowered).trans ht).tail (.unmoved (.of_eq rfl rfl rfl rfl))

theorem stagedAppSnapshot_inv {r : Runtime} {snapshot : Snapshot} (h : stagedAppSnapshot r = some snapshot) :
    ∃ sent, decodeSnapshot r.appStagedBytes = .ok sent ∧ sent.deviceKeyHash = r.routeKeyHash ∧
      snapshot = { sent with daemonGeneration := r.daemonGeneration } := by
  unfold stagedAppSnapshot at h
  split_ifs at h with hidle hsize
  cases hdecode : decodeSnapshot r.appStagedBytes with
  | error e =>
    rw [hdecode] at h
    cases h
  | ok sent =>
    rw [hdecode] at h
    dsimp only at h
    split_ifs at h with hroute
    exact ⟨sent, rfl, not_not.mp hroute, (Option.some.inj h).symm⟩

/-- an accepted COMMIT takes the next generation, and is stored if it can be -/
theorem makes_commitStagedAppSnapshot {q : Ticket} {s : Sys E} (hq : q.life = s.runtime.life) :
    Relation.ReflTransGen Move s (commitStagedAppSnapshot q
      { s with runtime := { s.runtime with daemonGeneration := s.runtime.daemonGeneration + 1 } }).2 := by
  have hcounted : Relation.ReflTransGen Move s
      { s with runtime := { s.runtime with daemonGeneration := s.runtime.daemonGeneration + 1 } } := .single (.counted s)
  let u : Sys E := { s with runtime := { s.runtime with
    daemonGeneration := s.runtime.daemonGeneration + 1, appStaging := false, appStagedBytes := [], offered := none } }
  show wp (commitStagedAppSnapshot q) (fun _ t => Relation.ReflTransGen Move s t) _
  unfold commitStagedAppSnapshot
  rw [wp_bind, wp_get, wp_ite]
  refine ⟨fun _ => ?_, fun _ => hcounted⟩
  rw [wp_bind, wp_set]
  change wp _ _ u
  cases hstaged : stagedAppSnapshot { s.runtime with daemonGeneration := s.runtime.daemonGeneration + 1 } with
  | none => exact hcounted.tail (.unmoved (.of_eq rfl rfl rfl rfl))
  | some snapshot =>
    obtain ⟨sent, hdecode, hroute, rfl⟩ := stagedAppSnapshot_inv hstaged
    obtain ⟨hturn, hturns, hstore, hruntime, hlog⟩ := turn_cases u
    dsimp only
    rw [wp_bind]
    refine wp_mono (P := fun a t => a = (turn u).1 ∧ t = (turn u).2) ⟨rfl, rfl⟩ fun a t hat => ?_
    obtain ⟨rfl, rfl⟩ := hat
    rw [wp_bind, wp_modify, wp_note]
    refine .single (.stored q _ sent hq hdecode hroute ?_ ?_ ?_ ?_)
    · show ((turn u).2.store.commit _ _ (turn u).1.disk).1 = _
      rw [hturn, hstore]
    · show (turn u).2.turns <:+ _
      rw [hturns]
      exact List.tail_suffix _
    · show standingOf (turn u).2.runtime = _
      rw [hruntime]
      rfl
    · show _ :: (turn u).2.log = _
      rw [hlog]

theorem makes_settleAppTransfer (type : SnapshotCommandType) (q : Ticket) (outcome : Option Channel.ApplyOutcome) {s : Sys E}
    (hq : q.life = s.runtime.life) : Relation.ReflTransGen Move s (settleAppTransfer type q outcome s).2 := by
  have hlast : Unmoving (E := E) (do if !accepted outcome ∨ type = .snapshotAbort then set dropStaged) :=
    Unmoving.ite (.set fun _ => rfl) (.pure _)
  show wp (settleAppTransfer type q outcome) (fun _ t => Relation.ReflTransGen Move s t) s
  unfold settleAppTransfer
  dsimp only
  rw [wp_ite]
  refine ⟨fun _ => ?_, fun _ => hlast.makes s⟩
  rw [wp_bind, wp_set, wp_bind]
  exact wp_mono (P := fun _ t => Relation.ReflTransGen Move s t) (makes_commitStagedAppSnapshot hq) fun _ t ht =>
    ht.tail (.unmoved (hlast t))

theorem standing_stage (r : Runtime) (type : SnapshotCommandType) (payload : Bytes) :
    standingOf (stageAppSnapshotCommand r type payload) = standingOf r := by
  unfold stageAppSnapshotCommand
  cases type with
  | snapshotBegin => cases decodeSnapshotBegin payload <;> rfl
  | snapshotChunk =>
    dsimp only
    split_ifs
    · rfl
    · cases decodeSnapshotChunk payload with
      | error e => rfl
      | ok chunk =>
        dsimp only
        split_ifs <;> rfl
  | snapshotCommit => rfl
  | snapshotAbort => rfl
  | routeAnnounce => rfl

theorem makes_onSnapshotCommand (type : SnapshotCommandType) (payload : Bytes) :
    Makes Move (onSnapshotCommand (E := E) type payload) := by
  intro s
  show wp (onSnapshotCommand type payload) (fun _ t => Relation.ReflTransGen Move s t) s
  unfold onSnapshotCommand
  rw [wp_bind, wp_get]
  dsimp only
  rw [wp_bind, wp_set]
  have hstaged : Move s { s with runtime := stageAppSnapshotCommand s.runtime type payload } :=
    .unmoved (.of_eq rfl rfl (standing_stage s.runtime type payload) rfl)
  generalize ({ s with runtime := stageAppSnapshotCommand s.runtime type payload } : Sys E) = u at hstaged
  rw [wp_bind, wp_connected, wp_ite]
  refine ⟨fun _ => .single hstaged, fun _ => ?_⟩
  rw [wp_bind]
  -- the ticket is of this life, and stays so
  let q : Ticket := ⟨u.runtime.life, u.runtime.nextRequestId⟩
  let v : Sys E := { u with runtime := { u.runtime with nextRequestId := u.runtime.nextRequestId + 1 } }
  have hv : Move u v := .unmoved (.of_eq rfl rfl rfl rfl)
  rw [wp_newTicket]
  change wp _ _ v
  have hbefore : Relation.ReflTransGen Move s v := (Relation.ReflTransGen.single hstaged).tail hv
  have hsettled : ∀ {α : Type} (w : Sys E) (outcome : Option Channel.ApplyOutcome) (f : Sys E → α), Unmoved v w →
      wp (settleAppTransfer type q outcome >>= fun _ => get >>= fun s => pure (f s))
        (fun _ t => Relation.ReflTransGen Move s t) w := by
    intro α w outcome f hw
    have hlife : q.life = w.runtime.life := (congrArg Prod.fst hw.standing).symm
    rw [wp_bind]
    exact wp_mono (P := fun _ t => Relation.ReflTransGen Move w t) (makes_settleAppTransfer type q outcome hlife)
      fun _ t ht => (hbefore.tail (.unmoved hw)).trans ht
  rw [wp_bind]
  refine wp_mono (P := fun _ w => Unmoved v w) (unmoving_sendSnapshotCommand _ v) fun sent w hw => ?_
  rw [wp_ite]
  refine ⟨fun _ => hbefore.tail (.unmoved hw), fun _ => ?_⟩
  rw [wp_bind, wp_set]
  have hmarked : Unmoved v { w with runtime := { w.runtime with offered := w.runtime.offered.map (.markSent type q) } } :=
    hw.trans (.of_eq rfl rfl rfl rfl)
  generalize ({ w with runtime := { w.runtime with offered := w.runtime.offered.map (.markSent type q) } } : Sys E) = x at hmarked
  change wp _ _ x
  rw [wp_ite]
  refine ⟨fun _ => hbefore.tail (.unmoved hmarked), fun _ => ?_⟩
  rw [wp_bind, wp_get, wp_ite]
  refine ⟨fun _ => ?_, fun _ => ?_⟩
  · rw [wp_bind, wp_note, wp_bind]
    have hentered : Unmoved v (x.enter (.relayed q x.runtime.routeKeyHash x.runtime.offered)) :=
      hmarked.trans (Unmoving.note (e := .relayed q x.runtime.routeKeyHash x.runtime.offered) trivial x)
    refine wp_mono (P := fun _ y => Unmoved v y) (hentered.trans (unmoving_awaitApplyOutcome q _)) fun outcome y hy => ?_
    exact hsettled y outcome _ hy
  · rw [wp_bind]
    refine wp_mono (P := fun _ y => Unmoved v y) (hmarked.trans (unmoving_awaitApplyOutcome q _)) fun outcome y hy => ?_
    exact hsettled y outcome _ hy


theorem makes_announceRouteToDriver : Makes Move (announceRouteToDriver (E := E)) := by
  intro s
  show wp announceRouteToDriver (fun _ t => Relation.ReflTransGen Move s t) s
  unfold announceRouteToDriver
  rw [wp_bind, wp_get]
  dsimp only
  cases encodeRouteAnnounce { deviceKeyHash := s.runtime.routeKeyHash } with
  | error e => exact .refl
  | ok payload =>
    let q : Ticket := ⟨s.runtime.life, s.runtime.nextRequestId⟩
    let v : Sys E := { s with runtime := { s.runtime with nextRequestId := s.runtime.nextRequestId + 1 } }
    have hv : Unmoved s v := .of_eq rfl rfl rfl rfl
    dsimp only
    rw [wp_bind, wp_newTicket]
    change wp _ _ v
    rw [wp_bind]
    refine wp_mono (P := fun _ w => Unmoved s w) (hv.trans (unmoving_sendSnapshotCommand _ v)) fun sent w hw => ?_
    rw [wp_ite]
    refine ⟨fun _ => ?_, fun _ => .single (.unmoved hw)⟩
    rw [wp_bind]
    refine wp_mono (P := fun _ x => Unmoved s x) (hw.trans (unmoving_awaitApplyOutcome q w)) fun outcome x hx => ?_
    rw [wp_ite]
    refine ⟨fun _ => ?_, fun _ => .single (.unmoved hx)⟩
    rw [wp_bind, wp_set, wp_bind, wp_note]
    have hstanding := hx.standing
    simp only [standingOf, Prod.mk.injEq] at hstanding
    obtain ⟨hlife, hhash, hgeneration, -⟩ := hstanding
    refine (Relation.ReflTransGen.single (.unmoved hx)).tail (.announced q hlife.symm rfl rfl ?_ ?_)
    · show (x.runtime.life, x.runtime.routeKeyHash, x.runtime.daemonGeneration, s.runtime.routeKeyHash) = _
      rw [hhash]
    · rw [hhash]
      rfl

theorem makes_pollRoute {s t : Sys E} (hstore : t.store = s.store) (hturns : t.turns = s.turns)
    (hruntime : t.runtime = s.runtime) (hlog : t.log = s.log) : Move s t.pollRoute := by
  refine .routed t.pollRoute.runtime.routeKeyHash ?_ ?_ ?_ ?_
  all_goals
    unfold Sys.pollRoute
    cases newRouteKey t.adapter t.runtime.routeKey
  · exact hstore
  · exact hstore
  · exact hturns
  · exact hturns
  · rw [hruntime]
    rfl
  · dsimp only
    rw [hruntime]
    rfl
  · exact hlog
  · exact hlog

theorem makes_onRouteReport (report : AppRouteReport) : Makes Move (onRouteReport (E := E) report) := by
  refine Makes.get.bind fun s => Makes.ite (.pure _) (Makes.ite (.pure _) (unmoving_turn.makes.bind fun t => ?_))
  refine Makes.bind (.of_move fun s => makes_pollRoute rfl rfl rfl rfl) fun _ => Makes.get.bind fun _ => .pure _

theorem makes_handleAppMessages (messages : List AppMessage) : Makes Move (handleAppMessages (E := E) messages) := by
  induction messages with
  | nil => exact .pure _
  | cons m rest ih =>
    refine Makes.bind ?_ fun _ => ih
    cases m with
    | routeReport report => exact (makes_onRouteReport report).bind fun _ => .pure _
    | snapshotCommand type payload => exact .ite ((makes_onSnapshotCommand type payload).bind fun _ => .pure _) (.pure _)

theorem makes_announcePass (driverConnected newConnection : Bool) :
    Makes Move (announcePass (E := E) driverConnected newConnection) := by
  have hforget : Makes Move (set (E := E) forgetAnnounce) := .of_move fun s => .forgotten s
  have hlast : Makes Move (set (E := E) fun r => { r with driverWasConnected := driverConnected }) :=
    (Unmoving.set (f := fun r => { r with driverWasConnected := driverConnected }) fun _ => rfl).makes
  have hdue : Makes Move (do
      if announceDue (← get) then do
        set (E := E) fun r => { r with announceAttempts := r.announceAttempts + 1 }
        if ← announceRouteToDriver then set fun r => { r with announceAttempts := 0 }
        else modify fun s => { s with
          runtime := { s.runtime with announceNextAttempt := s.now + kAnnounceRetryDelay } }
      set fun r => { r with driverWasConnected := driverConnected }) := by
    have htry : Makes Move (set (E := E) fun r => { r with announceAttempts := r.announceAttempts + 1 }) :=
      (Unmoving.set (f := fun r => { r with announceAttempts := r.announceAttempts + 1 }) fun _ => rfl).makes
    have hdone : Makes Move (set (E := E) fun r => { r with announceAttempts := 0 }) :=
      (Unmoving.set (f := fun r => { r with announceAttempts := 0 }) fun _ => rfl).makes
    refine Makes.get.bind fun s => Makes.ite (htry.bind fun _ => makes_announceRouteToDriver.bind fun ok => ?_) hlast
    refine Makes.ite (hdone.bind fun _ => hlast) (Makes.bind (.of_move fun s => ?_) fun _ => hlast)
    exact .unmoved (.of_eq rfl rfl rfl rfl)
  refine Makes.ite (Makes.ite ?_ hdue) (hforget.bind fun _ => hlast)
  exact hforget.bind fun _ => hdue

/-- **A pass makes moves.** -/
theorem makes_runOnce (messages : List AppMessage) : Makes Move (runOnce (E := E) messages) := by
  refine unmoving_poll.makes.bind fun _ => (makes_handleAppMessages messages).bind fun _ => ?_
  refine Makes.bind (.of_move fun s => makes_pollRoute rfl rfl rfl rfl) fun _ => Makes.get.bind fun s => ?_
  exact (makes_announcePass _ _).bind fun _ => makes_restorePass _ _

/-! ## The map -/

/-- what the store takes for a route; a generation that has wrapped is refused -/
def Entry.storedFor (route : Bytes) : Entry E → Option Snapshot
  | .stored _ snapshot => if snapshot.deviceKeyHash = route ∧ snapshot.daemonGeneration ≠ 0 then some snapshot else none
  | _ => none

/-- the snapshot that was stored last for a route -/
def lastStored (route : Bytes) (log : List (Entry E)) : Option Snapshot := log.findSome? (Entry.storedFor route)

def Entry.announcedRoute : Entry E → Option (Ticket × Bytes)
  | .announced q hash => some (q, hash)
  | _ => none

/-- the route that was announced last -/
def lastAnnounced (log : List (Entry E)) : Option (Ticket × Bytes) := log.findSome? Entry.announcedRoute

/-- what the store holds for a route: what was stored last, or what was there before -/
def heldFor (base : SnapshotStore) (log : List (Entry E)) (route : Bytes) : Option Snapshot :=
  (lastStored route log).or (usableSnapshot base route)

/-- a restore sends what the store holds for its route, and this route was announced last, by this process -/
def Faithful (base : SnapshotStore) (past : List (Entry E)) : Entry E → Prop
  | .opened q snapshot =>
    (∃ held, heldFor base past snapshot.deviceKeyHash = some held ∧
      snapshot = { held with daemonGeneration := snapshot.daemonGeneration }) ∧
    ∃ p, lastAnnounced past = some (p, snapshot.deviceKeyHash) ∧ p.life = q.life
  | _ => True

/-- the store and the restores are as the log says -/
structure Chronicle (base : SnapshotStore) (s : Sys E) : Prop where
  intact : ∀ t ∈ s.turns, t.disk.Renames
  mirrors : ∀ route, usableSnapshot s.store route = heldFor base s.log route
  announced : s.runtime.announcedRouteHash ≠ [] →
    ∃ q, lastAnnounced s.log = some (q, s.runtime.announcedRouteHash) ∧ q.life = s.runtime.life
  restores : Along (Faithful base) s.log

/-- incidental entries change nothing -/
theorem heldFor_incidental {entries log : List (Entry E)} (h : ∀ e ∈ entries, e.Incidental) (base : SnapshotStore)
    (route : Bytes) : heldFor base (entries ++ log) route = heldFor base log route := by
  have hnone : entries.findSome? (Entry.storedFor route) = none := by
    rw [List.findSome?_eq_none_iff]
    intro e he
    have hincidental := h e he
    cases e with
    | stored q snapshot => exact hincidental.elim
    | _ => rfl
  unfold heldFor lastStored
  rw [List.findSome?_append, hnone, Option.none_or]

theorem lastAnnounced_incidental {entries log : List (Entry E)} (h : ∀ e ∈ entries, e.Incidental) :
    lastAnnounced (entries ++ log) = lastAnnounced log := by
  have hnone : entries.findSome? Entry.announcedRoute = none := by
    rw [List.findSome?_eq_none_iff]
    intro e he
    have hincidental := h e he
    cases e with
    | announced q hash => exact hincidental.elim
    | _ => rfl
  unfold lastAnnounced
  rw [List.findSome?_append, hnone, Option.none_or]

theorem faithful_incidental {base : SnapshotStore} {entries log : List (Entry E)} (h : ∀ e ∈ entries, e.Incidental)
    (hlog : Along (Faithful base) log) : Along (Faithful base) (entries ++ log) := by
  induction entries with
  | nil => exact hlog
  | cons e entries ih =>
    refine ⟨?_, ih fun e' he' => h e' (List.mem_cons_of_mem _ he')⟩
    have hincidental := h e List.mem_cons_self
    cases e with
    | opened q snapshot => exact hincidental.elim
    | _ => trivial

/-! ## The store -/

theorem usableSnapshot_route {store : SnapshotStore} {route : Bytes} {snapshot : Snapshot}
    (h : usableSnapshot store route = some snapshot) : snapshot.deviceKeyHash = route ∧ route ≠ [] := by
  have hsafe : ∀ file snapshot, SnapshotStore.loadNamed route file = .ok snapshot → route ≠ [] := by
    intro file snapshot hload hroute
    subst hroute
    simp [SnapshotStore.loadNamed, isSafeDeviceHash] at hload
  have hfallback : usableSnapshot.fallback store route = some snapshot → snapshot.deviceKeyHash = route ∧ route ≠ [] := by
    intro hf
    unfold usableSnapshot.fallback at hf
    cases hload : store.loadPrevious route with
    | error e =>
      rw [hload] at hf
      cases hf
    | ok loaded =>
      rw [hload] at hf
      dsimp only at hf
      split_ifs at hf with hroute
      obtain rfl := Option.some.inj hf
      exact ⟨hroute, hsafe _ _ hload⟩
  unfold usableSnapshot at h
  cases hload : store.loadCurrent route with
  | error e =>
    rw [hload] at h
    exact hfallback h
  | ok loaded =>
    rw [hload] at h
    dsimp only at h
    split_ifs at h with hroute
    · obtain rfl := Option.some.inj h
      exact ⟨hroute, hsafe _ _ hload⟩
    · exact hfallback h

theorem usableSnapshot_congr {store store' : SnapshotStore} {route : Bytes} (h : store'.files route = store.files route) :
    usableSnapshot store' route = usableSnapshot store route := by
  have hcurrent : store'.loadCurrent route = store.loadCurrent route := by
    unfold SnapshotStore.loadCurrent
    rw [h]
  have hprevious : store'.loadPrevious route = store.loadPrevious route := by
    unfold SnapshotStore.loadPrevious
    rw [h]
  unfold usableSnapshot usableSnapshot.fallback
  rw [hcurrent, hprevious]

theorem usableSnapshot_of_current {store : SnapshotStore} (snapshot : Snapshot)
    (h : store.loadCurrent snapshot.deviceKeyHash = .ok snapshot) :
    usableSnapshot store snapshot.deviceKeyHash = some snapshot := by
  unfold usableSnapshot
  rw [h]
  exact if_pos rfl


/-- **A commit is an update of the map.** -/
theorem usableSnapshot_commit (store : SnapshotStore) {bytes : Bytes} {sent : Snapshot} (h : decodeSnapshot bytes = .ok sent)
    {fault : DiskFault} (hfault : fault.Renames) (g : UInt64) (route : Bytes) :
    usableSnapshot (store.commit sent.deviceKeyHash { sent with daemonGeneration := g } fault).1 route =
      if sent.deviceKeyHash = route ∧ g ≠ 0 then some { sent with daemonGeneration := g } else usableSnapshot store route := by
  have hsafe : isSafeDeviceHash sent.deviceKeyHash = true := isSafeDeviceHash_valid (decodeSnapshot_valid bytes sent h)
  by_cases hg : g = 0
  · have hkept : (store.commit sent.deviceKeyHash { sent with daemonGeneration := g } fault).1 = store := by
      subst hg
      unfold SnapshotStore.commit
      split_ifs
      · rfl
      · rfl
      · cases hencode : encodeSnapshot { sent with daemonGeneration := 0 } with
        | error e => rfl
        | ok out => exact absurd (encodeSnapshot_valid _ _ hencode).1 (validateSnapshot_zero _)
    rw [hkept, if_neg fun hc => hc.2 hg]
  · by_cases hroute : sent.deviceKeyHash = route
    · subst hroute
      rw [if_pos ⟨rfl, hg⟩]
      have hencode : encodeSnapshot { sent with daemonGeneration := g } = .ok _ := encodeSnapshot_generation h hg
      have hcurrent := SnapshotStore.current_commit store { sent with daemonGeneration := g } hfault hsafe hencode
      refine usableSnapshot_of_current ({ sent with daemonGeneration := g } : Snapshot) ?_
      have hsize := encodeSnapshot_size hencode
      unfold SnapshotStore.loadCurrent SnapshotStore.loadNamed
      rw [hcurrent, hsafe]
      simp only [SnapshotStore.readFile, Bool.not_true, Bool.false_eq_true, if_false, if_neg (not_lt.mpr hsize)]
      exact decodeSnapshot_encode hencode
    · rw [if_neg fun hc => hroute hc.1]
      exact usableSnapshot_congr (SnapshotStore.files_commit _ _ _ _ _ fun hc => hroute hc.symm)

/-! ## Runs -/

theorem Chronicle.unmoved {base : SnapshotStore} {s t : Sys E} (hs : Chronicle base s) (h : Unmoved s t) : Chronicle base t := by
  obtain ⟨entries, hlog, hentries⟩ := h.log
  have hstanding := h.standing
  simp only [standingOf, Prod.mk.injEq] at hstanding
  obtain ⟨hlife, -, -, hannounced⟩ := hstanding
  refine ⟨fun u hu => hs.intact u (h.turns.subset hu), fun route => ?_, fun hne => ?_, ?_⟩
  · rw [h.store, hlog, heldFor_incidental hentries]
    exact hs.mirrors route
  · rw [hlog, lastAnnounced_incidental hentries, hannounced, hlife]
    exact hs.announced (hannounced ▸ hne)
  · rw [hlog]
    exact faithful_incidental hentries hs.restores

/-- **A move keeps the chronicle.** -/
theorem Chronicle.move {base : SnapshotStore} {s t : Sys E} (hs : Chronicle base s) (h : Move s t) : Chronicle base t := by
  cases h with
  | unmoved h => exact hs.unmoved h
  | routed hash hstore hturns hstanding hlog =>
    simp only [standingOf, Prod.mk.injEq] at hstanding
    obtain ⟨hlife, -, -, hannounced⟩ := hstanding
    refine ⟨hturns ▸ hs.intact, fun route => ?_, fun hne => ?_, hlog ▸ hs.restores⟩
    · rw [hstore, hlog]
      exact hs.mirrors route
    · rw [hlog, hannounced, hlife]
      exact hs.announced (hannounced ▸ hne)
  | forgotten => exact ⟨hs.intact, hs.mirrors, fun hne => absurd rfl hne, hs.restores⟩
  | counted => exact ⟨hs.intact, hs.mirrors, hs.announced, hs.restores⟩
  | announced q hq hstore hturns hstanding hlog =>
    simp only [standingOf, Prod.mk.injEq] at hstanding
    obtain ⟨hlife, -, -, hannounced⟩ := hstanding
    refine ⟨hturns ▸ hs.intact, fun route => ?_, fun _ => ⟨q, ?_, hq.trans hlife.symm⟩, ?_⟩
    · rw [hstore, hlog]
      exact hs.mirrors route
    · rw [hlog, hannounced]
      rfl
    · rw [hlog]
      exact ⟨trivial, hs.restores⟩
  | opened q loaded hq hloaded hroute hstore hturns hstanding entries hentries hlog =>
    simp only [standingOf, Prod.mk.injEq] at hstanding
    obtain ⟨hlife, -, -, hannounced⟩ := hstanding
    obtain ⟨hhash, hne⟩ := usableSnapshot_route hloaded
    obtain ⟨p, hp, hplife⟩ := hs.announced (hroute ▸ hne)
    refine ⟨hturns ▸ hs.intact, fun route => ?_, fun hne => ?_, ?_⟩
    · rw [hstore, hlog]
      exact (hs.mirrors route).trans (heldFor_incidental hentries base route).symm
    · rw [hlog, hannounced, hlife]
      exact ⟨p, (lastAnnounced_incidental hentries).trans hp, hplife⟩
    · rw [hlog]
      refine ⟨⟨⟨loaded, ?_, rfl⟩, p, ?_, hplife.trans hq.symm⟩, faithful_incidental hentries hs.restores⟩
      · rw [heldFor_incidental hentries, ← hs.mirrors, hhash]
        exact hloaded
      · rw [lastAnnounced_incidental hentries, hhash, ← hroute]
        exact hp
  | stored q bytes sent hq hdecode hroute hstore hturns hstanding hlog =>
    simp only [standingOf, Prod.mk.injEq] at hstanding
    obtain ⟨hlife, -, -, hannounced⟩ := hstanding
    have hfault : (s.turns.headD {}).disk.Renames := by
      cases hs' : s.turns with
      | nil => exact .inl rfl
      | cons u rest => exact hs.intact u (hs' ▸ List.mem_cons_self)
    refine ⟨fun u hu => hs.intact u (hturns.subset hu), fun route => ?_, fun hne => ?_, ?_⟩
    · rw [hstore, hlog, usableSnapshot_commit s.store hdecode hfault, hs.mirrors]
      unfold heldFor lastStored
      rw [List.findSome?_cons]
      simp only [Entry.storedFor]
      split_ifs <;> rfl
    · rw [hlog, hannounced, hlife]
      exact hs.announced (hannounced ▸ hne)
    · rw [hlog]
      exact ⟨trivial, hs.restores⟩

theorem Chronicle.moves {base : SnapshotStore} {s t : Sys E} (hs : Chronicle base s) (h : Relation.ReflTransGen Move s t) :
    Chronicle base t := by
  induction h with
  | refl => exact hs
  | tail _ hmove ih => exact ih.move hmove

/-- no disk fault before the rename, in any turn of a pass -/
def Op.DiskRenames : Op E → Prop
  | .runOnce turns _ => ∀ t ∈ turns, t.disk.Renames
  | _ => True

theorem Sys.start_log (s : Sys E) (cacheReadable : Bool) (life : ℕ) : (s.start cacheReadable life).log = s.log ∧
    (s.start cacheReadable life).store = s.store ∧ (s.start cacheReadable life).turns = s.turns ∧
    (s.start cacheReadable life).runtime.announcedRouteHash = [] := by
  unfold Sys.start Sys.pollRoute
  dsimp only
  cases newRouteKey _ _ <;> exact ⟨rfl, rfl, rfl, rfl⟩

theorem Chronicle.start {base : SnapshotStore} {s t : Sys E} (hs : Chronicle base s) (hlog : t.log = s.log)
    (hstore : t.store = s.store) (hturns : t.turns = s.turns) (cacheReadable : Bool) (life : ℕ) :
    Chronicle base (t.start cacheReadable life) := by
  obtain ⟨hlog', hstore', hturns', hannounced⟩ := t.start_log cacheReadable life
  refine ⟨?_, fun route => ?_, fun hne => absurd hannounced hne, ?_⟩
  · rw [hturns', hturns]
    exact hs.intact
  · rw [hstore', hstore, hlog', hlog]
    exact hs.mirrors route
  · rw [hlog', hlog]
    exact hs.restores

/-- **An operation keeps the chronicle.** -/
theorem step_chronicle {base : SnapshotStore} {s : Sys E} (hs : Chronicle base s) (op : Op E) (hop : op.DiskRenames) :
    Chronicle base (step s op) := by
  cases op with
  | driver op => exact hs.unmoved (.of_eq rfl rfl rfl rfl)
  | runOnce turns messages =>
    have hturned : Chronicle base { s with turns } := ⟨hop, hs.mirrors, hs.announced, hs.restores⟩
    have hpassed := hturned.moves (makes_runOnce messages { s with turns })
    exact ⟨fun _ hu => absurd hu List.not_mem_nil, hpassed.mirrors, hpassed.announced, hpassed.restores⟩
  | reading identity =>
    unfold step
    split_ifs
    · exact hs
    · exact hs.unmoved (.of_eq rfl rfl rfl rfl)
  | wait duration => exact hs.unmoved (.of_eq rfl rfl rfl rfl)
  | restart cacheReadable =>
    exact Chronicle.start (t := { s with link := s.link.restartDaemon }) hs rfl rfl rfl cacheReadable _

theorem run_chronicle {base : SnapshotStore} {s : Sys E} (hs : Chronicle base s) (ops : List (Op E))
    (hops : ∀ op ∈ ops, op.DiskRenames) : Chronicle base (run s ops) := by
  induction ops generalizing s with
  | nil => exact hs
  | cons op ops ih =>
    exact ih (step_chronicle hs op (hops op List.mem_cons_self)) fun op' hop' => hops op' (List.mem_cons_of_mem _ hop')

theorem boot_chronicle (config : Config) (bootId : ℕ) (store : SnapshotStore) (adapter cache : Option DeviceIdentity) :
    Chronicle store (boot (E := E) config bootId store adapter cache) := by
  have hempty : Chronicle (E := E) store { config, link := Channel.init bootId, store, adapter, cache } :=
    ⟨fun _ hu => absurd hu List.not_mem_nil, fun _ => rfl, fun hne => absurd rfl hne, trivial⟩
  exact hempty.start rfl rfl rfl true 0

/-- **The store is a map, and a restore reads it.** While the disk fails at no step before a rename: the store holds for every
route the snapshot that was stored for it last, or what it held at the start; and every restore sends what the store held then
for the route that was announced last, by the process that restores, under a generation of its own. -/
theorem restored_as_stored (config : Config) (bootId : ℕ) (store : SnapshotStore) (adapter cache : Option DeviceIdentity)
    (ops : List (Op E)) (hops : ∀ op ∈ ops, op.DiskRenames) :
    let s : Sys E := run (boot config bootId store adapter cache) ops
    (∀ route, usableSnapshot s.store route = heldFor store s.log route) ∧
    ∀ q snapshot newer past, s.log = newer ++ .opened q snapshot :: past →
      (∃ held, heldFor store past snapshot.deviceKeyHash = some held ∧
        snapshot = { held with daemonGeneration := snapshot.daemonGeneration }) ∧
      ∃ p, lastAnnounced past = some (p, snapshot.deviceKeyHash) ∧ p.life = q.life := by
  intro s
  have hs : Chronicle store s := run_chronicle (boot_chronicle config bootId store adapter cache) ops hops
  refine ⟨hs.mirrors, fun q snapshot newer past hlog => ?_⟩
  have hrestores := hs.restores
  rw [hlog] at hrestores
  exact hrestores.cut


/-! ## A restart -/

instance Op.decidableDiskRenames : (op : Op E) → Decidable op.DiskRenames
  | .runOnce turns _ => inferInstanceAs (Decidable (∀ t ∈ turns, t.disk.Renames))
  | .driver _ => .isTrue trivial
  | .reading _ => .isTrue trivial
  | .wait _ => .isTrue trivial
  | .restart _ => .isTrue trivial

/-- what a restore has sent -/
def Entry.openedSnapshot : Entry E → Option (Ticket × Snapshot)
  | .opened q snapshot => some (q, snapshot)
  | _ => none

/-- The App sends a snapshot of the speaker, and the daemon is restarted. -/
def speakerRestart : List (Op gainEngine) := appTransfer ++ [.restart true, .driver .hangup, .driver (.connect .sent), promptPass]

def speakerRestarted : Sys gainEngine := run (boot { appReportedRoutes := false } 7 {} (some speaker) none) speakerRestart

/-- the restarted daemon restores what the one before it has stored -/
theorem restored_as_stored_speaker :
    usableSnapshot speakerRestarted.store (speakerSnapshot 2).deviceKeyHash =
      heldFor {} speakerRestarted.log (speakerSnapshot 2).deviceKeyHash ∧
    ∃ newer past held p, speakerRestarted.log = newer ++ .opened ⟨1, 2⟩ (speakerSnapshot 2) :: past ∧
      heldFor {} past (speakerSnapshot 2).deviceKeyHash = some held ∧
      speakerSnapshot 2 = { held with daemonGeneration := 2 } ∧
      lastAnnounced past = some (p, (speakerSnapshot 2).deviceKeyHash) ∧ p.life = 1 := by
  have hopened : (⟨1, 2⟩, speakerSnapshot 2) ∈ speakerRestarted.log.filterMap Entry.openedSnapshot := by decide +kernel
  have hentry : .opened ⟨1, 2⟩ (speakerSnapshot 2) ∈ speakerRestarted.log := by
    obtain ⟨e, he, heq⟩ := List.mem_filterMap.mp hopened
    cases e with
    | opened q snapshot =>
      obtain ⟨rfl, rfl⟩ := Prod.mk.inj (Option.some.inj heq)
      exact he
    | _ => cases heq
  obtain ⟨newer, past, hlog⟩ := List.append_of_mem hentry
  obtain ⟨hmap, hrestores⟩ := restored_as_stored (E := gainEngine) { appReportedRoutes := false } 7 {} (some speaker) none
    speakerRestart (by decide +kernel)
  obtain ⟨⟨held, hheld, hsent⟩, p, hp, hlife⟩ := hrestores _ _ newer past hlog
  exact ⟨hmap _, newer, past, held, p, hlog, hheld, hsent, hp, hlife⟩

end ViperFx.System
