/-
What a driver context runs on after a change of the route, over every run.

A context starts with its initial parameters, resources and switch, and from then on has what the last snapshot it applied left
it with. The controller checks at a COMMIT that the snapshot is of the route the context has at that moment, and at no later
time: an announce of another route touches nothing audible. So a context runs on a snapshot of the current route exactly when
the route was the current one at the last COMMIT it applied, and a route with nothing to restore inherits what the route before
it has left.

The runs are those in which only snapshots change what is audible: the threads of a context work on everything else.

Results:
  · Stable.run              : what the steps of the driver and of the daemon keep on the link is kept by every run
  · no_inheritance_iff      : in every run, which contexts run on a snapshot of the current route
  · speaker_heard_on_headset: nothing is stored for the headset, and the snapshot of the speaker stays in effect
-/
import ViperFx.System.Routes
import ViperFx.System.Walk

namespace ViperFx.System

open ViperFx.Core ViperFx.Protocol ViperFx.Daemon ViperFx.Channel ViperFx.Driver

variable {E : Engine}

/-! ## What a world keeps on the link -/

/-- a property of the link that the driver steps of a world keep, and all daemon steps -/
structure Stable (world : DriverOp (Dsp E) → Prop) (P : Link (Tracked E) → Prop) : Prop where
  driver : ∀ l op, world op → P l → P (Link.stepDriver (applier E) l (liftOp E op))
  daemon : ∀ l op, P l → P (l.stepDaemon op)

/-- the property holds now, and the turns to come are of the world -/
structure Within (world : DriverOp (Dsp E) → Prop) (P : Link (Tracked E) → Prop) (s : Sys E) : Prop where
  link : P s.link
  turns : ∀ t ∈ s.turns, ∀ op ∈ t.before, world op

/-- all driver steps of an operation are of the world -/
def Op.Of (world : DriverOp (Dsp E) → Prop) : Op E → Prop
  | .driver op => world op
  | .runOnce turns _ => ∀ t ∈ turns, ∀ op ∈ t.before, world op
  | _ => True

section Walk

variable {world : DriverOp (Dsp E) → Prop} {P : Link (Tracked E) → Prop}

theorem Within.of_eq {s t : Sys E} (h : Within world P s) (hlink : t.link = s.link) (hturns : t.turns = s.turns) :
    Within world P t := ⟨hlink ▸ h.link, hturns ▸ h.turns⟩

theorem Stable.drive (h : Stable world P) {l : Link (Tracked E)} (hl : P l) (ops : List (DriverOp (Dsp E)))
    (hops : ∀ op ∈ ops, world op) : P (ops.foldl (fun l op => Link.stepDriver (applier E) l (liftOp E op)) l) := by
  induction ops generalizing l with
  | nil => exact hl
  | cons op ops ih =>
    exact ih (h.driver l op (hops op List.mem_cons_self) hl) fun o ho => hops o (List.mem_cons_of_mem _ ho)

/-- what the steps of the link keep is kept by the calls of the runtime -/
theorem Stable.walked (h : Stable world P) : Walked (Within world P) where
  turn := by
    intro s hs
    obtain ⟨hlink, hturns⟩ := hs
    simp only [System.turn, modifyGet, MonadStateOf.modifyGet, StateT.modifyGet]
    cases hts : s.turns with
    | nil => exact ⟨hlink, hturns⟩
    | cons t rest =>
      rw [hts] at hturns
      refine ⟨h.drive hlink t.before (hturns t List.mem_cons_self), fun t' ht' => ?_⟩
      exact hturns t' (List.mem_cons_of_mem _ ht')
  onLink := fun s op _ hs => ⟨h.daemon s.link op hs.link, hs.turns⟩
  aside := fun _ _ hlink hturns _ _ hs => hs.of_eq hlink hturns

theorem pollRoute_link (s : Sys E) : s.pollRoute.link = s.link ∧ s.pollRoute.turns = s.turns := by
  unfold Sys.pollRoute
  cases newRouteKey s.adapter s.runtime.routeKey <;> exact ⟨rfl, rfl⟩

theorem Stable.restorePass (h : Stable world P) (driverConnected newConnection : Bool) :
    Keeps (Within world P) (restorePass driverConnected newConnection) := by
  refine Keeps.get.bind fun s => Keeps.ite ?_ (Keeps.pure _)
  refine Keeps.bind (fun _ hs => hs.of_eq rfl rfl) fun _ => h.walked.restoreCurrentRoute.bind fun _ => ?_
  exact Keeps.modify fun _ hs => hs.of_eq rfl rfl

theorem Stable.runOnce (h : Stable world P) (messages : List AppMessage) :
    Keeps (Within world P) (runOnce messages) := by
  have hroute : ∀ s : Sys E, Within world P s → Within world P s.pollRoute := by
    intro s hs
    exact hs.of_eq (pollRoute_link s).1 (pollRoute_link s).2
  rw [runOnce_eq]
  exact (h.walked.beforeRestore hroute messages).bind fun _ => h.restorePass _ _

/-- **One step of a run.** -/
theorem Stable.step (h : Stable world P) {s : Sys E} (hs : P s.link) (op : Op E) (hop : op.Of world) :
    P (step s op).link := by
  cases op with
  | driver op => exact h.driver s.link op hop hs
  | runOnce turns messages => exact (h.runOnce messages { s with turns } ⟨hs, hop⟩).link
  | reading identity =>
    simp only [System.step]
    split_ifs
    · exact hs
    · exact hs
  | wait duration => exact hs
  | restart cacheReadable =>
    have hlink : (System.step s (.restart cacheReadable)).link = s.link.restartDaemon := (pollRoute_link _).1
    rw [hlink]
    exact h.daemon s.link .restart hs

/-- **What every step keeps on the link is kept by every run.** -/
theorem Stable.run (h : Stable world P) {s : Sys E} (hs : P s.link) (ops : List (Op E)) (hops : ∀ op ∈ ops, op.Of world) :
    P (run s ops).link := by
  induction ops generalizing s with
  | nil => exact hs
  | cons op ops ih =>
    exact ih (h.step hs op (hops op List.mem_cons_self)) fun o ho => hops o (List.mem_cons_of_mem _ ho)

end Walk

/-! ## The last COMMIT a context has applied -/

/-- the request a context applies when it takes a command -/
def appliedRequest (x : ViperContext E) (c : Command) : Option CommitRequest :=
  match landing E x c, x.snapshotApply.examine E.ids with
  | [⟨_, .applied, _⟩], .candidate request => some request
  | _, _ => none

/-- a COMMIT that was applied: the context it found, the request, and what had happened before -/
structure Applied (E : Engine) where
  context : ViperContext E
  request : CommitRequest
  older : List (Note (Tracked E))

/-- the last COMMIT a context has applied since it registered -/
def lastApplied (id : ℕ) : List (Note (Tracked E)) → Option (Applied E)
  | [] => none
  | .registered id' _ :: older => if id' = id then none else lastApplied id older
  | .handled c contexts :: older =>
    match contexts.get? id with
    | none => lastApplied id older
    | some y =>
      match appliedRequest y.ext.ctx c with
      | none => lastApplied id older
      | some request => some ⟨y.ext.ctx, request, older⟩
  | .restarted :: older => lastApplied id older

/-- what a COMMIT leaves audible, and before any COMMIT what a context starts with -/
def audibleAfter : Option (Applied E) → E.Params × DspResources × E.Iem × Bool
  | none => ({} : Dsp E).audible
  | some a => (commitDaemonSnapshot E a.context.dsp a.request).1.audible

/-- a command changes what is audible by a COMMIT that is applied, and by nothing else -/
theorem answer_audible (x : Tracked E) (c : Command) :
    (answer E x c).1.ctx.dsp.audible = match appliedRequest x.ctx c with
      | none => x.ctx.dsp.audible
      | some request => (commitDaemonSnapshot E x.ctx.dsp request).1.audible := by
  have hlandings : (answer E x c).1.landings = landing E x.ctx c ++ x.landings := rfl
  have heff := answer_effect x c
  generalize (answer E x c).1 = x' at heff hlandings ⊢
  have hnone : x'.landings = x.landings → appliedRequest x.ctx c = none := by
    intro hsame
    have hnil : landing E x.ctx c = [] := List.append_left_eq_self.mp (hlandings.symm.trans hsame)
    simp [appliedRequest, hnil]
  cases heff with
  | adopted _ _ _ hsame _ => rw [hnone hsame.landings, hsame.audible]; rfl
  | opened _ _ _ _ _ hsame _ => rw [hnone hsame.landings, hsame.audible]; rfl
  | extended _ _ _ _ _ hsame _ => rw [hnone hsame.landings, hsame.audible]; rfl
  | applied request _ _ hexamine _ _ _ hdsp hland _ =>
    have hone : landing E x.ctx c = [⟨c.ticket, .applied, request.snapshot⟩] :=
      List.append_cancel_right (hlandings.symm.trans hland)
    simp [appliedRequest, hone, hexamine, hdsp]
  | repeated snapshot _ _ hexamine _ _ _ _ _ hdsp hland _ =>
    have hidem : appliedRequest x.ctx c = none := by
      unfold appliedRequest
      rw [hexamine]
      split
      · rename_i hcandidate
        cases hcandidate
      · rfl
    rw [hidem, hdsp]
  | dropped _ _ _ _ hdsp hland _ => rw [hnone hland, hdsp]
  | kept _ hsame _ => rw [hnone hsame.landings, hsame.audible]

/-- a context has what the last COMMIT it applied left it with -/
def Heard (id : ℕ) (trace : List (Note (Tracked E))) (x : Tracked E) : Prop :=
  x.ctx.dsp.audible = audibleAfter (lastApplied id trace)

/-- the work of threads that leave what is audible alone -/
def WorksAside (f : Tracked E → Tracked E) : Prop := ∃ g, f = Tracked.work g ∧ ∀ d : Dsp E, (g d).audible = d.audible

theorem heard_closed : Link.Closed (applier E) (fun _ _ => True) WorksAside (Heard (E := E)) where
  fresh := fun id known trace => by
    unfold Heard
    rw [lastApplied, if_pos rfl]
    rfl
  registered := fun id id' known trace x hne h => by
    unfold Heard
    rw [lastApplied, if_neg (Ne.symm hne)]
    exact h
  worked := fun id f trace x hf h => by
    obtain ⟨g, rfl, hg⟩ := hf
    exact (hg x.ctx.dsp).trans h
  handled := fun id contexts c trace y hy _ h => by
    unfold Heard
    refine (answer_audible y.ext c).trans ?_
    rw [lastApplied, hy]
    cases happlied : appliedRequest y.ext.ctx c with
    | none =>
      simp only [happlied]
      exact h
    | some request => simp [happlied, audibleAfter]

/-- a driver step that leaves what is audible to snapshots -/
def Aside (op : DriverOp (Dsp E)) : Prop := ∀ id g, op = .touch id g → ∀ d : Dsp E, (g d).audible = d.audible

theorem heard_stable : Stable Aside (fun l : Link (Tracked E) => l.Throughout Heard) where
  driver := fun l op hop h => by
    refine heard_closed.move (fun id f heq => ?_) (Link.stepDriver_move (applier E) l (liftOp E op))
      (fun _ _ _ _ _ => trivial) h
    cases op with
    | touch id' g =>
      simp only [liftOp, DriverOp.touch.injEq] at heq
      exact ⟨g, heq.2.symm, hop id' g rfl⟩
    | _ => simp [liftOp] at heq
  daemon := fun l op h => h.of_eq (Link.stepDaemon_driver l op) (Link.stepDaemon_trace l op)

/-- where the last COMMIT applied stands in the trace -/
theorem lastApplied_inv {id : ℕ} {trace : List (Note (Tracked E))} {a : Applied E} (h : lastApplied id trace = some a) :
    ∃ newer c contexts y, trace = newer ++ .handled c contexts :: a.older ∧ contexts.get? id = some y ∧
      a.context = y.ext.ctx ∧ appliedRequest y.ext.ctx c = some a.request := by
  induction trace with
  | nil => cases h
  | cons n older ih =>
    have hbehind : lastApplied id older = some a → ∃ newer c contexts y,
        n :: older = newer ++ .handled c contexts :: a.older ∧ contexts.get? id = some y ∧ a.context = y.ext.ctx ∧
          appliedRequest y.ext.ctx c = some a.request := by
      intro hold
      obtain ⟨newer, c, contexts, y, htrace, hrest⟩ := ih hold
      exact ⟨n :: newer, c, contexts, y, by rw [htrace]; rfl, hrest⟩
    cases n with
    | registered id' known =>
      rw [lastApplied] at h
      split_ifs at h
      exact hbehind h
    | restarted => exact hbehind h
    | handled c contexts =>
      rw [lastApplied] at h
      cases hy : contexts.get? id with
      | none =>
        rw [hy] at h
        exact hbehind h
      | some y =>
        rw [hy] at h
        cases hr : appliedRequest y.ext.ctx c with
        | none =>
          simp only [hr] at h
          exact hbehind h
        | some request =>
          simp only [hr, Option.some.injEq] at h
          subst h
          exact ⟨[], c, contexts, y, rfl, hy, rfl, hr⟩

/-- what is applied is of the route the context has -/
theorem appliedRequest_route {x : ViperContext E} {c : Command} {request : CommitRequest}
    (h : appliedRequest x c = some request) : request.snapshot.deviceKeyHash = x.snapshotApply.deviceKeyHash := by
  unfold appliedRequest at h
  split at h
  · rename_i hexamine
    obtain rfl := Option.some.inj h
    exact (Controller.examine_candidate hexamine).2.2.2.1
  · cases h

/-! ## Inheritance -/

/-- a context runs on its initial state, or on what the last snapshot it applied made of it, and that snapshot is of the route -/
def RunsOn (hash : Bytes) (id : ℕ) (trace : List (Note (Tracked E))) (x : Tracked E) : Prop :=
  x.ctx.dsp.audible = audibleAfter (lastApplied id trace) ∧
    ∀ a, lastApplied id trace = some a → a.request.snapshot.deviceKeyHash = hash

/-- **No inheritance between routes.** In every run in which only snapshots change what is audible, a context of the driver
runs on its initial state or on a snapshot of the current route exactly when it has applied no COMMIT, or the last announce it
had seen before the last COMMIT it applied was of the current route. -/
theorem no_inheritance_iff (config : Config) (bootId : ℕ) (store : SnapshotStore) (adapter cache : Option DeviceIdentity)
    (ops : List (Op E)) (haside : ∀ op ∈ ops, op.Of Aside) :
    let s : Sys E := run (boot config bootId store adapter cache) ops
    ∀ id x, s.link.context id = some x → (RunsOn s.runtime.routeKeyHash id s.link.trace x ↔
      ∀ a, lastApplied id s.link.trace = some a → (routeSeen id a.older).getD [] = s.runtime.routeKeyHash) := by
  intro s id x hx
  have hboot : (boot config bootId store adapter cache : Sys E).link = Channel.init bootId := (pollRoute_link _).1
  have hheard : s.link.Throughout Heard :=
    heard_stable.run (by rw [hboot]; exact init_throughout bootId _) ops haside
  have hwhole : Whole s := run_whole (boot_whole config bootId store adapter cache) ops
  -- the controller has compared the snapshot with the route of the context
  have hroute : ∀ a, lastApplied id s.link.trace = some a →
      a.request.snapshot.deviceKeyHash = (routeSeen id a.older).getD [] := by
    intro a ha
    obtain ⟨newer, c, contexts, y, htrace, hy, -, hr⟩ := lastApplied_inv ha
    rw [appliedRequest_route hr]
    exact (hwhole.sound.standing.past newer c contexts a.older htrace id y hy).route
  constructor
  · intro h a ha
    rw [← hroute a ha]
    exact h.2 a ha
  · intro h
    refine ⟨hheard.now id x hx, fun a ha => ?_⟩
    rw [hroute a ha]
    exact h a ha

/-- the first SET_CONFIG of a context -/
def configureGain (d : Dsp gainEngine) : Dsp gainEngine :=
  { configuredGain with
    parameterSnapshot := d.parameterSnapshot, resources := d.resources, iemContext := d.iemContext, enable := d.enable }

/-- one context registers and is configured, and the bridge connects -/
def quietContext : List (Op gainEngine) :=
  [.driver (.register 5 6), .driver (.touch 1 configureGain), .driver (.connect .sent)]

/-- the speaker is restored -/
def onSpeaker : List (Op gainEngine) := quietContext ++ [promptPass]

theorem onSpeaker_aside : ∀ op ∈ onSpeaker, op.Of Aside := by
  intro op hop
  simp only [onSpeaker, quietContext, List.cons_append, List.nil_append, List.mem_cons, List.not_mem_nil, or_false] at hop
  rcases hop with rfl | rfl | rfl | rfl
  · intro id g heq
    cases heq
  · intro id g heq d
    obtain ⟨-, rfl⟩ := DriverOp.touch.inj heq
    rfl
  · intro id g heq
    cases heq
  · intro t ht op hop id g heq
    obtain rfl := List.eq_of_mem_replicate ht
    obtain rfl := List.mem_singleton.mp hop
    cases heq

/-- the route of the last COMMIT a context has applied -/
def appliedUnder (id : ℕ) (trace : List (Note (Tracked gainEngine))) : Option Bytes :=
  (lastApplied id trace).map fun a => (routeSeen id a.older).getD []

/-- with the speaker plugged in, the context runs on the snapshot of the speaker -/
theorem speaker_heard_on_speaker :
    ∃ x, (run (boot { appReportedRoutes := false } 7 speakerStore (some speaker) none) onSpeaker :
        Sys gainEngine).link.context 1 = some x ∧
      RunsOn (run (boot { appReportedRoutes := false } 7 speakerStore (some speaker) none) onSpeaker :
        Sys gainEngine).runtime.routeKeyHash 1
        (run (boot { appReportedRoutes := false } 7 speakerStore (some speaker) none) onSpeaker :
          Sys gainEngine).link.trace x := by
  have hrun : appliedUnder 1 (run (boot { appReportedRoutes := false } 7 speakerStore (some speaker) none) onSpeaker :
        Sys gainEngine).link.trace =
        some (run (boot { appReportedRoutes := false } 7 speakerStore (some speaker) none) onSpeaker :
          Sys gainEngine).runtime.routeKeyHash ∧
      ((run (boot { appReportedRoutes := false } 7 speakerStore (some speaker) none) onSpeaker :
        Sys gainEngine).link.context 1).isSome = true := by decide +kernel
  obtain ⟨hunder, hsome⟩ := hrun
  obtain ⟨x, hx⟩ := Option.isSome_iff_exists.mp hsome
  refine ⟨x, hx, (no_inheritance_iff _ _ _ _ _ _ onSpeaker_aside 1 x hx).mpr fun a ha => ?_⟩
  rw [appliedUnder, ha] at hunder
  exact Option.some.inj hunder

/-- **The snapshot of the speaker on the headset.** The headset is plugged in and nothing is stored for it. The driver is
connected, the route of the headset is announced and no restore is pending; the context is not in its initial state, and the
snapshot it runs on is of the speaker. -/
theorem speaker_heard_on_headset :
    let s : Sys gainEngine := run (boot { appReportedRoutes := false } 7 speakerStore (some speaker) none)
      (onSpeaker ++ [.reading (some headset), promptPass])
    s.config.restoreEnabled = true ∧ s.link.client.isSome = true ∧
      s.runtime.routeKeyHash = (headsetSnapshot 1).deviceKeyHash ∧
      s.runtime.announcedRouteHash = s.runtime.routeKeyHash ∧ s.runtime.routeRestorePending = false ∧
      (s.link.context 1).map (fun x => x.ctx.dsp.enable) = some true ∧ ({} : Dsp gainEngine).enable = false ∧
      (lastApplied 1 s.link.trace).map (fun a => a.request.snapshot) = some (speakerSnapshot 2) ∧
      (speakerSnapshot 2).deviceKeyHash ≠ s.runtime.routeKeyHash ∧
      (s.link.context 1).all (fun x => x.landings.all fun e => e.snapshot.deviceKeyHash != s.runtime.routeKeyHash) = true := by
  decide +kernel

end ViperFx.System
