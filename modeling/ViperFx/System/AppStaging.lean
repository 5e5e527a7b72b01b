/-
The copy of an App transfer that the daemon keeps: `StageAppSnapshotCommand` and what `OnSnapshotCommand` does to it in
`daemon/DaemonRuntime.cpp`.

The App's frames are staged before they are relayed. What the driver makes of a frame is part of the frame here, so the
runs of `staging` are all runs of the staging area: any frames, with or without a driver, whatever it answers. Every
pass of the control loop is such a run (`run_staging`).

Results:
  · staging_bounded_iff : the declared size is within the limit, and the staged bytes are within the declared size
                          exactly if every chunk that is appended fits
  · run_staging         : the staging area of every reachable daemon is one of these runs
-/
import ViperFx.Core.Log
import ViperFx.System.Runtime

namespace ViperFx.System

open ViperFx.Core ViperFx.Protocol ViperFx.Daemon ViperFx.Channel ViperFx.Driver

/-! ## The staging area -/

/-- what became of a relayed frame; a chunk is not waited for -/
inductive Relay where
  | unavailable
  | answered (accepted : Bool)
  deriving DecidableEq

/-- a snapshot frame of the App -/
structure AppFrame where
  type : SnapshotCommandType
  payload : Bytes
  relay : Relay
  deriving DecidableEq

/-- `CommitStagedAppSnapshot`, as far as the staging area goes -/
def releaseStaged (r : Runtime) : Runtime :=
  if r.appStaging then { r with appStaging := false, appStagedBytes := [], offered := none } else r

/-- `OnSnapshotCommand` behind the checks of the App endpoint, as far as the staging area goes -/
def stagingStep (r : Runtime) (f : AppFrame) : Runtime :=
  if !acceptsCommand f.type f.payload then r
  else
    let r := stageAppSnapshotCommand r f.type f.payload
    match f.relay with
    | .unavailable => r
    | .answered accepted =>
      if f.type = .snapshotChunk then r
      else
        let r := if accepted ∧ f.type = .snapshotCommit then releaseStaged r else r
        if !accepted ∨ f.type = .snapshotAbort then dropStaged r else r

abbrev StagingEntry := Core.Entry Runtime AppFrame Unit

/-- the log of the staging area of a new daemon, newest frame first -/
def staging (frames : List AppFrame) : List StagingEntry := logFrom (fun r f => (stagingStep r f, ())) {} [] frames

/-! ## The bound -/

/-- the staged bytes are within the size the BEGIN declared -/
def WithinTotal (r : Runtime) : Prop := r.appStagedBytes.length ≤ r.appStagedTotal.toNat

instance (r : Runtime) : Decidable (WithinTotal r) :=
  inferInstanceAs (Decidable (r.appStagedBytes.length ≤ r.appStagedTotal.toNat))

/-- a chunk that is appended fits into the declared size -/
def Fits (_past : List StagingEntry) (entry : StagingEntry) : Prop :=
  entry.event.type = .snapshotChunk → entry.before.appStaging = true →
    ∀ chunk, decodeSnapshotChunk entry.event.payload = .ok chunk →
      chunk.offset.toNat = entry.before.appStagedBytes.length →
        entry.before.appStagedBytes.length + chunk.data.length ≤ entry.before.appStagedTotal.toNat

/-- the staging area after the answer to a frame that is not a chunk -/
def settleStaged (type : SnapshotCommandType) (accepted : Bool) (r : Runtime) : Runtime :=
  let r := if accepted ∧ type = .snapshotCommit then releaseStaged r else r
  if !accepted ∨ type = .snapshotAbort then dropStaged r else r

theorem settleStaged_cases (type : SnapshotCommandType) (accepted : Bool) (r : Runtime) :
    (settleStaged type accepted r).appStagedTotal = r.appStagedTotal ∧
      ((settleStaged type accepted r).appStagedBytes = [] ∨
        (settleStaged type accepted r).appStagedBytes = r.appStagedBytes) := by
  simp only [settleStaged, releaseStaged, dropStaged]
  split_ifs
  all_goals exact ⟨rfl, by simp⟩

/-- a frame that is not a chunk, once the endpoint has taken it -/
theorem stagingStep_other {r : Runtime} {f : AppFrame} (haccepts : acceptsCommand f.type f.payload = true)
    (htype : f.type ≠ .snapshotChunk) :
    (stagingStep r f).appStagedTotal = (stageAppSnapshotCommand r f.type f.payload).appStagedTotal ∧
      ((stagingStep r f).appStagedBytes = [] ∨
        (stagingStep r f).appStagedBytes = (stageAppSnapshotCommand r f.type f.payload).appStagedBytes) := by
  have hstep : stagingStep r f = match f.relay with
      | .unavailable => stageAppSnapshotCommand r f.type f.payload
      | .answered accepted => settleStaged f.type accepted (stageAppSnapshotCommand r f.type f.payload) := by
    unfold stagingStep settleStaged
    simp only [haccepts, Bool.not_true, Bool.false_eq_true, if_false, if_neg htype]
  rw [hstep]
  cases f.relay with
  | unavailable => exact ⟨rfl, .inr rfl⟩
  | answered accepted => exact settleStaged_cases f.type accepted _

theorem stagingStep_chunk {r : Runtime} {f : AppFrame} (haccepts : acceptsCommand f.type f.payload = true)
    (htype : f.type = .snapshotChunk) : stagingStep r f = stageAppSnapshotCommand r f.type f.payload := by
  unfold stagingStep
  simp only [haccepts, Bool.not_true, Bool.false_eq_true, if_false, if_pos htype]
  cases f.relay <;> rfl

theorem fits_of_type {past : List StagingEntry} {r t : Runtime} {f : AppFrame} (h : f.type ≠ .snapshotChunk) :
    Fits past ⟨r, f, (), t⟩ := fun htype => absurd htype h

/-- everything one frame can do to the staging area -/
theorem stagingStep_cases (r : Runtime) (f : AppFrame) :
    ((∀ past, Fits past ⟨r, f, (), stagingStep r f⟩) ∧
      ((stagingStep r f).appStagedBytes = [] ∨ (stagingStep r f).appStagedBytes = r.appStagedBytes) ∧
      (stagingStep r f).appStagedTotal = r.appStagedTotal) ∨
    ((∀ past, Fits past ⟨r, f, (), stagingStep r f⟩) ∧ (stagingStep r f).appStagedBytes = [] ∧
      ∃ b, decodeSnapshotBegin f.payload = .ok b ∧ (stagingStep r f).appStagedTotal = b.totalSize) ∨
    (f.type = .snapshotChunk ∧ r.appStaging = true ∧ ∃ chunk, decodeSnapshotChunk f.payload = .ok chunk ∧
      chunk.offset.toNat = r.appStagedBytes.length ∧ (stagingStep r f).appStagedTotal = r.appStagedTotal ∧
      (stagingStep r f).appStagedBytes = r.appStagedBytes ++ chunk.data) := by
  by_cases haccepts : acceptsCommand f.type f.payload = true
  · cases htype : f.type with
    | snapshotBegin =>
      have hne : f.type ≠ .snapshotChunk := by simp [htype]
      obtain ⟨htotal, hbytes⟩ := stagingStep_other (r := r) haccepts hne
      rw [htype] at haccepts htotal hbytes
      cases hb : decodeSnapshotBegin f.payload with
      | error e => simp [acceptsCommand, hb, Except.isOk, Except.toBool] at haccepts
      | ok b =>
        simp only [stageAppSnapshotCommand, hb, or_self] at htotal hbytes
        exact .inr (.inl ⟨fun _ => fits_of_type hne, hbytes, b, rfl, htotal⟩)
    | snapshotChunk =>
      rw [stagingStep_chunk haccepts htype, htype]
      rw [htype] at haccepts
      cases hc : decodeSnapshotChunk f.payload with
      | error e => simp [acceptsCommand, hc, Except.isOk, Except.toBool] at haccepts
      | ok chunk =>
        cases hs : r.appStaging with
        | false =>
          have hstage : stageAppSnapshotCommand r .snapshotChunk f.payload =
              { r with offered := r.offered.map (.grow f.payload) } := by
            simp [stageAppSnapshotCommand, hs]
          rw [hstage]
          refine .inl ⟨fun _ _ hstaging => ?_, .inr rfl, rfl⟩
          rw [hs] at hstaging
          cases hstaging
        | true =>
          by_cases hoffset : chunk.offset.toNat = r.appStagedBytes.length
          · have hstage : stageAppSnapshotCommand r .snapshotChunk f.payload =
                { r with
                  appStagedBytes := r.appStagedBytes ++ chunk.data, offered := r.offered.map (.grow f.payload) } := by
              simp [stageAppSnapshotCommand, hs, hc, hoffset]
            rw [hstage]
            exact .inr (.inr ⟨rfl, rfl, chunk, rfl, hoffset, rfl, rfl⟩)
          · have hstage : stageAppSnapshotCommand r .snapshotChunk f.payload =
                { r with appStaging := false, offered := r.offered.map (.grow f.payload) } := by
              simp [stageAppSnapshotCommand, hs, hc, hoffset]
            rw [hstage]
            refine .inl ⟨fun _ _ _ chunk' hc' hoffset' => ?_, .inr rfl, rfl⟩
            rw [hc] at hc'
            obtain rfl := Except.ok.inj hc'
            exact absurd hoffset' hoffset
    | snapshotCommit | snapshotAbort =>
      have hne : f.type ≠ .snapshotChunk := by simp [htype]
      obtain ⟨htotal, hbytes⟩ := stagingStep_other (r := r) haccepts hne
      rw [htype] at htotal hbytes
      exact .inl ⟨fun _ => fits_of_type hne, hbytes, htotal⟩
    | routeAnnounce =>
      rw [htype] at haccepts
      cases haccepts
  · have hstep : stagingStep r f = r := by
      unfold stagingStep
      simp [haccepts]
    rw [hstep]
    refine .inl ⟨fun _ htype _ chunk hc => ?_, .inr rfl, rfl⟩
    have htype' : f.type = .snapshotChunk := htype
    have hc' : decodeSnapshotChunk f.payload = .ok chunk := hc
    simp [acceptsCommand, htype', hc', Except.isOk, Except.toBool] at haccepts

theorem stagingStep_total {r : Runtime} (h : r.appStagedTotal.toNat ≤ kMaxSnapshotSize) (f : AppFrame) :
    (stagingStep r f).appStagedTotal.toNat ≤ kMaxSnapshotSize := by
  obtain ⟨-, -, ht⟩ | ⟨-, -, b, hb, ht⟩ | ⟨-, -, -, -, -, ht, -⟩ := stagingStep_cases r f
  · rw [ht]
    exact h
  · rw [ht]
    exact decodeSnapshotBegin_size hb
  · rw [ht]
    exact h

/-- one frame keeps within the total exactly if what it appends fits -/
theorem stagingStep_within {r : Runtime} (h : WithinTotal r) (f : AppFrame) (past : List StagingEntry) :
    WithinTotal (stagingStep r f) ↔ Fits past ⟨r, f, (), stagingStep r f⟩ := by
  unfold WithinTotal
  obtain ⟨hfits, hbytes, ht⟩ | ⟨hfits, hbytes, -⟩ | ⟨htype, hs, chunk, hc, hoffset, ht, hbytes⟩ := stagingStep_cases r f
  · refine iff_of_true ?_ (hfits past)
    rcases hbytes with hb | hb
    · simp [hb]
    · rw [hb, ht]
      exact h
  · exact iff_of_true (by simp [hbytes]) (hfits past)
  · rw [hbytes, ht, List.length_append]
    refine ⟨fun hle _ _ chunk' hc' _ => ?_, fun hfit => hfit htype hs chunk hc hoffset⟩
    have hsame : decodeSnapshotChunk f.payload = .ok chunk' := hc'
    rw [hc] at hsame
    obtain rfl := Except.ok.inj hsame
    exact hle

/-- **The staging area of the daemon.** Over every sequence of App frames, whatever the driver does: the declared size
is within `kMaxSnapshotSize`, and the staged bytes stay within the declared size exactly if every chunk that is appended
fits into it. -/
theorem staging_bounded_iff (frames : List AppFrame) :
    Along (fun _ entry => entry.after.appStagedTotal.toNat ≤ kMaxSnapshotSize) (staging frames) ∧
      (Along (fun _ entry => WithinTotal entry.after) (staging frames) ↔ Along Fits (staging frames)) := by
  refine ⟨?_, ?_, ?_⟩
  · refine along_logFrom _ (I := fun r _ => r.appStagedTotal.toNat ≤ kMaxSnapshotSize) (C := fun _ _ => True)
      (fun r past f h _ => ?_) frames (by decide) trivial ?_
    · exact ⟨stagingStep_total h f, stagingStep_total h f⟩
    · exact Along.of_forall (fun _ _ => trivial) _
  · intro h
    exact along_logFrom _ (I := fun r _ => WithinTotal r)
      (fun r past f hr hw => ⟨hw, (stagingStep_within hr f past).mp hw⟩) frames (by simp [WithinTotal]) trivial h
  · intro h
    exact along_logFrom _ (I := fun r _ => WithinTotal r)
      (fun r past f hr hf => ⟨(stagingStep_within hr f past).mpr hf, (stagingStep_within hr f past).mpr hf⟩) frames
      (by simp [WithinTotal]) trivial h

/-- **A chunk outgrows its transfer.** The App declares one byte and sends two: the daemon stages both. -/
theorem oversized_chunk_is_staged :
    ¬ Along (fun _ entry => WithinTotal entry.after)
      (staging [⟨.snapshotBegin, beginBytes ⟨1, 1, 1, 1, 0, List.replicate 64 48⟩, .answered true⟩,
        ⟨.snapshotChunk, chunkBytes ⟨0, [7, 7]⟩, .answered true⟩]) := by
  decide +kernel

/-! ## Passes of the control loop -/

def stagingOf (r : Runtime) : Bytes × UInt32 × UInt32 × Bool :=
  (r.appStagedBytes, r.appStagedTotal, r.appStagedCrc, r.appStaging)

/-- the staging area is empty at first and changes by App frames only -/
inductive FromFrames : Runtime → Prop
  | fresh {r : Runtime} (h : stagingOf r = stagingOf {}) : FromFrames r
  | frame {r : Runtime} (h : FromFrames r) (f : AppFrame) : FromFrames (stagingStep r f)
  | other {r r' : Runtime} (h : FromFrames r) (hsame : stagingOf r' = stagingOf r) : FromFrames r'

section Programs

variable {E : Engine}

/-- a program that leaves the staging area alone -/
def Steady {α : Type} (m : Prog E α) : Prop := ∀ s, stagingOf (m s).2.runtime = stagingOf s.runtime

theorem Steady.pure {α : Type} (a : α) : Steady (E := E) (pure a) := fun _ => rfl

theorem Steady.get : Steady (get : Prog E (Sys E)) := fun _ => rfl

theorem Steady.bind {α β : Type} {m : Prog E α} {f : α → Prog E β} (hm : Steady m) (hf : ∀ a, Steady (f a)) :
    Steady (m >>= f) := fun s => (hf _ _).trans (hm s)

theorem Steady.modify {f : Sys E → Sys E} (h : ∀ s, stagingOf (f s).runtime = stagingOf s.runtime) :
    Steady (modify f) := h

theorem Steady.ite {α : Type} {c : Prop} [Decidable c] {m m' : Prog E α} (hm : Steady m) (hm' : Steady m') :
    Steady (if c then m else m') := by
  split_ifs
  · exact hm
  · exact hm'

theorem Steady.set {f : Runtime → Runtime} (h : ∀ r, stagingOf (f r) = stagingOf r) : Steady (E := E) (set f) :=
  fun s => h s.runtime

theorem Steady.note (e : Entry E) : Steady (note e) := fun _ => rfl

theorem steady_turn : Steady (E := E) turn := by
  intro s
  simp only [turn, modifyGet, MonadStateOf.modifyGet, StateT.modifyGet]
  cases s.turns <;> rfl

theorem steady_poll : Steady (E := E) poll := by
  have hrecv : Steady (E := E) recv := steady_turn.bind fun _ _ => rfl
  have hloop : ∀ attempts, Steady (E := E) (recvLoop attempts) := by
    intro attempts
    induction attempts with
    | zero => exact .pure _
    | succ attempts ih => exact hrecv.bind fun more => .ite ih (.pure _)
  have haccept : Steady (E := E) acceptPending := steady_turn.bind fun _ _ => rfl
  exact haccept.bind fun _ => hloop _

theorem steady_sendSnapshotCommand (c : Command) : Steady (E := E) (sendSnapshotCommand c) := by
  refine steady_turn.bind fun t => Steady.bind (fun _ => rfl) fun sent => ?_
  exact Steady.ite ((Steady.note _).bind fun _ => .pure _) (.pure _)

theorem steady_awaitApplyOutcome (ticket : Ticket) : Steady (E := E) (awaitApplyOutcome ticket) := by
  have hpause : Steady (E := E) (pause kApplyPollInterval) := .modify fun _ => rfl
  have htake : Steady (E := E) takeApplyOutcome := fun _ => rfl
  have hloop : ∀ id attempts, Steady (E := E) (awaitLoop id attempts) := by
    intro id attempts
    induction attempts with
    | zero => exact .pure _
    | succ attempts ih =>
      refine steady_poll.bind fun _ => htake.bind fun outcome => ?_
      cases outcome with
      | none => exact hpause.bind fun _ => ih
      | some outcome => exact .ite (.pure _) (hpause.bind fun _ => ih)
  exact (hloop _ _).bind fun outcome => Steady.ite ((Steady.note _).bind fun _ => .pure _) (.pure _)

theorem steady_newTicket : Steady (E := E) newTicket := fun _ => rfl

theorem steady_sendChunks (bytes : Bytes) (ticket : Ticket) (fuel offset : ℕ) :
    Steady (E := E) (sendChunks bytes ticket fuel offset) := by
  induction fuel generalizing offset with
  | zero => exact .pure _
  | succ fuel ih =>
    refine .ite ?_ (.pure _)
    cases encodeSnapshotChunk (chunkAt bytes offset) with
    | error e => exact .pure _
    | ok payload => exact (steady_sendSnapshotCommand _).bind fun sent => .ite (ih _) (.pure _)

theorem steady_transfer (snapshot : Snapshot) (bytes : Bytes) (ticket : Ticket) :
    Steady (E := E) (transfer snapshot bytes ticket) := by
  have hbody : Steady (E := E) (sendBody snapshot bytes ticket) := by
    refine (steady_sendChunks _ _ _ _).bind fun sent => .ite ?_ (.pure _)
    cases encodeSnapshotCommit ⟨snapshot.appGeneration, snapshot.daemonGeneration⟩ with
    | error e => exact .pure _
    | ok payload =>
      exact (steady_sendSnapshotCommand _).bind fun sent =>
        .ite ((steady_awaitApplyOutcome _).bind fun _ => .pure _) (.pure _)
  unfold transfer
  cases encodeSnapshotBegin (beginOf snapshot bytes) with
  | error e => exact .pure _
  | ok payload =>
    exact (steady_sendSnapshotCommand _).bind fun sent =>
      .ite ((steady_awaitApplyOutcome _).bind fun outcome => .ite hbody (.pure _)) (.pure _)

theorem steady_applySnapshotToDriver (snapshot : Snapshot) : Steady (E := E) (applySnapshotToDriver snapshot) := by
  unfold applySnapshotToDriver
  cases encodeSnapshot snapshot with
  | error e => exact .pure _
  | ok bytes =>
    exact steady_newTicket.bind fun ticket => (Steady.note _).bind fun _ =>
      (steady_transfer _ _ _).bind fun _ => (Steady.note _).bind fun _ => .pure _

theorem steady_announceRouteToDriver : Steady (E := E) announceRouteToDriver := by
  refine Steady.get.bind fun s => ?_
  dsimp only
  cases encodeRouteAnnounce { deviceKeyHash := s.runtime.routeKeyHash } with
  | error e => exact .pure _
  | ok payload =>
    refine steady_newTicket.bind fun ticket => (steady_sendSnapshotCommand _).bind fun sent => .ite ?_ (.pure _)
    refine (steady_awaitApplyOutcome _).bind fun outcome => .ite ?_ (.pure _)
    exact Steady.bind (.set fun _ => rfl) fun _ => (Steady.note _).bind fun _ => .pure _

theorem steady_restoreCurrentRoute : Steady (E := E) restoreCurrentRoute := by
  refine Steady.get.bind fun s => .ite ((Steady.note _).bind fun _ => .pure _) ?_
  cases usableSnapshot s.store s.runtime.routeKeyHash with
  | none => exact (Steady.note _).bind fun _ => .pure _
  | some loaded =>
    refine Steady.bind (.set fun _ => rfl) fun _ => (Steady.note _).bind fun _ => ?_
    exact (steady_applySnapshotToDriver _).bind fun _ => .pure _

theorem pollRoute_staging (s : Sys E) : stagingOf s.pollRoute.runtime = stagingOf s.runtime := by
  unfold Sys.pollRoute
  cases newRouteKey s.adapter s.runtime.routeKey <;> rfl

theorem steady_onRouteReport (report : AppRouteReport) : Steady (E := E) (onRouteReport report) := by
  refine Steady.get.bind fun s => .ite (.pure _) (.ite (.pure _) (steady_turn.bind fun t => ?_))
  exact Steady.bind (.modify fun s => pollRoute_staging _) fun _ => Steady.get.bind fun _ => .pure _

theorem steady_announcePass (driverConnected newConnection : Bool) :
    Steady (E := E) (announcePass driverConnected newConnection) := by
  have hforget : Steady (E := E) (set forgetAnnounce) := .set fun _ => rfl
  have hlast : Steady (E := E) (set fun r => { r with driverWasConnected := driverConnected }) := .set fun _ => rfl
  have hdue : Steady (E := E) (do
      if announceDue (← get) then do
        set fun r => { r with announceAttempts := r.announceAttempts + 1 }
        if ← announceRouteToDriver then set fun r => { r with announceAttempts := 0 }
        else modify fun s => { s with
          runtime := { s.runtime with announceNextAttempt := s.now + kAnnounceRetryDelay } }
      set fun r => { r with driverWasConnected := driverConnected }) := by
    refine Steady.get.bind fun s => Steady.ite ?_ hlast
    refine Steady.bind (.set fun _ => rfl) fun _ => steady_announceRouteToDriver.bind fun ok => ?_
    exact Steady.ite (Steady.bind (.set fun _ => rfl) fun _ => hlast) (Steady.bind (.modify fun _ => rfl) fun _ => hlast)
  refine Steady.ite (Steady.ite ?_ ?_) (hforget.bind fun _ => hlast)
  · exact hforget.bind fun _ => hdue
  · exact hdue

theorem steady_restorePass (driverConnected newConnection : Bool) :
    Steady (E := E) (restorePass driverConnected newConnection) := by
  refine Steady.get.bind fun s => Steady.ite ?_ (.pure _)
  refine Steady.bind (.set fun _ => rfl) fun _ => steady_restoreCurrentRoute.bind fun _ => ?_
  exact Steady.modify fun _ => rfl

theorem releaseStaged_congr {r r' : Runtime} (h : stagingOf r = stagingOf r') :
    stagingOf (releaseStaged r) = stagingOf (releaseStaged r') := by
  simp only [stagingOf, Prod.mk.injEq] at h
  obtain ⟨hbytes, htotal, hcrc, hstaging⟩ := h
  unfold releaseStaged
  rw [hstaging]
  split_ifs
  · simp [stagingOf, htotal, hcrc]
  · simp [stagingOf, hbytes, htotal, hcrc, hstaging]

theorem dropStaged_congr {r r' : Runtime} (h : stagingOf r = stagingOf r') :
    stagingOf (dropStaged r) = stagingOf (dropStaged r') := by
  simp only [stagingOf, Prod.mk.injEq] at h
  simp [stagingOf, dropStaged, h.2.1, h.2.2.1]

theorem commitStagedAppSnapshot_staging (ticket : Ticket) (s : Sys E) :
    stagingOf (commitStagedAppSnapshot ticket s).2.runtime = stagingOf (releaseStaged s.runtime) := by
  by_cases hs : s.runtime.appStaging = true
  · cases hstaged : stagedAppSnapshot s.runtime with
    | none =>
      have hprog : commitStagedAppSnapshot ticket s =
          ((), { s with runtime := { s.runtime with appStaging := false, appStagedBytes := [], offered := none } }) := by
        show (if s.runtime.appStaging = true then _ else _ : Prog E Unit) s = _
        rw [if_pos hs, hstaged]
        rfl
      rw [hprog, releaseStaged, if_pos hs]
    | some snapshot =>
      have hrest : Steady (E := E) (do
          let t ← turn
          modify fun s => { s with store := (s.store.commit snapshot.deviceKeyHash snapshot t.disk).1 }
          note (.stored ticket snapshot)) :=
        steady_turn.bind fun t => Steady.bind (.modify fun _ => rfl) fun _ => .note _
      have hprog : commitStagedAppSnapshot ticket s = (do
          let t ← turn
          modify fun s => { s with store := (s.store.commit snapshot.deviceKeyHash snapshot t.disk).1 }
          note (.stored ticket snapshot) : Prog E Unit)
          { s with runtime := { s.runtime with appStaging := false, appStagedBytes := [], offered := none } } := by
        show (if s.runtime.appStaging = true then _ else _ : Prog E Unit) s = _
        rw [if_pos hs, hstaged]
        rfl
      rw [hprog, hrest, releaseStaged, if_pos hs]
  · have hprog : commitStagedAppSnapshot ticket s = ((), s) := by
      show (if s.runtime.appStaging = true then _ else _ : Prog E Unit) s = _
      rw [if_neg hs]
      rfl
    rw [hprog, releaseStaged, if_neg hs]

/-- from a staging area with `P` the program comes to one with `Q` -/
def Leads {α : Type} (P Q : Bytes × UInt32 × UInt32 × Bool → Prop) (m : Prog E α) : Prop :=
  ∀ s, P (stagingOf s.runtime) → Q (stagingOf (m s).2.runtime)

theorem Steady.leads {α : Type} {m : Prog E α} (h : Steady m) (P : Bytes × UInt32 × UInt32 × Bool → Prop) :
    Leads P P m := fun s hs => by rw [h s]; exact hs

theorem Leads.bind {α β : Type} {P Q R : Bytes × UInt32 × UInt32 × Bool → Prop} {m : Prog E α} {f : α → Prog E β}
    (hm : Leads P Q m) (hf : ∀ a, Leads Q R (f a)) : Leads P R (m >>= f) := fun s hs => hf _ _ (hm s hs)

theorem Leads.ite {α : Type} {c : Prop} [Decidable c] {P Q : Bytes × UInt32 × UInt32 × Bool → Prop} {m m' : Prog E α}
    (hm : c → Leads P Q m) (hm' : ¬ c → Leads P Q m') : Leads P Q (if c then m else m') := by
  split_ifs with hc
  · exact hm hc
  · exact hm' hc

theorem Leads.pure {α : Type} {P Q : Bytes × UInt32 × UInt32 × Bool → Prop} (h : ∀ x, P x → Q x) (a : α) :
    Leads (E := E) P Q (pure a) := fun _ hs => h _ hs

/-- what the answer to a frame does to the staging area -/
theorem settleAppTransfer_leads (type : SnapshotCommandType) (ticket : Ticket) (outcome : Option Channel.ApplyOutcome)
    (r : Runtime) :
    Leads (E := E) (fun x => x = stagingOf r) (fun x => x = stagingOf (settleStaged type (accepted outcome) r))
      (settleAppTransfer type ticket outcome) := by
  let released := if accepted outcome ∧ type = .snapshotCommit then releaseStaged r else r
  have hlast : Leads (E := E) (fun x => x = stagingOf released)
      (fun x => x = stagingOf (settleStaged type (accepted outcome) r))
      (if !accepted outcome ∨ type = .snapshotAbort then set dropStaged else pure ()) := by
    refine Leads.ite (fun hdrop s hs => ?_) fun hkeep s hs => ?_
    · simp only [settleStaged, if_pos hdrop]
      exact dropStaged_congr hs
    · simp only [settleStaged, if_neg hkeep]
      exact hs
  have hgeneration : Steady (E := E) (set fun r => { r with daemonGeneration := r.daemonGeneration + 1 }) :=
    .set fun _ => rfl
  refine Leads.ite (fun hc => ?_) fun hc => ?_
  · refine (hgeneration.leads _).bind fun _ => Leads.bind (fun s hs => ?_) fun _ => hlast
    rw [commitStagedAppSnapshot_staging]
    simp only [released, if_pos hc]
    exact releaseStaged_congr hs
  · intro s hs
    refine hlast s ?_
    simp only [released, if_neg hc]
    exact hs

/-- **A snapshot command of the App is a frame of the staging area**, whatever becomes of it. -/
theorem onSnapshotCommand_staging {type : SnapshotCommandType} {payload : Bytes}
    (haccepts : acceptsCommand type payload = true) (s : Sys E) :
    ∃ relay, stagingOf (onSnapshotCommand type payload s).2.runtime =
      stagingOf (stagingStep s.runtime ⟨type, payload, relay⟩) := by
  set base := stageAppSnapshotCommand s.runtime type payload with hbase
  let P : Bytes × UInt32 × UInt32 × Bool → Prop := fun x => x = stagingOf base
  let Q : Bytes × UInt32 × UInt32 × Bool → Prop := fun x =>
    ∃ relay, x = stagingOf (stagingStep s.runtime ⟨type, payload, relay⟩)
  have hPQ : ∀ x, P x → Q x := by
    intro x hx
    refine ⟨.unavailable, hx.trans (congrArg stagingOf ?_)⟩
    simp [stagingStep, haccepts, hbase]
  have hsettled : type ≠ .snapshotChunk → ∀ accepted x, x = stagingOf (settleStaged type accepted base) → Q x := by
    intro htype accepted x hx
    refine ⟨.answered accepted, hx.trans (congrArg stagingOf ?_)⟩
    simp [stagingStep, haccepts, hbase, settleStaged, htype]
  have hconnected : Steady (E := E) connected := Steady.get.bind fun _ => .pure _
  unfold onSnapshotCommand
  refine (?_ : Leads P Q _) { s with runtime := base } rfl
  refine (hconnected.leads P).bind fun up => Leads.ite (fun _ => .pure hPQ _) fun _ => ?_
  refine (steady_newTicket.leads P).bind fun ticket => ((steady_sendSnapshotCommand _).leads P).bind fun sent => ?_
  have hmark : Steady (E := E) (set fun r => { r with offered := r.offered.map (.markSent type ticket) }) :=
    .set fun _ => rfl
  refine Leads.ite (fun _ => .pure hPQ _) fun _ => (hmark.leads P).bind fun _ => ?_
  refine Leads.ite (fun _ => .pure hPQ _) fun htype => ?_
  refine (Steady.get.leads P).bind fun s' => ?_
  refine Leads.ite (fun _ => ((Steady.note _).leads P).bind fun _ => ?_) fun _ => ?_
  all_goals
    refine ((steady_awaitApplyOutcome _).leads P).bind fun outcome => ?_
    refine (settleAppTransfer_leads type ticket outcome base).bind fun _ => ?_
    exact (Steady.get.leads _).bind fun _ => .pure (hsettled htype _) _

theorem handleAppMessages_fromFrames (messages : List AppMessage) :
    Keeps (fun s : Sys E => FromFrames s.runtime) (handleAppMessages messages) := by
  induction messages with
  | nil => exact Keeps.pure _
  | cons m rest ih =>
    refine Keeps.bind (fun s hs => ?_) fun _ => ih
    cases m with
    | routeReport report => exact hs.other (steady_onRouteReport report s)
    | snapshotCommand type payload =>
      by_cases haccepts : acceptsCommand type payload = true
      · obtain ⟨relay, hrelay⟩ := onSnapshotCommand_staging haccepts s
        have hprog : handleAppMessage (.snapshotCommand type payload) s =
            ((), (onSnapshotCommand type payload s).2) := by
          simp only [handleAppMessage, if_pos haccepts]
          rfl
        rw [hprog]
        exact (hs.frame ⟨type, payload, relay⟩).other hrelay
      · have hprog : handleAppMessage (.snapshotCommand type payload) s = ((), s) := by
          simp only [handleAppMessage, if_neg haccepts]
          rfl
        rw [hprog]
        exact hs

theorem Steady.fromFrames {α : Type} {m : Prog E α} (h : Steady m) : Keeps (fun s => FromFrames s.runtime) m :=
  fun s hs => hs.other (h s)

theorem runOnce_fromFrames (messages : List AppMessage) :
    Keeps (fun s : Sys E => FromFrames s.runtime) (runOnce messages) := by
  refine steady_poll.fromFrames.bind fun _ => (handleAppMessages_fromFrames messages).bind fun _ => ?_
  refine Keeps.bind (Steady.modify pollRoute_staging).fromFrames fun _ => Keeps.get.bind fun s => ?_
  exact (steady_announcePass _ _).fromFrames.bind fun _ => (steady_restorePass _ _).fromFrames

/-- **The staging area of every reachable daemon comes from App frames alone**, over every run: passes, driver steps,
route readings, restarts. -/
theorem run_staging {s : Sys E} (h : FromFrames s.runtime) (ops : List (Op E)) : FromFrames (run s ops).runtime := by
  induction ops generalizing s with
  | nil => exact h
  | cons op ops ih =>
    refine ih ?_
    cases op with
    | driver op => exact h
    | runOnce turns messages => exact runOnce_fromFrames messages { s with turns } h
    | reading identity =>
      simp only [step]
      split_ifs
      · exact h
      · exact h
    | wait duration => exact h
    | restart cacheReadable => exact .fresh (pollRoute_staging _)

/-- the size a daemon holds as declared is within the limit, in every reachable state -/
theorem reachable_total_le (config : Config) (bootId : ℕ) (store : SnapshotStore)
    (adapter cache : Option DeviceIdentity) (ops : List (Op E)) :
    (run (boot config bootId store adapter cache) ops : Sys E).runtime.appStagedTotal.toNat ≤ kMaxSnapshotSize := by
  have hreach := run_staging (E := E) (s := boot config bootId store adapter cache) (.fresh (pollRoute_staging _)) ops
  generalize (run (boot config bootId store adapter cache) ops : Sys E).runtime = r at hreach
  induction hreach with
  | fresh h =>
    have htotal := congrArg (fun x => x.2.1) h
    simp only [stagingOf] at htotal
    simp [htotal]
  | frame _ f ih => exact stagingStep_total ih f
  | other _ h ih =>
    have htotal := congrArg (fun x => x.2.1) h
    simp only [stagingOf] at htotal
    rw [htotal]
    exact ih

end Programs

end ViperFx.System
