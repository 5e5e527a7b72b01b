/-
One snapshot command to every context: `DriverEventPublisher::ApplySnapshotCommand` of `src/DriverEventPublisher.cpp`.

The publisher copies the appliers under its lock and calls them one after another without it, so contexts come and go
while a command is on its way round: one that registers meanwhile is not called, one that unregisters meanwhile still
is. Each context stages on its own, may refuse a BEGIN the others take, and may join in the middle of a transfer.

Chunks carry their offset, and that is enough: of two contexts that stage at the same time, either both hold the same
bytes or one of them holds none (`Compatible`), because a chunk that extends one of two different areas is out of order
for the other. A COMMIT needs a snapshot that decodes, so nobody who accepts it holds none.

Results:
  · compatible_handle       : two compatible contexts stay so under the same command
  · step_inv, run_inv       : compatibility through every interleaving with registrations and releases
  · fan_out_agrees          : when a command is accepted, and what an accepted COMMIT leaves everywhere
  · round_atomic            : a round nobody interrupts is the step the link model takes
-/
import ViperFx.Driver.SnapshotCommit
import ViperFx.Channel.Pipeline

namespace ViperFx.Driver

open ViperFx.Core ViperFx.Protocol ViperFx.Channel

/-! ## Contexts that stage at the same time -/

/-- if both stage, they hold the same bytes or one of them holds none -/
def Compatible (c d : Controller) : Prop :=
  c.staging = true → d.staging = true → c.staged = d.staged ∨ c.staged = [] ∨ d.staged = []

theorem Compatible.of_idle {c : Controller} (h : c.staging = false) (d : Controller) : Compatible c d := by
  intro hc
  rw [h] at hc
  cases hc

theorem Compatible.symm {c d : Controller} (h : Compatible c d) : Compatible d c := by
  intro hd hc
  rcases h hc hd with heq | hempty | hempty
  · exact .inl heq.symm
  · exact .inr (.inr hempty)
  · exact .inr (.inl hempty)

theorem Compatible.congr {c c' d d' : Controller} (h : Compatible c d) (hc : c'.staging = c.staging)
    (hcs : c'.staged = c.staged) (hd : d'.staging = d.staging) (hds : d'.staged = d.staged) : Compatible c' d' := by
  unfold Compatible
  rw [hc, hcs, hd, hds]
  exact h

namespace ViperContext

variable {E : Engine}

/-- a BEGIN empties the staging area or leaves it alone, and so does a route -/
theorem Reaction.opening {x x' : ViperContext E} {type : SnapshotCommandType} {payload : Bytes} {ack : SnapshotAck}
    (h : Reaction E x type payload x' ack) (htype : type = .snapshotBegin ∨ type = .routeAnnounce) :
    x'.snapshotApply.staged = [] ∨
      (x'.snapshotApply.staging = x.snapshotApply.staging ∧ x'.snapshotApply.staged = x.snapshotApply.staged) := by
  cases h with
  | adopted hash x' ack ht hdecode hx hack =>
    rw [hx]
    exact .inr ⟨rfl, rfl⟩
  | opened b x' ack ht hdecode hidle hroute hx hack =>
    rw [hx]
    exact .inl rfl
  | kept x' ack ht hx hresult hack =>
    right
    rcases hx with hx | ⟨e, hx⟩
    · rw [hx]; exact ⟨rfl, rfl⟩
    · rw [hx]; exact ⟨rfl, rfl⟩
  | extended c x' ack ht hdecode hstaging hoffset hx hack =>
    rw [ht] at htype; exact absurd htype (by decide)
  | applied request resource graph x' ack ht hstaging hexamine hcommit hresult hx hack =>
    rw [ht] at htype; exact absurd htype (by decide)
  | repeated x' ack ht hstaging hexamine hresult hx hack =>
    rw [ht] at htype; exact absurd htype (by decide)
  | aborted x' ack ht hx hack =>
    rw [ht] at htype; exact absurd htype (by decide)
  | dropped e e' x' ack ht hx hdsp hresult hack =>
    rcases ht with ht | ht
    · rw [ht] at htype; exact absurd htype (by decide)
    · rw [ht] at htype; exact absurd htype (by decide)

/-- a context that still stages after a chunk has put it where it belongs -/
theorem Reaction.chunk {x x' : ViperContext E} {payload : Bytes} {ack : SnapshotAck}
    (h : Reaction E x .snapshotChunk payload x' ack) (hstaging : x'.snapshotApply.staging = true) :
    ∃ c, decodeSnapshotChunk payload = .ok c ∧ x.snapshotApply.staging = true ∧
      c.offset = UInt32.ofNat x.snapshotApply.staged.length ∧
      x'.snapshotApply.staged = x.snapshotApply.staged ++ c.data := by
  cases h with
  | extended c x' ack ht hdecode hs hoffset hx hack =>
    refine ⟨c, hdecode, hs, ?_, by rw [hx]⟩
    unfold Controller.appendError at hoffset
    split_ifs at hoffset with h₁
    exact not_not.mp h₁
  | kept x' ack ht hx hresult hack =>
    have hidle : x.snapshotApply.staging = false := by
      rcases ht with ht | ht | ht
      · cases ht
      · cases ht
      · exact ht.1
    rcases hx with hx | ⟨e, hx⟩
    · rw [hx, hidle] at hstaging; cases hstaging
    · rw [hx] at hstaging
      exact absurd (hidle.symm.trans hstaging) (by decide)
  | dropped e e' x' ack ht hx hdsp hresult hack =>
    rw [hx] at hstaging
    cases hstaging
  | adopted hash x' ack ht => cases ht
  | opened b x' ack ht => cases ht
  | applied request resource graph x' ack ht => cases ht
  | repeated x' ack ht => cases ht
  | aborted x' ack ht => cases ht

/-- nobody stages after a COMMIT or an ABORT -/
theorem Reaction.closing {x x' : ViperContext E} {type : SnapshotCommandType} {payload : Bytes} {ack : SnapshotAck}
    (h : Reaction E x type payload x' ack) (htype : type = .snapshotCommit ∨ type = .snapshotAbort) :
    x'.snapshotApply.staging = false := by
  cases h with
  | applied request resource graph x' ack ht hstaging hexamine hcommit hresult hx hack => rw [hx]; rfl
  | repeated x' ack ht hstaging hexamine hresult hx hack => rw [hx]; rfl
  | aborted x' ack ht hx hack => rw [hx]; rfl
  | dropped e e' x' ack ht hx hdsp hresult hack => rw [hx]; rfl
  | kept x' ack ht hx hresult hack =>
    have hidle : x.snapshotApply.staging = false := by
      rcases ht with ht | ht | ht
      · rw [ht] at htype; exact absurd htype (by decide)
      · rw [ht] at htype; exact absurd htype (by decide)
      · exact ht.1
    rcases hx with hx | ⟨e, hx⟩
    · rw [hx]; exact hidle
    · rw [hx]; exact hidle
  | adopted hash x' ack ht => rw [ht] at htype; exact absurd htype (by decide)
  | opened b x' ack ht => rw [ht] at htype; exact absurd htype (by decide)
  | extended c x' ack ht => rw [ht] at htype; exact absurd htype (by decide)

/-- the bounds of the staging area survive every command -/
theorem Reaction.inv {x x' : ViperContext E} {type : SnapshotCommandType} {payload : Bytes} {ack : SnapshotAck}
    (h : Reaction E x type payload x' ack) (hinv : x.snapshotApply.Inv) : x'.snapshotApply.Inv := by
  cases h with
  | adopted hash x' ack ht hdecode hx hack =>
    rw [hx]
    exact ⟨hinv.staged_le, hinv.total_le, hinv.idle_empty⟩
  | opened b x' ack ht hdecode hidle hroute hx hack =>
    rw [hx]
    exact ⟨Nat.zero_le _, decodeSnapshotBegin_size hdecode, fun hs => by cases hs⟩
  | extended c x' ack ht hdecode hs hoffset hx hack =>
    rw [hx]
    have hroom : c.data.length ≤ x.snapshotApply.metadata.totalSize.toNat - x.snapshotApply.staged.length := by
      unfold Controller.appendError at hoffset
      split_ifs at hoffset with h₁ h₂ h₃
      exact not_lt.mp h₃
    have hle := hinv.staged_le
    refine ⟨?_, hinv.total_le, fun hs' => ?_⟩
    · simp only [List.length_append]
      omega
    · exact absurd (hs.symm.trans hs') (by decide)
  | applied request resource graph x' ack ht hstaging hexamine hcommit hresult hx hack =>
    rw [hx]
    exact Controller.succeed_inv (Controller.reset_inv _)
  | repeated x' ack ht hstaging hexamine hresult hx hack =>
    rw [hx]
    exact Controller.succeed_inv (Controller.reset_inv _)
  | aborted x' ack ht hx hack =>
    rw [hx]
    exact Controller.abort_inv _ _
  | kept x' ack ht hx hresult hack =>
    rcases hx with hx | ⟨e, hx⟩
    · rw [hx]; exact hinv
    · rw [hx]; exact Controller.fail_inv hinv e
  | dropped e e' x' ack ht hx hdsp hresult hack =>
    rw [hx]
    exact Controller.fail_inv (Controller.abort_inv _ _) _

/-- **Two compatible contexts stay so** under the same command. -/
theorem compatible_handle {x y : ViperContext E} (hx : x.snapshotApply.Inv) (hy : y.snapshotApply.Inv)
    (h : Compatible x.snapshotApply y.snapshotApply) (type : SnapshotCommandType) (payload : Bytes) :
    Compatible (x.handleSnapshotCommand E type payload).1.snapshotApply
      (y.handleSnapshotCommand E type payload).1.snapshotApply := by
  have hxr := handle_reaction E x type payload
  have hyr := handle_reaction E y type payload
  generalize (x.handleSnapshotCommand E type payload).1 = x' at *
  generalize (x.handleSnapshotCommand E type payload).2 = xack at *
  generalize (y.handleSnapshotCommand E type payload).1 = y' at *
  generalize (y.handleSnapshotCommand E type payload).2 = yack at *
  have hopening : type = .snapshotBegin ∨ type = .routeAnnounce → Compatible x'.snapshotApply y'.snapshotApply := by
    intro htype hxs hys
    rcases hxr.opening htype with hempty | ⟨hxsame, hxstaged⟩
    · exact .inr (.inl hempty)
    · rcases hyr.opening htype with hempty | ⟨hysame, hystaged⟩
      · exact .inr (.inr hempty)
      · exact h.congr hxsame hxstaged hysame hystaged hxs hys
  cases type with
  | snapshotBegin => exact hopening (.inl rfl)
  | routeAnnounce => exact hopening (.inr rfl)
  | snapshotCommit => exact .of_idle (hxr.closing (.inl rfl)) _
  | snapshotAbort => exact .of_idle (hxr.closing (.inr rfl)) _
  | snapshotChunk =>
    intro hxs hys
    obtain ⟨c, hdecode, hxstaging, hxoffset, hxstaged⟩ := hxr.chunk hxs
    obtain ⟨c', hdecode', hystaging, hyoffset, hystaged⟩ := hyr.chunk hys
    obtain rfl : c = c' := Except.ok.inj (hdecode.symm.trans hdecode')
    -- the same offset fits both, and neither area is long enough for an offset to wrap
    have hbound : kMaxSnapshotSize < 2 ^ 32 := by decide
    have hlength : x.snapshotApply.staged.length = y.snapshotApply.staged.length :=
      calc x.snapshotApply.staged.length = (UInt32.ofNat x.snapshotApply.staged.length).toNat :=
            (toNat_size (Nat.le_trans hx.staged_le hx.total_le) hbound).symm
        _ = (UInt32.ofNat y.snapshotApply.staged.length).toNat := congrArg UInt32.toNat (hxoffset.symm.trans hyoffset)
        _ = y.snapshotApply.staged.length := toNat_size (Nat.le_trans hy.staged_le hy.total_le) hbound
    have hequal : x.snapshotApply.staged = y.snapshotApply.staged := by
      rcases h hxstaging hystaging with heq | hempty | hempty
      · exact heq
      · rw [hempty, List.length_nil] at hlength
        rw [hempty, List.eq_nil_of_length_eq_zero hlength.symm]
      · rw [hempty, List.length_nil] at hlength
        rw [hempty, List.eq_nil_of_length_eq_zero hlength]
    exact .inl (by rw [hxstaged, hystaged, hequal])

/-- a context that accepts a COMMIT had staged a snapshot, and holds its generations afterwards -/
theorem Reaction.committed {x x' : ViperContext E} {payload : Bytes} {ack : SnapshotAck}
    (h : Reaction E x .snapshotCommit payload x' ack) (hack : ack.accepted = true) :
    x.snapshotApply.staging = true ∧ ∃ snapshot, decodeSnapshot x.snapshotApply.staged = .ok snapshot ∧
      x'.snapshotApply.lastAppGeneration = snapshot.appGeneration ∧
      x'.snapshotApply.lastDaemonGeneration = snapshot.daemonGeneration := by
  cases h with
  | applied request resource graph x' ack ht hstaging hexamine hcommit hresult hx hack' =>
    obtain ⟨-, -, hdecode, -⟩ := Controller.examine_candidate hexamine
    exact ⟨hstaging, request.snapshot, hdecode, by rw [hx]; rfl, by rw [hx]; rfl⟩
  | repeated x' ack ht hstaging hexamine hresult hx hack' =>
    obtain ⟨snapshot, hdecode, -, -, -, happ, hdaemon⟩ := Controller.examine_idempotent hexamine
    exact ⟨hstaging, snapshot, hdecode, by rw [hx]; exact happ.symm, by rw [hx]; exact hdaemon.symm⟩
  | kept x' ack ht hx hresult hack' => rw [hack'] at hack; cases hack
  | dropped e e' x' ack ht hx hdsp hresult hack' => rw [hack'] at hack; cases hack
  | adopted hash x' ack ht => cases ht
  | opened b x' ack ht => cases ht
  | extended c x' ack ht => cases ht
  | aborted x' ack ht => cases ht

end ViperContext

/-! ## The publisher -/

section FanOut

variable (E : Engine)

/-- one applier call -/
structure Visit where
  id : ℕ
  before : ViperContext E
  after : ViperContext E
  ack : SnapshotAck

/-- a command on its way round: the appliers that were copied, those not called yet, and the calls made -/
structure Round where
  type : SnapshotCommandType
  payload : Bytes
  appliers : List ℕ
  waiting : List ℕ
  visits : List (Visit E)

/-- the publisher and the context objects, which may outlive their registration; ghost: `answered` -/
structure Publisher where
  objects : ℕ → ViperContext E := fun _ => {}
  registered : List (ℕ × Bool) := []
  nextContextInstanceId : ℕ := 1
  round : Option (Round E) := none
  answered : List (Round E × SnapshotAck) := []

inductive PublisherOp where
  /-- a context without an applier only observes -/
  | register (hasApplier : Bool)
  | unregister (id : ℕ)
  /-- the context's own threads: configuration, parameters, audio -/
  | touch (id : ℕ) (f : Dsp E → Dsp E)
  /-- copy the appliers, in the order the map gives them -/
  | start (type : SnapshotCommandType) (payload : Bytes) (order : List ℕ)
  | visit
  | finish

end FanOut

namespace Publisher

variable {E : Engine}

/-- the contexts with an applier -/
def appliers (p : Publisher E) : List ℕ := (p.registered.filter Prod.snd).map Prod.fst

def register (p : Publisher E) (hasApplier : Bool) : Publisher E :=
  { p with
    objects := Function.update p.objects p.nextContextInstanceId {}
    registered := p.registered ++ [(p.nextContextInstanceId, hasApplier)]
    nextContextInstanceId := p.nextContextInstanceId + 1 }

def unregister (p : Publisher E) (id : ℕ) : Publisher E :=
  { p with registered := p.registered.filter fun c => c.1 ≠ id }

def touch (p : Publisher E) (id : ℕ) (f : Dsp E → Dsp E) : Publisher E :=
  { p with objects := Function.update p.objects id { p.objects id with dsp := f (p.objects id).dsp } }

/-- the bridge thread has one command at a time -/
def start (p : Publisher E) (type : SnapshotCommandType) (payload : Bytes) (order : List ℕ) : Publisher E :=
  if p.round.isNone ∧ order.Perm p.appliers then
    { p with round := some { type, payload, appliers := p.appliers, waiting := order, visits := [] } }
  else p

def visitOf (p : Publisher E) (r : Round E) (id : ℕ) : Visit E :=
  let q := (p.objects id).handleSnapshotCommand E r.type r.payload
  ⟨id, p.objects id, q.1, q.2⟩

def visit (p : Publisher E) : Publisher E :=
  match p.round with
  | none => p
  | some r =>
    match r.waiting with
    | [] => p
    | id :: rest =>
      { p with
        objects := Function.update p.objects id (p.visitOf r id).after
        round := some { r with waiting := rest, visits := r.visits ++ [p.visitOf r id] } }

def finish (p : Publisher E) : Publisher E :=
  match p.round with
  | none => p
  | some r =>
    if r.waiting.isEmpty then
      { p with round := none, answered := (r, Link.foldAcks (r.visits.map Visit.ack)) :: p.answered }
    else p

def step (p : Publisher E) : PublisherOp E → Publisher E
  | .register hasApplier => p.register hasApplier
  | .unregister id => p.unregister id
  | .touch id f => p.touch id f
  | .start type payload order => p.start type payload order
  | .visit => p.visit
  | .finish => p.finish

def run (p : Publisher E) (ops : List (PublisherOp E)) : Publisher E := ops.foldl step p

/-! ## What every interleaving keeps -/

def ctl (p : Publisher E) (id : ℕ) : Controller := (p.objects id).snapshotApply

end Publisher

/-- the calls of a round: each context once, and any two of them compatible before their call -/
structure Round.Fair {E : Engine} (r : Round E) : Prop where
  once : (r.visits.map Visit.id ++ r.waiting).Perm r.appliers
  handled : ∀ v ∈ r.visits, v.before.handleSnapshotCommand E r.type r.payload = (v.after, v.ack)
  bounded : ∀ v ∈ r.visits, v.before.snapshotApply.Inv
  compatible : ∀ v ∈ r.visits, ∀ w ∈ r.visits, Compatible v.before.snapshotApply w.before.snapshotApply

namespace Publisher

variable {E : Engine}

/-- a round under way: those waiting are compatible with each other and with what the called ones were -/
structure Busy (p : Publisher E) (r : Round E) : Prop where
  fair : r.Fair
  distinct : r.appliers.Nodup
  known : ∀ id ∈ r.appliers, id < p.nextContextInstanceId
  ahead : ∀ i ∈ r.waiting, ∀ j ∈ r.waiting, Compatible (p.ctl i) (p.ctl j)
  across : ∀ i ∈ r.waiting, ∀ v ∈ r.visits, Compatible (p.ctl i) v.before.snapshotApply
  called : ∀ v ∈ r.visits, p.ctl v.id = v.after.snapshotApply
  fresh : ∀ i ∈ p.appliers, i ∈ r.appliers ∨ (p.ctl i).staging = false

structure Inv (p : Publisher E) : Prop where
  bounded : ∀ id, (p.ctl id).Inv
  known : ∀ c ∈ p.registered, c.1 < p.nextContextInstanceId
  distinct : (p.registered.map Prod.fst).Nodup
  idle : p.round = none → ∀ i ∈ p.appliers, ∀ j ∈ p.appliers, Compatible (p.ctl i) (p.ctl j)
  busy : ∀ r, p.round = some r → p.Busy r
  answered : ∀ a ∈ p.answered, a.1.Fair ∧ a.1.waiting = [] ∧ a.2 = Link.foldAcks (a.1.visits.map Visit.ack)

theorem inv_init : Inv ({} : Publisher E) where
  bounded := fun _ => Controller.inv_init
  known := by intro c hc; cases hc
  distinct := List.nodup_nil
  idle := by intro _ i hi; cases hi
  busy := by intro r hr; cases hr
  answered := by intro a ha; cases ha

theorem appliers_known {p : Publisher E} (h : p.Inv) {id : ℕ} (hid : id ∈ p.appliers) : id < p.nextContextInstanceId := by
  obtain ⟨c, hc, rfl⟩ := List.mem_map.mp hid
  exact h.known c (List.mem_of_mem_filter hc)

theorem appliers_nodup {p : Publisher E} (h : p.Inv) : p.appliers.Nodup :=
  h.distinct.sublist (List.filter_sublist.map Prod.fst)

/-- the other threads of a context do not touch its staging area -/
theorem touch_ctl (p : Publisher E) (id : ℕ) (f : Dsp E → Dsp E) (i : ℕ) : (p.touch id f).ctl i = p.ctl i := by
  unfold ctl touch
  by_cases hi : i = id
  · rw [hi]
    simp only [Function.update_self]
  · simp only [Function.update_of_ne hi]

theorem touch_inv {p : Publisher E} (h : p.Inv) (id : ℕ) (f : Dsp E → Dsp E) : (p.touch id f).Inv := by
  have hctl := touch_ctl p id f
  exact {
    bounded := fun i => by rw [hctl]; exact h.bounded i
    known := h.known
    distinct := h.distinct
    idle := fun hr i hi j hj => by rw [hctl, hctl]; exact h.idle hr i hi j hj
    busy := fun r hr =>
      have hb := h.busy r hr
      { fair := hb.fair
        distinct := hb.distinct
        known := hb.known
        ahead := fun i hi j hj => by rw [hctl, hctl]; exact hb.ahead i hi j hj
        across := fun i hi v hv => by rw [hctl]; exact hb.across i hi v hv
        called := fun v hv => by rw [hctl]; exact hb.called v hv
        fresh := fun i hi => by rw [hctl]; exact hb.fresh i hi }
    answered := h.answered }

theorem unregister_inv {p : Publisher E} (h : p.Inv) (id : ℕ) : (p.unregister id).Inv := by
  have hsub : (p.registered.filter fun c => c.1 ≠ id).Sublist p.registered := List.filter_sublist
  have happliers : ∀ i ∈ (p.unregister id).appliers, i ∈ p.appliers := fun i hi =>
    ((hsub.filter Prod.snd).map Prod.fst).subset hi
  exact {
    bounded := h.bounded
    known := fun c hc => h.known c (hsub.subset hc)
    distinct := h.distinct.sublist (hsub.map Prod.fst)
    idle := fun hr i hi j hj => h.idle hr i (happliers i hi) j (happliers j hj)
    busy := fun r hr =>
      have hb := h.busy r hr
      { hb with fresh := fun i hi => hb.fresh i (happliers i hi) }
    answered := h.answered }

theorem mem_register_appliers {p : Publisher E} {hasApplier : Bool} {i : ℕ} (hi : i ∈ (p.register hasApplier).appliers) :
    i ∈ p.appliers ∨ i = p.nextContextInstanceId := by
  simp only [appliers, register, List.filter_append, List.map_append, List.mem_append] at hi
  rcases hi with hi | hi
  · exact .inl hi
  · obtain ⟨c, hc, rfl⟩ := List.mem_map.mp hi
    have hc' := List.mem_singleton.mp (List.mem_of_mem_filter hc)
    exact .inr (by rw [hc'])

theorem register_ctl (p : Publisher E) (hasApplier : Bool) {i : ℕ} (hi : i ≠ p.nextContextInstanceId) :
    (p.register hasApplier).ctl i = p.ctl i := by
  simp only [ctl, register, Function.update_of_ne hi]

theorem register_ctl_self (p : Publisher E) (hasApplier : Bool) :
    (p.register hasApplier).ctl p.nextContextInstanceId = {} := by
  simp only [ctl, register, Function.update_self]

theorem register_inv {p : Publisher E} (h : p.Inv) (hasApplier : Bool) : (p.register hasApplier).Inv := by
  have hold : ∀ {i}, i < p.nextContextInstanceId → (p.register hasApplier).ctl i = p.ctl i := fun hi =>
    register_ctl p hasApplier (Nat.ne_of_lt hi)
  -- a context is compatible with the new one, which does not stage
  have hcompatible : ∀ i ∈ (p.register hasApplier).appliers, ∀ c, (i ∈ p.appliers → Compatible (p.ctl i) c) →
      Compatible ((p.register hasApplier).ctl i) c := by
    intro i hi c hc
    rcases mem_register_appliers hi with hi | rfl
    · rw [hold (appliers_known h hi)]
      exact hc hi
    · rw [register_ctl_self]
      exact .of_idle rfl c
  exact {
    bounded := fun i => by
      by_cases hi : i = p.nextContextInstanceId
      · rw [hi, register_ctl_self]; exact Controller.inv_init
      · rw [register_ctl p hasApplier hi]; exact h.bounded i
    known := fun c hc => by
      rcases List.mem_append.mp hc with hc | hc
      · exact Nat.lt_succ_of_lt (h.known c hc)
      · rw [List.mem_singleton.mp hc]; exact Nat.lt_succ_self _
    distinct := by
      rw [show (p.register hasApplier).registered.map Prod.fst = p.registered.map Prod.fst ++ [p.nextContextInstanceId] by
        simp [register]]
      refine List.nodup_append.mpr ⟨h.distinct, List.nodup_singleton _, fun a ha b hb => ?_⟩
      obtain ⟨c, hc, rfl⟩ := List.mem_map.mp ha
      rw [List.mem_singleton.mp hb]
      exact Nat.ne_of_lt (h.known c hc)
    idle := fun hr i hi j hj =>
      hcompatible i hi _ fun hi' => (hcompatible j hj _ fun hj' => h.idle hr j hj' i hi').symm
    busy := fun r hr =>
      have hb := h.busy r hr
      have hwaiting : ∀ i ∈ r.waiting, i < p.nextContextInstanceId := fun i hi =>
        hb.known i (hb.fair.once.subset (List.mem_append_right _ hi))
      have hvisited : ∀ v ∈ r.visits, v.id < p.nextContextInstanceId := fun v hv =>
        hb.known _ (hb.fair.once.subset (List.mem_append_left _ (List.mem_map_of_mem hv)))
      { fair := hb.fair
        distinct := hb.distinct
        known := fun i hi => Nat.lt_succ_of_lt (hb.known i hi)
        ahead := fun i hi j hj => by rw [hold (hwaiting i hi), hold (hwaiting j hj)]; exact hb.ahead i hi j hj
        across := fun i hi v hv => by rw [hold (hwaiting i hi)]; exact hb.across i hi v hv
        called := fun v hv => by rw [hold (hvisited v hv)]; exact hb.called v hv
        fresh := fun i hi => by
          rcases mem_register_appliers hi with hi | rfl
          · rw [hold (appliers_known h hi)]
            exact hb.fresh i hi
          · rw [register_ctl_self]
            exact .inr rfl }
    answered := h.answered }

theorem start_inv {p : Publisher E} (h : p.Inv) (type : SnapshotCommandType) (payload : Bytes) (order : List ℕ) :
    (p.start type payload order).Inv := by
  unfold start
  split_ifs with hstart
  · obtain ⟨hnone, hperm⟩ := hstart
    have hidle := h.idle (Option.isNone_iff_eq_none.mp hnone)
    have hempty : ∀ v : Visit E, v ∉ [] := fun _ => List.not_mem_nil
    set r : Round E := { type, payload, appliers := p.appliers, waiting := order, visits := [] } with hr
    have hbusy : Busy { p with round := some r } r :=
      { fair := ⟨hperm, fun v hv => absurd hv (hempty v), fun v hv => absurd hv (hempty v),
          fun v hv => absurd hv (hempty v)⟩
        distinct := appliers_nodup h
        known := fun id hid => appliers_known h hid
        ahead := fun i hi j hj => hidle i (hperm.subset hi) j (hperm.subset hj)
        across := fun i hi v hv => absurd hv (hempty v)
        called := fun v hv => absurd hv (hempty v)
        fresh := fun i hi => .inl hi }
    exact {
      bounded := h.bounded
      known := h.known
      distinct := h.distinct
      idle := fun hr => by cases hr
      busy := fun r hr => by cases hr; exact hbusy
      answered := h.answered }
  · exact h

/-- the calls of a round, with the next one made -/
theorem visit_fair {p : Publisher E} {r : Round E} {id : ℕ} {rest : List ℕ} (h : p.Inv) (hb : p.Busy r)
    (hwaiting : r.waiting = id :: rest) :
    Round.Fair { r with waiting := rest, visits := r.visits ++ [p.visitOf r id] } := by
  have hmem : id ∈ r.waiting := by rw [hwaiting]; exact List.mem_cons_self
  have hnew : (p.visitOf r id).before.snapshotApply = p.ctl id := rfl
  refine ⟨?_, fun v hv => ?_, fun v hv => ?_, fun v hv w hw => ?_⟩
  · have honce := hb.fair.once
    rw [hwaiting] at honce
    simpa [visitOf] using honce
  · rcases List.mem_append.mp hv with hv | hv
    · exact hb.fair.handled v hv
    · rw [List.mem_singleton.mp hv]
      rfl
  · rcases List.mem_append.mp hv with hv | hv
    · exact hb.fair.bounded v hv
    · rw [List.mem_singleton.mp hv]
      exact h.bounded id
  · rcases List.mem_append.mp hv with hv | hv
    · rcases List.mem_append.mp hw with hw | hw
      · exact hb.fair.compatible v hv w hw
      · rw [List.mem_singleton.mp hw, hnew]
        exact (hb.across id hmem v hv).symm
    · rw [List.mem_singleton.mp hv, hnew]
      rcases List.mem_append.mp hw with hw | hw
      · exact hb.across id hmem w hw
      · rw [List.mem_singleton.mp hw, hnew]
        exact hb.ahead id hmem id hmem

theorem visit_inv {p : Publisher E} (h : p.Inv) : p.visit.Inv := by
  unfold visit
  cases hround : p.round with
  | none => exact h
  | some r =>
    cases hwaiting : r.waiting with
    | nil => simpa only [hwaiting] using h
    | cons id rest =>
      simp only [hwaiting]
      have hb := h.busy r hround
      have hfair := visit_fair h hb hwaiting
      have hnodup : (r.visits.map Visit.id ++ id :: rest).Nodup := by
        have honce := hb.fair.once
        rw [hwaiting] at honce
        exact honce.nodup_iff.mpr hb.distinct
      obtain ⟨-, hrest, hapart⟩ := List.nodup_append.mp hnodup
      have hidrest : id ∉ rest := (List.nodup_cons.mp hrest).1
      set q : Publisher E := { p with
        objects := Function.update p.objects id (p.visitOf r id).after
        round := some { r with waiting := rest, visits := r.visits ++ [p.visitOf r id] } } with hq
      have hctl : ∀ {i}, i ≠ id → q.ctl i = p.ctl i := fun hi => by
        simp only [ctl, hq, Function.update_of_ne hi]
      have hself : q.ctl id = (p.visitOf r id).after.snapshotApply := by
        simp only [ctl, hq, Function.update_self]
      have hrestne : ∀ {i}, i ∈ rest → i ≠ id := fun hi heq => hidrest (heq ▸ hi)
      have hmem : ∀ {i}, i ∈ rest → i ∈ r.waiting := fun hi => by rw [hwaiting]; exact List.mem_cons_of_mem _ hi
      have hidmem : id ∈ r.waiting := by rw [hwaiting]; exact List.mem_cons_self
      have hreact := ViperContext.handle_reaction E (p.objects id) r.type r.payload
      have hbusy : q.Busy { r with waiting := rest, visits := r.visits ++ [p.visitOf r id] } :=
        { fair := hfair
          distinct := hb.distinct
          known := hb.known
          ahead := fun i hi j hj => by
            rw [hctl (hrestne hi), hctl (hrestne hj)]
            exact hb.ahead i (hmem hi) j (hmem hj)
          across := fun i hi v hv => by
            rw [hctl (hrestne hi)]
            rcases List.mem_append.mp hv with hv | hv
            · exact hb.across i (hmem hi) v hv
            · rw [List.mem_singleton.mp hv]
              exact hb.ahead i (hmem hi) id hidmem
          called := fun v hv => by
            rcases List.mem_append.mp hv with hv | hv
            · rw [hctl (hapart v.id (List.mem_map_of_mem hv) id List.mem_cons_self)]
              exact hb.called v hv
            · rw [List.mem_singleton.mp hv]
              exact hself
          fresh := fun i hi => by
            by_cases hid : i = id
            · rw [hid]
              exact .inl (hb.fair.once.subset (List.mem_append_right _ hidmem))
            · rw [hctl hid]
              exact hb.fresh i hi }
      exact {
        bounded := fun i => by
          by_cases hid : i = id
          · rw [hid, hself]
            exact hreact.inv (h.bounded id)
          · rw [hctl hid]
            exact h.bounded i
        known := h.known
        distinct := h.distinct
        idle := fun hr => by cases hr
        busy := fun r' hr => by cases hr; exact hbusy
        answered := h.answered }

theorem finish_inv {p : Publisher E} (h : p.Inv) : p.finish.Inv := by
  unfold finish
  cases hround : p.round with
  | none => exact h
  | some r =>
    have hb := h.busy r hround
    simp only
    split_ifs with hempty
    · have hdone : r.waiting = [] := List.isEmpty_iff.mp hempty
      -- everyone with an applier was called in this round or does not stage
      have hall : ∀ i ∈ p.appliers, (∃ v ∈ r.visits, p.ctl i = v.after.snapshotApply) ∨ (p.ctl i).staging = false := by
        intro i hi
        rcases hb.fresh i hi with hi | hi
        · have honce := hb.fair.once.symm.subset hi
          rw [hdone, List.append_nil] at honce
          obtain ⟨v, hv, rfl⟩ := List.mem_map.mp honce
          exact .inl ⟨v, hv, hb.called v hv⟩
        · exact .inr hi
      exact {
        bounded := h.bounded
        known := h.known
        distinct := h.distinct
        idle := fun _ i hi j hj => by
          show Compatible (p.ctl i) (p.ctl j)
          rcases hall i hi with ⟨v, hv, hiv⟩ | hidle
          · rcases hall j hj with ⟨w, hw, hjw⟩ | hidle
            · have hkept := ViperContext.compatible_handle (hb.fair.bounded v hv) (hb.fair.bounded w hw)
                (hb.fair.compatible v hv w hw) r.type r.payload
              rw [hb.fair.handled v hv, hb.fair.handled w hw] at hkept
              rw [hiv, hjw]
              exact hkept
            · exact (Compatible.of_idle hidle _).symm
          · exact .of_idle hidle _
        busy := fun r' hr => by cases hr
        answered := fun a ha => by
          rcases List.mem_cons.mp ha with rfl | ha
          · exact ⟨hb.fair, hdone, rfl⟩
          · exact h.answered a ha }
    · exact h

theorem step_inv {p : Publisher E} (h : p.Inv) (op : PublisherOp E) : (p.step op).Inv := by
  cases op with
  | register hasApplier => exact register_inv h hasApplier
  | unregister id => exact unregister_inv h id
  | touch id f => exact touch_inv h id f
  | start type payload order => exact start_inv h type payload order
  | visit => exact visit_inv h
  | finish => exact finish_inv h

theorem run_inv {p : Publisher E} (h : p.Inv) (ops : List (PublisherOp E)) : (p.run ops).Inv := by
  induction ops generalizing p with
  | nil => exact h
  | cons op ops ih => exact ih (step_inv h op)

/-! ## Agreement -/

/-- the same bytes lie in every context, and so do the generations a COMMIT leaves -/
theorem commit_agrees {r : Round E} (h : r.Fair) (htype : r.type = .snapshotCommit)
    (haccepted : ∀ v ∈ r.visits, v.ack.accepted = true) {v w : Visit E} (hv : v ∈ r.visits) (hw : w ∈ r.visits) :
    v.before.snapshotApply.staged = w.before.snapshotApply.staged ∧
      v.after.snapshotApply.lastAppGeneration = w.after.snapshotApply.lastAppGeneration ∧
      v.after.snapshotApply.lastDaemonGeneration = w.after.snapshotApply.lastDaemonGeneration := by
  have hcommitted : ∀ u ∈ r.visits, u.before.snapshotApply.staging = true ∧
      ∃ snapshot, decodeSnapshot u.before.snapshotApply.staged = .ok snapshot ∧
        u.after.snapshotApply.lastAppGeneration = snapshot.appGeneration ∧
        u.after.snapshotApply.lastDaemonGeneration = snapshot.daemonGeneration := by
    intro u hu
    have hreact := ViperContext.handle_reaction E u.before r.type r.payload
    rw [h.handled u hu, htype] at hreact
    exact hreact.committed (haccepted u hu)
  obtain ⟨hvs, sv, hvdecode, hvapp, hvdaemon⟩ := hcommitted v hv
  obtain ⟨hws, sw, hwdecode, hwapp, hwdaemon⟩ := hcommitted w hw
  have hnonempty : ∀ {bytes : Bytes} {s : Snapshot}, decodeSnapshot bytes = .ok s → bytes ≠ [] := by
    rintro bytes s hdecode rfl
    cases hdecode
  have hsame : v.before.snapshotApply.staged = w.before.snapshotApply.staged := by
    rcases h.compatible v hv w hw hvs hws with heq | hempty | hempty
    · exact heq
    · exact absurd hempty (hnonempty hvdecode)
    · exact absurd hempty (hnonempty hwdecode)
  rw [hsame] at hvdecode
  obtain rfl : sv = sw := Except.ok.inj (hvdecode.symm.trans hwdecode)
  exact ⟨hsame, hvapp.trans hwapp.symm, hvdaemon.trans hwdaemon.symm⟩

/-- **Fan-out agreement.** In every interleaving of commands with registrations and releases, each command calls the
contexts with an applier once each, in whatever order; it is accepted exactly when there is such a context and all of
them accept, which no other order would change; and an accepted COMMIT found the same bytes staged in all of them and
leaves them with the same generations. -/
theorem fan_out_agrees (ops : List (PublisherOp E)) (r : Round E) (answer : SnapshotAck)
    (h : (r, answer) ∈ (run ({} : Publisher E) ops).answered) :
    (r.visits.map Visit.id).Perm r.appliers ∧
      (∀ v ∈ r.visits, v.before.handleSnapshotCommand E r.type r.payload = (v.after, v.ack)) ∧
      (answer.accepted = true ↔ r.appliers ≠ [] ∧ ∀ v ∈ r.visits, v.ack.accepted = true) ∧
      (∀ visits : List (Visit E), visits.Perm r.visits →
        (Link.foldAcks (visits.map Visit.ack)).accepted = answer.accepted) ∧
      (r.type = .snapshotCommit → answer.accepted = true → ∀ v ∈ r.visits, ∀ w ∈ r.visits,
        v.before.snapshotApply.staged = w.before.snapshotApply.staged ∧
          v.after.snapshotApply.lastAppGeneration = w.after.snapshotApply.lastAppGeneration ∧
          v.after.snapshotApply.lastDaemonGeneration = w.after.snapshotApply.lastDaemonGeneration) := by
  obtain ⟨hfair, hdone, hfold⟩ := (run_inv inv_init ops).answered _ h
  have hanswer : answer = Link.foldAcks (r.visits.map Visit.ack) := hfold
  have honce : (r.visits.map Visit.id).Perm r.appliers := by
    have honce := hfair.once
    rwa [hdone, List.append_nil] at honce
  have haccepted : ∀ visits : List (Visit E), (Link.foldAcks (visits.map Visit.ack)).accepted = true ↔
      visits ≠ [] ∧ ∀ v ∈ visits, v.ack.accepted = true := by
    intro visits
    rw [Link.foldAcks_accepted]
    simp
  have hnone : r.appliers ≠ [] ↔ r.visits ≠ [] := by
    rw [not_iff_not, ← List.length_eq_zero_iff, ← honce.length_eq, List.length_map, List.length_eq_zero_iff]
  have hiff : answer.accepted = true ↔ r.visits ≠ [] ∧ ∀ v ∈ r.visits, v.ack.accepted = true := by
    rw [hanswer]
    exact haccepted r.visits
  refine ⟨honce, hfair.handled, ?_, fun visits hperm => ?_, fun htype hacc v hv w hw => ?_⟩
  · rw [hiff, hnone]
  · have hempty : visits ≠ [] ↔ r.visits ≠ [] := by
      rw [not_iff_not, ← List.length_eq_zero_iff, hperm.length_eq, List.length_eq_zero_iff]
    have hsame : (Link.foldAcks (visits.map Visit.ack)).accepted = true ↔ answer.accepted = true := by
      rw [haccepted, hiff, hempty]
      exact and_congr_right fun _ => ⟨fun hall v hv => hall v (hperm.symm.subset hv),
        fun hall v hv => hall v (hperm.subset hv)⟩
    exact Bool.eq_iff_iff.mpr hsame
  · exact commit_agrees hfair htype (hiff.mp hacc).2 hv hw

/-- the payload of a command, or no bytes if its encoder refuses -/
def payloadOf (e : Except String Bytes) : Bytes := e.toOption.getD []

def announcePayload : Bytes := payloadOf (encodeRouteAnnounce { deviceKeyHash := hashDeviceKey [115, 124] })
def beginPayload : Bytes :=
  payloadOf (encodeSnapshotBegin
    { appGeneration := 2, daemonGeneration := 1, totalSize := emptySnapshotBytes.length.toUInt32,
      crc32 := Protocol.crc32 emptySnapshotBytes, deviceKeyHash := hashDeviceKey [115, 124] })
def chunkPayload : Bytes := payloadOf (encodeSnapshotChunk ⟨0, emptySnapshotBytes⟩)
def commitPayload : Bytes := payloadOf (encodeSnapshotCommit ⟨2, 1⟩)

/-- one command to the contexts 1 and 3, the later one first -/
def roundOfTwo (type : SnapshotCommandType) (payload : Bytes) : List (PublisherOp gainEngine) :=
  [.start type payload [3, 1], .visit, .visit, .finish]

/-- the first context refuses a second BEGIN, the other one has joined since the first; an observer stands by -/
def joinedLate : List (PublisherOp gainEngine) :=
  [.register true, .touch 1 (fun _ => configuredGain), .start .routeAnnounce announcePayload [1], .visit, .finish,
    .start .snapshotBegin beginPayload [1], .visit, .finish, .register false, .register true,
    .touch 3 (fun _ => tunedGain)]
    ++ roundOfTwo .routeAnnounce announcePayload ++ roundOfTwo .snapshotBegin beginPayload
    ++ roundOfTwo .snapshotChunk chunkPayload ++ roundOfTwo .snapshotCommit commitPayload

theorem joined_late_agrees :
    ∃ r answer, (r, answer) ∈ (run ({} : Publisher gainEngine) joinedLate).answered ∧ r.type = .snapshotCommit ∧
      answer.accepted = true ∧ r.visits.length = 2 ∧ ∀ v ∈ r.visits, ∀ w ∈ r.visits,
        v.before.snapshotApply.staged = w.before.snapshotApply.staged ∧
          v.after.snapshotApply.lastAppGeneration = w.after.snapshotApply.lastAppGeneration ∧
          v.after.snapshotApply.lastDaemonGeneration = w.after.snapshotApply.lastDaemonGeneration := by
  have hlast : ((run ({} : Publisher gainEngine) joinedLate).answered.head?.map
      fun p => (p.1.type, p.2.accepted, p.1.visits.length)) = some (.snapshotCommit, true, 2) := by decide +kernel
  obtain ⟨⟨r, answer⟩, hhead, hfacts⟩ := Option.map_eq_some_iff.mp hlast
  have hmem := List.mem_of_head? hhead
  simp only [Prod.mk.injEq] at hfacts
  obtain ⟨htype, haccepted, hlength⟩ := hfacts
  exact ⟨r, answer, hmem, htype, haccepted, hlength, (fan_out_agrees joinedLate r answer hmem).2.2.2.2 htype haccepted⟩

/-! ## A round nobody interrupts -/

/-- the context objects after everyone in `ids` has had the command -/
def handledAll (p : Publisher E) (type : SnapshotCommandType) (payload : Bytes) (ids : List ℕ) : ℕ → ViperContext E :=
  fun id => if id ∈ ids then ((p.objects id).handleSnapshotCommand E type payload).1 else p.objects id

theorem run_visits {waiting : List ℕ} (hnodup : waiting.Nodup) {p : Publisher E} {r : Round E}
    (hround : p.round = some r) (hwaiting : r.waiting = waiting) :
    p.run (List.replicate waiting.length .visit) =
      { p with
        objects := p.handledAll r.type r.payload waiting
        round := some { r with waiting := [], visits := r.visits ++ waiting.map (p.visitOf r) } } := by
  induction waiting generalizing p r with
  | nil =>
    obtain ⟨objects, registered, nextContextInstanceId, round, answered⟩ := p
    obtain ⟨type, payload, appliers, w, visits⟩ := r
    simp only at hround hwaiting
    subst hwaiting hround
    have hobjects : ∀ q : Publisher E, q.handledAll type payload [] = q.objects := fun q => by
      funext id
      simp [handledAll]
    simp only [List.length_nil, List.replicate_zero, run, List.foldl_nil, List.map_nil, List.append_nil, hobjects]
  | cons id rest ih =>
    obtain ⟨hid, hrest⟩ := List.nodup_cons.mp hnodup
    have hvisit : p.visit = { p with
        objects := Function.update p.objects id (p.visitOf r id).after
        round := some { r with waiting := rest, visits := r.visits ++ [p.visitOf r id] } } := by
      simp only [visit, hround, hwaiting]
    have hne : ∀ i ∈ rest, i ≠ id := fun i hi heq => hid (heq ▸ hi)
    calc p.run (List.replicate (id :: rest).length .visit) = p.visit.run (List.replicate rest.length .visit) := rfl
      _ = _ := by
        rw [hvisit, ih hrest rfl rfl]
        congr 1
        · funext i
          by_cases hi : i = id
          · subst hi
            simp [handledAll, hid, visitOf]
          · simp [handledAll, hi]
        · simp only [Option.some.injEq, Round.mk.injEq, true_and, List.map_cons]
          rw [List.append_assoc, List.singleton_append]
          congr 2
          refine List.map_congr_left fun i hi => ?_
          simp [visitOf, Function.update_of_ne (hne i hi)]

/-- **A round nobody interrupts is one step.** It leaves every context with an applier as the command leaves it and is
answered as the link model answers it. -/
theorem round_atomic {p : Publisher E} (hidle : p.round = none) (type : SnapshotCommandType) (payload : Bytes)
    {order : List ℕ} (horder : order.Perm p.appliers) (hnodup : order.Nodup) :
    let q := p.run (.start type payload order :: List.replicate order.length .visit ++ [.finish])
    q.objects = p.handledAll type payload order ∧
      q.answered.head?.map Prod.snd =
        some (Link.foldAcks (order.map fun id => ((p.objects id).handleSnapshotCommand E type payload).2)) := by
  intro q
  have hstart : p.start type payload order =
      { p with round := some { type, payload, appliers := p.appliers, waiting := order, visits := [] } } := by
    simp [start, hidle, horder]
  have hq : q = ((p.start type payload order).run (List.replicate order.length .visit)).finish := by
    simp only [q, run, List.cons_append, List.foldl_cons, List.foldl_append, List.foldl_nil, step]
  rw [hq, hstart, run_visits hnodup rfl rfl]
  simp only [finish, List.isEmpty_nil, if_true, List.nil_append, List.head?_cons, Option.map_some, List.map_map]
  exact ⟨rfl, rfl⟩

/-- the same command in the link model, whose table holds the same contexts -/
theorem applySnapshotCommand_eq (p : Publisher E) (contexts : Table ℕ (DriverContext (ViperContext E)))
    (hsame : ∀ id x, contexts.get? id = some x → x.ext = p.objects id) (c : Command) :
    let a : Applier (ViperContext E) := ⟨{}, fun x c => x.handleSnapshotCommand E c.type c.payload⟩
    (Link.applySnapshotCommand a contexts c).2 =
        Link.foldAcks (contexts.keys.map fun id => ((p.objects id).handleSnapshotCommand E c.type c.payload).2) ∧
      ∀ id x, contexts.get? id = some x →
        ((Link.applySnapshotCommand a contexts c).1.get? id).map DriverContext.ext =
          some (p.handledAll c.type c.payload contexts.keys id) := by
  intro a
  constructor
  · unfold Link.applySnapshotCommand Table.keys
    simp only [List.map_map]
    refine congrArg Link.foldAcks (List.map_congr_left fun entry hentry => ?_)
    have hget := (Table.mem_entries_iff contexts entry.1 entry.2).mp hentry
    simp only [Function.comp_apply, a, hsame _ _ hget]
  · intro id x hx
    have hmem : id ∈ contexts.keys := (Table.mem_keys_iff contexts id).mpr (by rw [hx]; rfl)
    simp only [Link.applySnapshotCommand, Table.get?_retain, hx, Option.bind_some, Option.map_some, handledAll,
      if_pos hmem, a, hsame id x hx]

end Publisher

end ViperFx.Driver
