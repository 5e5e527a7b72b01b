/-
The driver's staging area for one snapshot: `src/SnapshotApplyController.cpp`.

A controller takes BEGIN, then the chunks in order, then COMMIT, which checks the staged bytes and hands the decoded
snapshot to the committer of the owning context. The committer is a parameter: any function of its own state and the
request. `Ledger` is the abstract side: what an observer of the calls and their answers knows (the route, the last
BEGIN that was accepted, the chunks accepted since), without looking into the controller.

Results:
  · step_inv, run_inv           : the staging invariant, over every run of calls
  · tracks_run                  : the controller holds exactly what the ledger says
  · commit_candidate            : what reaches the committer
  · controller_run_safe         : bounds, committer discipline, generation order and failure behaviour of every run
-/
import ViperFx.Protocol.SnapshotCommand
import ViperFx.Protocol.ParameterStream

namespace ViperFx.Driver

open ViperFx.Protocol

/-! ## Data -/

inductive ApplyError where
  | none
  | notStaging
  | alreadyStaging
  | badMetadata
  | chunkOutOfOrder
  | chunkRange
  | sizeMismatch
  | crcMismatch
  | decodeFailed
  | deviceMismatch
  | staleGeneration
  | graphPrepareFailed
  | aborted
  deriving DecidableEq

namespace ApplyError

/-- the number an ACK or NACK carries -/
def code : ApplyError → ℕ
  | none => 0
  | notStaging => 1
  | alreadyStaging => 2
  | badMetadata => 3
  | chunkOutOfOrder => 4
  | chunkRange => 5
  | sizeMismatch => 6
  | crcMismatch => 7
  | decodeFailed => 8
  | deviceMismatch => 9
  | staleGeneration => 10
  | graphPrepareFailed => 11
  | aborted => 12

def message : ApplyError → String
  | none => "ok"
  | notStaging => "no snapshot is being staged"
  | alreadyStaging => "a snapshot is already being staged"
  | badMetadata => "snapshot metadata is invalid"
  | chunkOutOfOrder => "snapshot chunk is out of order"
  | chunkRange => "snapshot chunk exceeds the declared size"
  | sizeMismatch => "staged size does not match metadata"
  | crcMismatch => "staged snapshot failed CRC validation"
  | decodeFailed => "snapshot payload could not be decoded"
  | deviceMismatch => "snapshot belongs to another device"
  | staleGeneration => "snapshot generation is stale"
  | graphPrepareFailed => "driver failed to prepare the snapshot"
  | aborted => "snapshot staging was aborted"

end ApplyError

structure SnapshotMetadata where
  appGeneration : UInt64 := 0
  daemonGeneration : UInt64 := 0
  deviceKeyHash : Bytes := []
  totalSize : UInt32 := 0
  crc32 : UInt32 := 0
  deriving DecidableEq

inductive ApplyOutcome where
  | applied
  | idempotent
  deriving DecidableEq

structure ApplyResult where
  outcome : ApplyOutcome
  appGeneration : UInt64
  daemonGeneration : UInt64
  resourceGeneration : UInt64
  graphGeneration : UInt64
  deriving DecidableEq

structure CommitRequest where
  snapshot : Snapshot
  parameters : List RawParamRecord
  iemParameters : List RawParamRecord
  deriving DecidableEq

/-- the driver-side apply: its own state, the request, and the resource and graph generation after a success -/
abbrev Committer (κ : Type) := κ → CommitRequest → κ × Except String (UInt64 × UInt64)

structure Controller where
  deviceKeyHash : Bytes := []
  staging : Bool := false
  metadata : SnapshotMetadata := {}
  staged : Bytes := []
  lastAppGeneration : UInt64 := 0
  lastDaemonGeneration : UInt64 := 0
  lastResourceGeneration : UInt64 := 0
  lastGraphGeneration : UInt64 := 0
  lastError : ApplyError := .none
  lastMessage : String := ""
  deriving DecidableEq

/-! ## The operations -/

namespace Controller

def setDeviceKeyHash (c : Controller) (hash : Bytes) : Controller := { c with deviceKeyHash := hash }

def fail (c : Controller) (reason : ApplyError) : Controller :=
  { c with lastError := reason, lastMessage := reason.message }

def reset (c : Controller) : Controller := { c with staging := false, metadata := {}, staged := [] }

def abort (c : Controller) (reason : ApplyError) : Controller := c.reset.fail reason

/-- a success clears the error of the last failure -/
def succeed (c : Controller) : Controller := { c with lastError := .none, lastMessage := "" }

/-- the first check of `Begin` that fails -/
def beginError (c : Controller) (m : SnapshotMetadata) : Option ApplyError :=
  if c.staging then some .alreadyStaging
  else if m.totalSize = 0 ∨ kMaxSnapshotSize < m.totalSize.toNat then some .badMetadata
  else if m.appGeneration = 0 ∨ m.daemonGeneration = 0 then some .badMetadata
  else if m.deviceKeyHash.length ≠ 64 then some .badMetadata
  else if c.deviceKeyHash = [] ∨ m.deviceKeyHash ≠ c.deviceKeyHash then some .deviceMismatch
  else none

def begin (c : Controller) (m : SnapshotMetadata) : Controller × Except ApplyError Unit :=
  match c.beginError m with
  | some e => (c.fail e, .error e)
  | none => ({ c with metadata := m, staged := [], staging := true }.succeed, .ok ())

/-- the first check of `Append` that fails while a snapshot is staged -/
def appendError (c : Controller) (offset : UInt32) (chunk : Bytes) : Option ApplyError :=
  if offset ≠ UInt32.ofNat c.staged.length then some .chunkOutOfOrder
  else if chunk.isEmpty then some .chunkRange
  else if c.metadata.totalSize.toNat - c.staged.length < chunk.length then some .chunkRange
  else none

def append (c : Controller) (offset : UInt32) (chunk : Bytes) : Controller × Except ApplyError Unit :=
  if !c.staging then (c.fail .notStaging, .error .notStaging)
  else match c.appendError offset chunk with
    | some e => ((c.abort e).fail e, .error e)
    | none => ({ c with staged := c.staged ++ chunk }, .ok ())

/-- the order snapshots are applied in: by app generation, then by daemon generation -/
def olderThan (a d a' d' : UInt64) : Prop := a < a' ∨ (a = a' ∧ d < d')

instance (a d a' d' : UInt64) : Decidable (olderThan a d a' d') := by unfold olderThan; infer_instance

/-- what `Commit` decides about the staged bytes before the committer is asked -/
inductive Verdict where
  | refused (reason : ApplyError)
  | idempotent
  | candidate (request : CommitRequest)
  deriving DecidableEq

def examine (ids : ParamIds) (c : Controller) : Verdict :=
  if c.staged.length ≠ c.metadata.totalSize.toNat then .refused .sizeMismatch
  else if crc32 c.staged ≠ c.metadata.crc32 then .refused .crcMismatch
  else match decodeSnapshot c.staged with
    | .error _ => .refused .decodeFailed
    | .ok snapshot =>
      if snapshot.deviceKeyHash ≠ c.deviceKeyHash then .refused .deviceMismatch
      else if snapshot.appGeneration ≠ c.metadata.appGeneration
          ∨ snapshot.daemonGeneration ≠ c.metadata.daemonGeneration then .refused .badMetadata
      else if olderThan snapshot.appGeneration snapshot.daemonGeneration c.lastAppGeneration
          c.lastDaemonGeneration then .refused .staleGeneration
      else if snapshot.appGeneration = c.lastAppGeneration
          ∧ snapshot.daemonGeneration = c.lastDaemonGeneration then .idempotent
      else match decodeParameterStream ids snapshot.parameters,
          decodeParameterStream ids snapshot.iemParameters with
        | .ok parameters, .ok iemParameters => .candidate ⟨snapshot, parameters, iemParameters⟩
        | _, _ => .refused .decodeFailed

/-- adopt an applied snapshot: its generations become the last ones and the staging area is released -/
def adopt (c : Controller) (request : CommitRequest) (resource graph : UInt64) : Controller :=
  { c with lastAppGeneration := request.snapshot.appGeneration,
           lastDaemonGeneration := request.snapshot.daemonGeneration,
           lastResourceGeneration := resource,
           lastGraphGeneration := graph }.reset.succeed

def result (c : Controller) (outcome : ApplyOutcome) : ApplyResult :=
  ⟨outcome, c.lastAppGeneration, c.lastDaemonGeneration, c.lastResourceGeneration, c.lastGraphGeneration⟩

def commit {κ : Type} (ids : ParamIds) (committer : Option (Committer κ)) (c : Controller) (k : κ) :
    Controller × κ × Except ApplyError ApplyResult :=
  if !c.staging then (c.fail .notStaging, k, .error .notStaging)
  else match c.examine ids with
    | .refused e => ((c.abort e).fail e, k, .error e)
    | .idempotent => (c.reset.succeed, k, .ok (c.result .idempotent))
    | .candidate request =>
      match committer with
      | none => ((c.abort .graphPrepareFailed).fail .graphPrepareFailed, k, .error .graphPrepareFailed)
      | some f =>
        match f k request with
        | (k', .error _) =>
          ((c.abort .graphPrepareFailed).fail .graphPrepareFailed, k', .error .graphPrepareFailed)
        | (k', .ok (resource, graph)) =>
          let c' := c.adopt request resource graph
          (c', k', .ok (c'.result .applied))

end Controller

/-! ## Runs of calls -/

inductive Call where
  | setDeviceKeyHash (hash : Bytes)
  | begin (metadata : SnapshotMetadata)
  | append (offset : UInt32) (chunk : Bytes)
  | commit
  | abort (reason : ApplyError)

/-- the answer a call gives: nothing, an error, or success with the result of a COMMIT -/
inductive Answer where
  | silent
  | failed (reason : ApplyError)
  | done
  | committed (result : ApplyResult)
  deriving DecidableEq

/-- a controller with the state of its committer and the requests that committer was handed -/
structure St (κ : Type) where
  ctl : Controller := {}
  ext : κ
  asked : List CommitRequest := []

section Run

variable {κ : Type} (ids : ParamIds) (committer : Option (Committer κ))

/-- a committer that also writes down what it is asked -/
def recorded (f : Committer κ) : Committer (κ × List CommitRequest) := fun k request =>
  (((f k.1 request).1, k.2 ++ [request]), (f k.1 request).2)

def verdict : Except ApplyError Unit → Answer
  | .ok () => .done
  | .error e => .failed e

def step (s : St κ) : Call → St κ × Answer
  | .setDeviceKeyHash hash => ({ s with ctl := s.ctl.setDeviceKeyHash hash }, .silent)
  | .begin m => ({ s with ctl := (s.ctl.begin m).1 }, verdict (s.ctl.begin m).2)
  | .append offset chunk => ({ s with ctl := (s.ctl.append offset chunk).1 }, verdict (s.ctl.append offset chunk).2)
  | .abort reason => ({ s with ctl := s.ctl.abort reason }, .silent)
  | .commit =>
    match s.ctl.commit ids (committer.map recorded) (s.ext, s.asked) with
    | (c, k, .error e) => (⟨c, k.1, k.2⟩, .failed e)
    | (c, k, .ok r) => (⟨c, k.1, k.2⟩, .committed r)

/-- what an observer of calls and answers knows -/
structure Ledger where
  route : Bytes := []
  opened : Option SnapshotMetadata := none
  received : Bytes := []

/-- an accepted BEGIN opens a new transfer, an accepted chunk extends it -/
def Ledger.note (l : Ledger) : Call → Answer → Ledger
  | .setDeviceKeyHash hash, _ => { l with route := hash }
  | .begin m, .done => { l with opened := some m, received := [] }
  | .append _ chunk, .done => { l with received := l.received ++ chunk }
  | _, _ => l

def stepBoth (p : St κ × Ledger) (call : Call) : St κ × Ledger :=
  ((step ids committer p.1 call).1, p.2.note call (step ids committer p.1 call).2)

/-- run a whole sequence of calls, the observer watching -/
def runBoth (p : St κ × Ledger) (calls : List Call) : St κ × Ledger := calls.foldl (stepBoth ids committer) p

end Run

/-! ## The staging invariant -/

/-- what holds of a controller between any two calls -/
structure Controller.Inv (c : Controller) : Prop where
  staged_le : c.staged.length ≤ c.metadata.totalSize.toNat
  total_le : c.metadata.totalSize.toNat ≤ kMaxSnapshotSize
  idle_empty : c.staging = false → c.staged = []

namespace Controller

@[simp] theorem fail_staging (c : Controller) (e : ApplyError) : (c.fail e).staging = c.staging := rfl
@[simp] theorem fail_metadata (c : Controller) (e : ApplyError) : (c.fail e).metadata = c.metadata := rfl
@[simp] theorem fail_staged (c : Controller) (e : ApplyError) : (c.fail e).staged = c.staged := rfl
@[simp] theorem fail_route (c : Controller) (e : ApplyError) : (c.fail e).deviceKeyHash = c.deviceKeyHash := rfl
@[simp] theorem fail_lastApp (c : Controller) (e : ApplyError) :
    (c.fail e).lastAppGeneration = c.lastAppGeneration := rfl
@[simp] theorem fail_lastDaemon (c : Controller) (e : ApplyError) :
    (c.fail e).lastDaemonGeneration = c.lastDaemonGeneration := rfl
@[simp] theorem abort_staging (c : Controller) (e : ApplyError) : (c.abort e).staging = false := rfl
@[simp] theorem abort_staged (c : Controller) (e : ApplyError) : (c.abort e).staged = [] := rfl
@[simp] theorem abort_route (c : Controller) (e : ApplyError) : (c.abort e).deviceKeyHash = c.deviceKeyHash := rfl
@[simp] theorem abort_lastApp (c : Controller) (e : ApplyError) :
    (c.abort e).lastAppGeneration = c.lastAppGeneration := rfl
@[simp] theorem abort_lastDaemon (c : Controller) (e : ApplyError) :
    (c.abort e).lastDaemonGeneration = c.lastDaemonGeneration := rfl

theorem inv_init : Controller.Inv {} := ⟨by decide, by decide, fun _ => rfl⟩

theorem fail_inv {c : Controller} (h : c.Inv) (e : ApplyError) : (c.fail e).Inv :=
  ⟨h.staged_le, h.total_le, h.idle_empty⟩

theorem reset_inv (c : Controller) : c.reset.Inv := ⟨by simp [reset], by simp [reset], fun _ => rfl⟩

theorem succeed_inv {c : Controller} (h : c.Inv) : c.succeed.Inv := ⟨h.staged_le, h.total_le, h.idle_empty⟩

theorem abort_inv (c : Controller) (e : ApplyError) : (c.abort e).Inv := fail_inv (reset_inv c) e

/-- `Begin` either refuses and only records the error, or opens an empty staging area of the declared size -/
theorem begin_cases (c : Controller) (m : SnapshotMetadata) :
    (∃ e, c.beginError m = some e ∧ c.begin m = (c.fail e, .error e)) ∨
    (c.staging = false ∧ m.totalSize.toNat ≤ kMaxSnapshotSize ∧ m.appGeneration ≠ 0 ∧ m.daemonGeneration ≠ 0 ∧
      c.deviceKeyHash ≠ [] ∧ m.deviceKeyHash = c.deviceKeyHash ∧
      c.begin m = ({ c with metadata := m, staged := [], staging := true }.succeed, .ok ())) := by
  cases he : c.beginError m with
  | some e => exact .inl ⟨e, rfl, by simp [begin, he]⟩
  | none =>
    have hb : c.begin m = ({ c with metadata := m, staged := [], staging := true }.succeed, .ok ()) := by
      simp [begin, he]
    unfold beginError at he
    split_ifs at he with hs ht hg hl hd
    push Not at ht hg hd
    exact .inr ⟨by simpa using hs, ht.2, hg.1, hg.2, hd.1, hd.2, hb⟩

/-- `Append` refuses while idle, aborts on the first failed check, or extends the staged bytes within the size -/
theorem append_cases (c : Controller) (offset : UInt32) (chunk : Bytes) :
    (c.staging = false ∧ c.append offset chunk = (c.fail .notStaging, .error .notStaging)) ∨
    (c.staging = true ∧ ∃ e, e ≠ .notStaging ∧ c.append offset chunk = ((c.abort e).fail e, .error e)) ∨
    (c.staging = true ∧ chunk.length ≤ c.metadata.totalSize.toNat - c.staged.length ∧
      c.append offset chunk = ({ c with staged := c.staged ++ chunk }, .ok ())) := by
  cases hs : c.staging with
  | false => exact .inl ⟨rfl, by simp [append, hs]⟩
  | true =>
    cases he : c.appendError offset chunk with
    | some e =>
      refine .inr (.inl ⟨rfl, e, ?_, by simp [append, hs, he]⟩)
      rintro rfl
      unfold appendError at he
      split_ifs at he <;> cases he
    | none =>
      refine .inr (.inr ⟨rfl, ?_, by simp [append, hs, he]⟩)
      unfold appendError at he
      split_ifs at he with h1 h2 h3
      omega

theorem begin_inv {c : Controller} (h : c.Inv) (m : SnapshotMetadata) : (c.begin m).1.Inv := by
  obtain ⟨e, -, he⟩ | ⟨-, htotal, -, -, -, -, hb⟩ := begin_cases c m
  · rw [he]
    exact fail_inv h e
  · rw [hb]
    exact ⟨by simp [succeed], htotal, fun hf => by simp [succeed] at hf⟩

theorem append_inv {c : Controller} (h : c.Inv) (offset : UInt32) (chunk : Bytes) :
    (c.append offset chunk).1.Inv := by
  obtain ⟨-, hb⟩ | ⟨-, e, -, hb⟩ | ⟨hs, hlen, hb⟩ := append_cases c offset chunk
  · rw [hb]
    exact fail_inv h _
  · rw [hb]
    exact fail_inv (abort_inv c e) e
  · rw [hb]
    have hle := h.staged_le
    refine ⟨?_, h.total_le, fun hf => by rw [hs] at hf; cases hf⟩
    simp only [List.length_append]
    omega

/-- a verdict in favour says what was checked -/
theorem examine_candidate {ids : ParamIds} {c : Controller} {request : CommitRequest}
    (h : c.examine ids = .candidate request) :
    c.staged.length = c.metadata.totalSize.toNat ∧ Protocol.crc32 c.staged = c.metadata.crc32 ∧
      decodeSnapshot c.staged = .ok request.snapshot ∧ request.snapshot.deviceKeyHash = c.deviceKeyHash ∧
      request.snapshot.appGeneration = c.metadata.appGeneration ∧
      request.snapshot.daemonGeneration = c.metadata.daemonGeneration ∧
      ¬ olderThan request.snapshot.appGeneration request.snapshot.daemonGeneration c.lastAppGeneration
        c.lastDaemonGeneration ∧
      ¬ (request.snapshot.appGeneration = c.lastAppGeneration ∧
        request.snapshot.daemonGeneration = c.lastDaemonGeneration) ∧
      decodeParameterStream ids request.snapshot.parameters = .ok request.parameters ∧
      decodeParameterStream ids request.snapshot.iemParameters = .ok request.iemParameters := by
  unfold examine at h
  split_ifs at h with hsize hcrc
  cases hd : decodeSnapshot c.staged with
  | error e => rw [hd] at h; cases h
  | ok snapshot =>
    rw [hd] at h
    simp only at h
    split_ifs at h with hroute hgen hold heq
    cases hp : decodeParameterStream ids snapshot.parameters with
    | error e => rw [hp] at h; cases h
    | ok parameters =>
      cases hi : decodeParameterStream ids snapshot.iemParameters with
      | error e => rw [hp, hi] at h; cases h
      | ok iemParameters =>
        rw [hp, hi] at h
        obtain rfl := Verdict.candidate.inj h
        push Not at hsize hcrc hroute hgen
        exact ⟨hsize, hcrc, rfl, hroute, hgen.1, hgen.2, hold, heq, hp, hi⟩

/-- a repetition of the last snapshot passed every check that comes before the comparison -/
theorem examine_idempotent {ids : ParamIds} {c : Controller} (h : c.examine ids = .idempotent) :
    ∃ snapshot, decodeSnapshot c.staged = .ok snapshot ∧ c.staged.length = c.metadata.totalSize.toNat ∧
      Protocol.crc32 c.staged = c.metadata.crc32 ∧ snapshot.deviceKeyHash = c.deviceKeyHash ∧
      snapshot.appGeneration = c.lastAppGeneration ∧ snapshot.daemonGeneration = c.lastDaemonGeneration := by
  unfold examine at h
  split_ifs at h with hsize hcrc
  cases hd : decodeSnapshot c.staged with
  | error e => rw [hd] at h; cases h
  | ok snapshot =>
    rw [hd] at h
    simp only at h
    split_ifs at h with hroute hgen hold heq
    · push Not at hsize hcrc hroute
      exact ⟨snapshot, rfl, hsize, hcrc, hroute, heq.1, heq.2⟩
    · split at h <;> cases h

/-- the verdict never blames the caller for not staging: that is checked before -/
theorem examine_refused {ids : ParamIds} {c : Controller} {e : ApplyError} (h : c.examine ids = .refused e) :
    e ≠ .notStaging := by
  rintro rfl
  unfold examine at h
  (repeat' split at h) <;> cases h

/-- everything `Commit` can do -/
theorem commit_cases {κ : Type} (ids : ParamIds) (committer : Option (Committer κ)) (c : Controller) (k : κ) :
    (c.staging = false ∧ c.commit ids committer k = (c.fail .notStaging, k, .error .notStaging)) ∨
    (c.staging = true ∧ ∃ e, e ≠ .notStaging ∧
      c.commit ids committer k = ((c.abort e).fail e, k, .error e)) ∨
    (c.staging = true ∧ c.examine ids = .idempotent ∧
      c.commit ids committer k = (c.reset.succeed, k, .ok (c.result .idempotent))) ∨
    (c.staging = true ∧ ∃ request f, c.examine ids = .candidate request ∧ committer = some f ∧
      ((∃ m, (f k request).2 = .error m ∧ c.commit ids committer k =
          ((c.abort .graphPrepareFailed).fail .graphPrepareFailed, (f k request).1, .error .graphPrepareFailed)) ∨
        ∃ resource graph, (f k request).2 = .ok (resource, graph) ∧ c.commit ids committer k =
          (c.adopt request resource graph, (f k request).1,
            .ok ((c.adopt request resource graph).result .applied)))) := by
  cases hs : c.staging with
  | false => exact .inl ⟨rfl, by simp [commit, hs]⟩
  | true =>
    refine .inr ?_
    cases hv : c.examine ids with
    | refused e => exact .inl ⟨rfl, e, examine_refused hv, by simp [commit, hs, hv]⟩
    | idempotent => exact .inr (.inl ⟨rfl, rfl, by simp [commit, hs, hv]⟩)
    | candidate request =>
      cases committer with
      | none => exact .inl ⟨rfl, .graphPrepareFailed, by decide, by simp [commit, hs, hv]⟩
      | some f =>
        refine .inr (.inr ⟨rfl, request, f, rfl, rfl, ?_⟩)
        rcases hf : f k request with ⟨k', _ | ⟨resource, graph⟩⟩
        · exact .inl ⟨_, rfl, by simp [commit, hs, hv, hf]⟩
        · exact .inr ⟨resource, graph, rfl, by simp [commit, hs, hv, hf]⟩

/-- `Commit` answers STALE_GENERATION on the staged bytes alone, whatever the committer does -/
theorem commit_stale_iff {κ : Type} (ids : ParamIds) (committer : Option (Committer κ)) (c : Controller) (k : κ) :
    (c.commit ids committer k).2.2 = .error .staleGeneration ↔
      c.staging = true ∧ c.examine ids = .refused .staleGeneration := by
  cases hs : c.staging with
  | false => simp [commit, hs]
  | true =>
    cases hv : c.examine ids with
    | refused e => simp [commit, hs, hv]
    | idempotent => simp [commit, hs, hv]
    | candidate request =>
      cases committer with
      | none => simp [commit, hs, hv]
      | some f => rcases hf : f k request with ⟨k', _ | ⟨resource, graph⟩⟩ <;> simp [commit, hs, hv, hf]

/-- staged bytes that are what their BEGIN and the route say are refused as stale exactly when their generations are older -/
theorem examine_stale_iff {ids : ParamIds} {c : Controller} {snapshot : Snapshot}
    (hsize : c.staged.length = c.metadata.totalSize.toNat) (hcrc : crc32 c.staged = c.metadata.crc32)
    (hdecode : decodeSnapshot c.staged = .ok snapshot) (hroute : snapshot.deviceKeyHash = c.deviceKeyHash)
    (hgenerations : snapshot.appGeneration = c.metadata.appGeneration ∧
      snapshot.daemonGeneration = c.metadata.daemonGeneration) :
    c.examine ids = .refused .staleGeneration ↔
      olderThan snapshot.appGeneration snapshot.daemonGeneration c.lastAppGeneration c.lastDaemonGeneration := by
  unfold examine
  rw [if_neg (not_not.mpr hsize), if_neg (not_not.mpr hcrc), hdecode]
  dsimp only
  rw [if_neg (not_not.mpr hroute), if_neg (not_or.mpr ⟨not_not.mpr hgenerations.1, not_not.mpr hgenerations.2⟩)]
  by_cases hold : olderThan snapshot.appGeneration snapshot.daemonGeneration c.lastAppGeneration c.lastDaemonGeneration
  · rw [if_pos hold]
    exact ⟨fun _ => hold, fun _ => rfl⟩
  · rw [if_neg hold]
    refine ⟨fun h => ?_, fun h => absurd h hold⟩
    split_ifs at h
    split at h <;> cases h

theorem commit_inv {κ : Type} (ids : ParamIds) (committer : Option (Committer κ)) {c : Controller} (h : c.Inv)
    (k : κ) : (c.commit ids committer k).1.Inv := by
  obtain ⟨-, hb⟩ | ⟨-, e, -, hb⟩ | ⟨-, -, hb⟩ | ⟨-, request, f, -, -, ⟨m, -, hb⟩ | ⟨resource, graph, -, hb⟩⟩ :=
    commit_cases ids committer c k
  · rw [hb]; exact fail_inv h _
  · rw [hb]; exact fail_inv (abort_inv c e) e
  · rw [hb]; exact succeed_inv (reset_inv c)
  · rw [hb]; exact fail_inv (abort_inv c _) _
  · rw [hb]; exact succeed_inv (reset_inv _)

/-- a snapshot that is neither older than nor equal to the last one is newer -/
theorem newer_of_not_older {a d a' d' : UInt64} (h : ¬ olderThan a d a' d') (hne : ¬ (a = a' ∧ d = d')) :
    olderThan a' d' a d := by
  simp only [olderThan, UInt64.lt_iff_toNat_lt, ← UInt64.toNat_inj] at *
  omega

theorem olderThan_irrefl (a d : UInt64) : ¬ olderThan a d a d := by
  simp only [olderThan, UInt64.lt_iff_toNat_lt]
  omega

/-- a pair that is below another is below what is not below that one -/
theorem olderThan_of_not_le {a d a' d' a'' d'' : UInt64} (h : olderThan a d a' d') (hle : ¬ olderThan a'' d'' a' d') :
    olderThan a d a'' d'' := by
  simp only [olderThan, UInt64.lt_iff_toNat_lt, ← UInt64.toNat_inj] at *
  omega

end Controller

/-! ## Run lemmas -/

section Runs

variable {κ : Type} (ids : ParamIds) (committer : Option (Committer κ))

/-- what the COMMIT step does to the controller and to the list of requests the committer was handed -/
theorem step_commit (s : St κ) :
    let r := s.ctl.commit ids (committer.map recorded) (s.ext, s.asked)
    (step ids committer s .commit).1.ctl = r.1 ∧ (step ids committer s .commit).1.asked = r.2.1.2 ∧
      (∀ e, (step ids committer s .commit).2 = .failed e ↔ r.2.2 = .error e) ∧
      (∀ x, (step ids committer s .commit).2 = .committed x ↔ r.2.2 = .ok x) := by
  simp only [step]
  rcases s.ctl.commit ids (committer.map recorded) (s.ext, s.asked) with ⟨c, k, _ | r⟩ <;> simp

theorem step_inv (s : St κ) (call : Call) (h : s.ctl.Inv) : (step ids committer s call).1.ctl.Inv := by
  cases call with
  | setDeviceKeyHash hash => exact ⟨h.staged_le, h.total_le, h.idle_empty⟩
  | begin m => exact Controller.begin_inv h m
  | append offset chunk => exact Controller.append_inv h offset chunk
  | abort reason => exact Controller.abort_inv s.ctl reason
  | commit =>
    rw [(step_commit ids committer s).1]
    exact Controller.commit_inv ids _ h _

theorem run_inv (p : St κ × Ledger) (calls : List Call) (h : p.1.ctl.Inv) :
    (runBoth ids committer p calls).1.ctl.Inv := by
  induction calls generalizing p with
  | nil => exact h
  | cons call calls ih => exact ih _ (step_inv ids committer p.1 call h)

/-- the controller holds what the observer wrote down: always the route, and while staging the transfer -/
structure Tracks (c : Controller) (l : Ledger) : Prop where
  route : c.deviceKeyHash = l.route
  transfer : c.staging = true → l.opened = some c.metadata ∧ c.staged = l.received

theorem tracks_step (p : St κ × Ledger) (call : Call) (h : Tracks p.1.ctl p.2) :
    Tracks (stepBoth ids committer p call).1.ctl (stepBoth ids committer p call).2 := by
  obtain ⟨s, l⟩ := p
  cases call with
  | setDeviceKeyHash hash => exact ⟨rfl, h.transfer⟩
  | abort reason => exact ⟨h.route, fun hs => by simp [stepBoth, step] at hs⟩
  | begin m =>
    obtain ⟨e, -, he⟩ | ⟨-, -, -, -, -, -, hb⟩ := Controller.begin_cases s.ctl m
    · simp only [stepBoth, step, he, verdict, Ledger.note]
      exact ⟨h.route, h.transfer⟩
    · simp only [stepBoth, step, hb, verdict, Ledger.note]
      exact ⟨h.route, fun _ => ⟨rfl, rfl⟩⟩
  | append offset chunk =>
    obtain ⟨hs, hb⟩ | ⟨-, e, -, hb⟩ | ⟨hs, -, hb⟩ := Controller.append_cases s.ctl offset chunk
    · simp only [stepBoth, step, hb, verdict, Ledger.note]
      exact ⟨h.route, h.transfer⟩
    · simp only [stepBoth, step, hb, verdict, Ledger.note]
      exact ⟨h.route, fun hs => by simp at hs⟩
    · simp only [stepBoth, step, hb, verdict, Ledger.note]
      obtain ⟨hopen, hrec⟩ := h.transfer hs
      exact ⟨h.route, fun _ => ⟨hopen, by rw [← hrec]⟩⟩
  | commit =>
    have hnote : (stepBoth ids committer (s, l) .commit).2 = l := by
      simp only [stepBoth, Ledger.note]
    have hctl : (stepBoth ids committer (s, l) .commit).1.ctl = _ := (step_commit ids committer s).1
    rw [hnote, hctl]
    -- every branch but the refusal while idle leaves the controller idle
    obtain ⟨hs, hb⟩ | ⟨-, e, -, hb⟩ | ⟨-, -, hb⟩ | ⟨-, request, f, -, -, ⟨m, -, hb⟩ | ⟨resource, graph, -, hb⟩⟩ :=
      Controller.commit_cases ids (committer.map recorded) s.ctl (s.ext, s.asked)
    · rw [hb]; exact ⟨h.route, fun hf => by rw [Controller.fail_staging, hs] at hf; cases hf⟩
    · rw [hb]; exact ⟨h.route, fun hf => by cases hf⟩
    · rw [hb]; exact ⟨h.route, fun hf => by cases hf⟩
    · rw [hb]; exact ⟨h.route, fun hf => by cases hf⟩
    · rw [hb]; exact ⟨h.route, fun hf => by cases hf⟩

theorem tracks_run (p : St κ × Ledger) (calls : List Call) (h : Tracks p.1.ctl p.2) :
    Tracks (runBoth ids committer p calls).1.ctl (runBoth ids committer p calls).2 := by
  induction calls generalizing p with
  | nil => exact h
  | cons call calls ih => exact ih _ (tracks_step ids committer p call h)

/-! ## The four parts -/

/-- the request is the decoding of the transfer the ledger recorded, and agrees with its BEGIN and the route -/
structure Vouched (l : Ledger) (request : CommitRequest) : Prop where
  decoded : decodeSnapshot l.received = .ok request.snapshot
  parameters : decodeParameterStream ids request.snapshot.parameters = .ok request.parameters
  iemParameters : decodeParameterStream ids request.snapshot.iemParameters = .ok request.iemParameters
  route : request.snapshot.deviceKeyHash = l.route
  opened : ∃ m, l.opened = some m ∧ l.received.length = m.totalSize.toNat ∧ crc32 l.received = m.crc32 ∧
    request.snapshot.appGeneration = m.appGeneration ∧ request.snapshot.daemonGeneration = m.daemonGeneration

/-- the committer is handed at most one request, and only a vouched one, and only by COMMIT -/
theorem asked_step (s : St κ) (l : Ledger) (call : Call) (h : Tracks s.ctl l) :
    (step ids committer s call).1.asked = s.asked ∨
      call = .commit ∧ ∃ request, (step ids committer s call).1.asked = s.asked ++ [request] ∧
        Vouched ids l request := by
  cases call with
  | setDeviceKeyHash hash => exact .inl rfl
  | abort reason => exact .inl rfl
  | begin m => exact .inl rfl
  | append offset chunk => exact .inl rfl
  | commit =>
    rw [(step_commit ids committer s).2.1]
    obtain ⟨hs, hb⟩ | ⟨-, e, -, hb⟩ | ⟨-, -, hb⟩ | ⟨hs, request, g, hv, hg, hrest⟩ :=
      Controller.commit_cases ids (committer.map recorded) s.ctl (s.ext, s.asked)
    · rw [hb]; exact .inl rfl
    · rw [hb]; exact .inl rfl
    · rw [hb]; exact .inl rfl
    · refine .inr ⟨rfl, request, ?_, ?_⟩
      · obtain ⟨f, -, rfl⟩ := Option.map_eq_some_iff.mp hg
        obtain ⟨m, -, hb⟩ | ⟨resource, graph, -, hb⟩ := hrest
        · rw [hb]; rfl
        · rw [hb]; rfl
      · obtain ⟨hsize, hcrc, hdec, hroute, happ, hdaemon, -, -, hp, hi⟩ := Controller.examine_candidate hv
        obtain ⟨hopen, hrec⟩ := h.transfer hs
        rw [hrec] at hsize hcrc hdec
        exact ⟨hdec, hp, hi, hroute.trans h.route, s.ctl.metadata, hopen, hsize, hcrc, happ, hdaemon⟩

/-- only an applied COMMIT moves the generation pair, and it moves it up -/
theorem pair_step (s : St κ) (call : Call) :
    (((step ids committer s call).1.ctl.lastAppGeneration = s.ctl.lastAppGeneration ∧
        (step ids committer s call).1.ctl.lastDaemonGeneration = s.ctl.lastDaemonGeneration) ∧
      ∀ r, (step ids committer s call).2 = .committed r → r.outcome = .idempotent) ∨
    (call = .commit ∧ (∃ r, (step ids committer s call).2 = .committed r ∧ r.outcome = .applied) ∧
      Controller.olderThan s.ctl.lastAppGeneration s.ctl.lastDaemonGeneration
        (step ids committer s call).1.ctl.lastAppGeneration
        (step ids committer s call).1.ctl.lastDaemonGeneration) := by
  cases call with
  | setDeviceKeyHash hash => exact .inl ⟨⟨rfl, rfl⟩, fun r hr => by cases hr⟩
  | abort reason => exact .inl ⟨⟨rfl, rfl⟩, fun r hr => by cases hr⟩
  | begin m =>
    left
    obtain ⟨e, -, he⟩ | ⟨-, -, -, -, -, -, hb⟩ := Controller.begin_cases s.ctl m
    · simp only [step, he, verdict]
      exact ⟨⟨rfl, rfl⟩, fun r hr => by cases hr⟩
    · simp only [step, hb, verdict]
      exact ⟨⟨rfl, rfl⟩, fun r hr => by cases hr⟩
  | append offset chunk =>
    left
    obtain ⟨-, hb⟩ | ⟨-, e, -, hb⟩ | ⟨-, -, hb⟩ := Controller.append_cases s.ctl offset chunk <;>
      exact ⟨by simp [step, hb], fun r hr => by simp [step, hb, verdict] at hr⟩
  | commit =>
    obtain ⟨hctl, -, -, hok⟩ := step_commit ids committer s
    rw [hctl]
    obtain ⟨hs, hb⟩ | ⟨-, e, -, hb⟩ | ⟨-, -, hb⟩ | ⟨-, request, f, hv, -, ⟨m, -, hb⟩ | ⟨resource, graph, -, hb⟩⟩ :=
      Controller.commit_cases ids (committer.map recorded) s.ctl (s.ext, s.asked)
    · rw [hb] at hok ⊢
      exact .inl ⟨⟨rfl, rfl⟩, fun r hr => by cases (hok r).mp hr⟩
    · rw [hb] at hok ⊢
      exact .inl ⟨⟨rfl, rfl⟩, fun r hr => by cases (hok r).mp hr⟩
    · rw [hb] at hok ⊢
      exact .inl ⟨⟨rfl, rfl⟩, fun r hr => by cases (hok r).mp hr; rfl⟩
    · rw [hb] at hok ⊢
      exact .inl ⟨⟨rfl, rfl⟩, fun r hr => by cases (hok r).mp hr⟩
    · rw [hb] at hok ⊢
      refine .inr ⟨rfl, ⟨_, (hok _).mpr rfl, rfl⟩, ?_⟩
      obtain ⟨-, -, -, -, -, -, hold, heq, -, -⟩ := Controller.examine_candidate hv
      exact Controller.newer_of_not_older hold heq

/-- what a failed call leaves behind: a failed APPEND or COMMIT of a transfer ends it; a refused BEGIN, and an APPEND
or COMMIT that found nothing staged, leave the staging area as it was -/
theorem failed_step (s : St κ) (call : Call) (e : ApplyError) (hf : (step ids committer s call).2 = .failed e) :
    (s.ctl.staging = true → (∀ m, call ≠ .begin m) → (step ids committer s call).1.ctl.staging = false) ∧
    ((∃ m, call = .begin m) ∨ e = .notStaging →
      (step ids committer s call).1.ctl.staged = s.ctl.staged ∧
      (step ids committer s call).1.ctl.metadata = s.ctl.metadata ∧
      (step ids committer s call).1.ctl.staging = s.ctl.staging) := by
  cases call with
  | setDeviceKeyHash hash => cases hf
  | abort reason => cases hf
  | begin m =>
    refine ⟨fun _ hm => absurd rfl (hm m), fun _ => ?_⟩
    obtain ⟨e', -, he⟩ | ⟨-, -, -, -, -, -, hb⟩ := Controller.begin_cases s.ctl m
    · simp [step, he]
    · simp [step, hb, verdict] at hf
  | append offset chunk =>
    obtain ⟨hs, hb⟩ | ⟨-, e', hne, hb⟩ | ⟨-, -, hb⟩ := Controller.append_cases s.ctl offset chunk
    · exact ⟨fun ht => absurd (hs.symm.trans ht) (by decide), fun _ => by simp [step, hb]⟩
    · obtain rfl : e' = e := by simpa [step, hb, verdict] using hf
      refine ⟨fun _ _ => by simp [step, hb], fun hor => ?_⟩
      rcases hor with ⟨m, hm⟩ | he
      · cases hm
      · exact absurd he hne
    · simp [step, hb, verdict] at hf
  | commit =>
    obtain ⟨hctl, -, herr, -⟩ := step_commit ids committer s
    have hr := (herr e).mp hf
    rw [hctl]
    obtain ⟨hs, hb⟩ | ⟨-, e', hne, hb⟩ | ⟨-, -, hb⟩ | ⟨-, request, f, -, -, ⟨m, -, hb⟩ | ⟨resource, graph, -, hb⟩⟩ :=
      Controller.commit_cases ids (committer.map recorded) s.ctl (s.ext, s.asked)
    · rw [hb]
      exact ⟨fun ht => absurd (hs.symm.trans ht) (by decide), fun _ => by simp⟩
    · rw [hb] at hr ⊢
      obtain rfl : e' = e := Except.error.inj hr
      refine ⟨fun _ _ => by simp, fun hor => ?_⟩
      rcases hor with ⟨m, hm⟩ | he
      · cases hm
      · exact absurd he hne
    · rw [hb] at hr; cases hr
    · rw [hb] at hr ⊢
      obtain rfl : ApplyError.graphPrepareFailed = e := Except.error.inj hr
      refine ⟨fun _ _ => by simp, fun hor => ?_⟩
      rcases hor with ⟨m', hm⟩ | he
      · cases hm
      · cases he
    · rw [hb] at hr; cases hr

/-- **Snapshot controller run safety.** From a fresh controller, after any sequence of calls and for any next call,
with any committer: (1) the staged bytes stay within the declared size, which stays within the maximum, and are empty
while idle; (2) the committer is asked at most once, only by COMMIT, and only with the decoding of exactly the bytes of
the transfer in progress, whose size, CRC and generations are those of its BEGIN and whose hash is the current route;
(3) the generation pair moves only on an APPLIED COMMIT, and then strictly up; (4) a failed APPEND or COMMIT of a
transfer ends it, and a refusal with ALREADY_STAGING or NOT_STAGING leaves the staged bytes and metadata alone. -/
theorem controller_run_safe (k : κ) (calls : List Call) (call : Call) :
    let s := (runBoth ids committer (⟨{}, k, []⟩, {}) calls).1
    let l := (runBoth ids committer (⟨{}, k, []⟩, {}) calls).2
    let s' := (step ids committer s call).1
    let a := (step ids committer s call).2
    (s.ctl.staged.length ≤ s.ctl.metadata.totalSize.toNat ∧ s.ctl.metadata.totalSize.toNat ≤ kMaxSnapshotSize ∧
      (s.ctl.staging = false → s.ctl.staged = [])) ∧
    (s'.asked = s.asked ∨
      call = .commit ∧ ∃ request, s'.asked = s.asked ++ [request] ∧ Vouched ids l request) ∧
    (((s'.ctl.lastAppGeneration, s'.ctl.lastDaemonGeneration) ≠ (s.ctl.lastAppGeneration, s.ctl.lastDaemonGeneration) →
        call = .commit ∧ ∃ r, a = .committed r ∧ r.outcome = .applied) ∧
      (∀ r, a = .committed r → r.outcome = .applied →
        Controller.olderThan s.ctl.lastAppGeneration s.ctl.lastDaemonGeneration s'.ctl.lastAppGeneration
          s'.ctl.lastDaemonGeneration)) ∧
    ((∀ e, a = .failed e → s.ctl.staging = true → (∃ offset chunk, call = .append offset chunk) ∨ call = .commit →
        s'.ctl.staging = false) ∧
      (((∃ m, call = .begin m) ∧ a = .failed .alreadyStaging) ∨
          (((∃ offset chunk, call = .append offset chunk) ∨ call = .commit) ∧ a = .failed .notStaging) →
        s'.ctl.staged = s.ctl.staged ∧ s'.ctl.metadata = s.ctl.metadata ∧ s'.ctl.staging = s.ctl.staging)) := by
  intro s l s' a
  have hinv : s.ctl.Inv := run_inv ids committer _ calls Controller.inv_init
  have htrack : Tracks s.ctl l := tracks_run ids committer _ calls ⟨rfl, fun h => by cases h⟩
  refine ⟨⟨hinv.staged_le, hinv.total_le, hinv.idle_empty⟩, asked_step ids committer s l call htrack, ⟨?_, ?_⟩, ?_, ?_⟩
  · intro hne
    obtain ⟨⟨ha, hd⟩, -⟩ | ⟨hc, hr, -⟩ := pair_step ids committer s call
    · exact absurd (Prod.ext ha hd) hne
    · exact ⟨hc, hr⟩
  · intro r hr happ
    obtain ⟨-, hid⟩ | ⟨-, -, hlt⟩ := pair_step ids committer s call
    · rw [hid r hr] at happ; cases happ
    · exact hlt
  · intro e he hs hcall
    refine (failed_step ids committer s call e he).1 hs fun m hm => ?_
    rcases hcall with ⟨o, c, hc⟩ | hc <;> rw [hc] at hm <;> cases hm
  · rintro (⟨hb, he⟩ | ⟨-, he⟩)
    · exact (failed_step ids committer s call _ he).2 (.inl hb)
    · exact (failed_step ids committer s call _ he).2 (.inr rfl)

end Runs

end ViperFx.Driver
