/-
A commit of the snapshot store, one file operation at a time: `SnapshotStore::Commit` of `daemon/SnapshotStore.cpp`.

A route directory holds four files. A commit writes the new snapshot to one temporary file, copies a current file that
decodes to the other, renames that one over the previous file and the first one over the current file. Any operation
may fail, and the commit then returns through its clean-up; or the machine may stop between two operations, and every
file that was written and not yet synced then holds anything at all. A rename is atomic.

The reader is `RestoreCurrentRoute`: the current file, else the previous one, and neither under another route's hash.

Results:
  · keeps_usable_iff      : the reader finds a usable snapshot after every interrupted commit, except when the
                            interruption meets the publishing rename, the current file decodes under another route's
                            hash and only the previous file was usable
  · foreign_current_costs_previous : that exception, on a directory of two small snapshots
  · commit_refines        : what the daemon model's own `SnapshotStore.commit` says of the two files is what the
                            operations do
-/
import ViperFx.System.Runtime

namespace ViperFx.System

open ViperFx.Core ViperFx.Protocol ViperFx.Daemon

/-! ## Files -/

inductive FileName where
  | current
  | previous
  | temporary
  | previousTemporary
  deriving DecidableEq

structure File where
  content : Bytes
  synced : Bool
  deriving DecidableEq

abbrev RouteDirectory := FileName → Option File

inductive FileOp where
  | createDirectories
  | remove (name : FileName)
  | create (name : FileName)
  | write (name : FileName) (bytes : Bytes)
  | chmod (name : FileName)
  | openFile (name : FileName)
  | sync (name : FileName)
  | copy (source target : FileName)
  | rename (source target : FileName)
  | openDirectory
  | syncDirectory
  deriving DecidableEq

def FileOp.perform : FileOp → RouteDirectory → RouteDirectory
  | .remove name, d => Function.update d name none
  | .create name, d => Function.update d name (some ⟨[], false⟩)
  | .write name bytes, d => Function.update d name (some ⟨bytes, false⟩)
  | .sync name, d => Function.update d name ((d name).map fun f => { f with synced := true })
  | .copy source target, d => Function.update d target ((d source).map fun f => { f with synced := false })
  | .rename source target, d => Function.update (Function.update d target (d source)) source none
  | .createDirectories, d | .chmod _, d | .openFile _, d | .openDirectory, d | .syncDirectory, d => d

/-- an operation that fails leaves the directory alone, but a write or a copy may have begun its file -/
def FileOp.fail : FileOp → Option Bytes → RouteDirectory → RouteDirectory
  | .write name _, left, d | .copy _ name, left, d => Function.update d name (left.map (⟨·, false⟩))
  | _, _, d => d

namespace RouteDirectory

/-- the directory as it is found: whatever is on the disk is there to stay -/
def onDisk (prior : FileName → Option Bytes) : RouteDirectory := fun name => (prior name).map (⟨·, true⟩)

/-- a stopped machine keeps the files that were synced and anything in the place of the others -/
def tear (torn : FileName → Option Bytes) (d : RouteDirectory) : RouteDirectory := fun name =>
  match d name with
  | some f => if f.synced then some f else (torn name).map (⟨·, true⟩)
  | none => none

/-- the part of the directory that is read back -/
def files (d : RouteDirectory) : RouteFiles :=
  { current := (d .current).map File.content, previous := (d .previous).map File.content }

/-- this directory, in the place a store keeps it -/
def store (deviceHash : Bytes) (d : RouteDirectory) : SnapshotStore := { routes := Table.empty.put deviceHash d.files }

/-- the lookup of `RestoreCurrentRoute` in this directory -/
def lookup (deviceHash : Bytes) (d : RouteDirectory) : Option Snapshot := usableSnapshot (d.store deviceHash) deviceHash

end RouteDirectory

open RouteDirectory

/-! ## The operations of a commit -/

/-- an operation, the message its failure is reported with, and the files its clean-up removes -/
structure FileStep where
  op : FileOp
  message : Option String
  cleanup : List FileName
  deriving DecidableEq

/-- `WriteFile` of the temporary file, after the leftovers of an earlier commit are gone -/
def writeSteps (encoded : Bytes) : List FileStep :=
  [⟨.createDirectories, some "failed to create snapshot directory", []⟩,
   ⟨.remove .temporary, some "failed to remove snapshot temporary file", []⟩,
   ⟨.remove .previousTemporary, some "failed to remove snapshot temporary file", []⟩,
   ⟨.create .temporary, some "failed to create snapshot temporary file", [.temporary]⟩,
   ⟨.write .temporary encoded, some "failed to write snapshot temporary file", [.temporary]⟩,
   ⟨.chmod .temporary, some "failed to set snapshot permissions", [.temporary]⟩,
   ⟨.openFile .temporary, some "failed to open file for fsync", [.temporary]⟩,
   ⟨.sync .temporary, some "failed to fsync snapshot file", [.temporary]⟩]

/-- the copy of a valid current file; a failing `chmod` there sets no message -/
def stageSteps : List FileStep :=
  [⟨.copy .current .previousTemporary, some "failed to stage previous snapshot", [.temporary, .previousTemporary]⟩,
   ⟨.chmod .previousTemporary, none, [.temporary, .previousTemporary]⟩,
   ⟨.openFile .previousTemporary, some "failed to open file for fsync", [.temporary, .previousTemporary]⟩,
   ⟨.sync .previousTemporary, some "failed to fsync snapshot file", [.temporary, .previousTemporary]⟩]

def rotateStep : FileStep :=
  ⟨.rename .previousTemporary .previous, some "failed to rotate previous snapshot", [.temporary, .previousTemporary]⟩

def publishStep : FileStep := ⟨.rename .temporary .current, some "failed to publish current snapshot", [.temporary]⟩

def settleSteps : List FileStep :=
  [⟨.openDirectory, some "failed to open snapshot directory for fsync", []⟩,
   ⟨.syncDirectory, some "failed to fsync snapshot directory", []⟩]

def commitSteps (hasValidCurrent : Bool) (encoded : Bytes) : List FileStep :=
  writeSteps encoded ++ (if hasValidCurrent then stageSteps ++ [rotateStep] else []) ++ publishStep :: settleSteps

/-- what may happen to a commit -/
inductive Interruption where
  | never
  /-- the current file cannot be read, and counts as no snapshot -/
  | unreadable
  /-- one operation fails, having left something of its file, and the clean-up misses the files of `kept` -/
  | fault (position : ℕ) (left : Option Bytes) (kept : List FileName)
  /-- the machine stops before this operation -/
  | crash (position : ℕ) (torn : FileName → Option Bytes)

inductive Ending where
  | succeeded
  | failed (message : Option String)
  | crashed
  deriving DecidableEq

namespace RouteDirectory

def performAll (steps : List FileStep) (d : RouteDirectory) : RouteDirectory := steps.foldl (fun d s => s.op.perform d) d

/-- the removals of an error path, whose own errors are ignored -/
def cleanUp (names kept : List FileName) (d : RouteDirectory) : RouteDirectory := fun name =>
  if name ∈ names ∧ name ∉ kept then none else d name

def performUntil (steps : List FileStep) (i : Interruption) (d : RouteDirectory) : RouteDirectory × Ending :=
  match i with
  | .never | .unreadable => (performAll steps d, .succeeded)
  | .fault position left kept =>
    match steps[position]? with
    | none => (performAll steps d, .succeeded)
    | some s =>
      (cleanUp s.cleanup kept (s.op.fail left (performAll (steps.take position) d)), .failed s.message)
  | .crash position torn => (tear torn (performAll (steps.take position) d), .crashed)

def hasValidCurrent (d : RouteDirectory) : Interruption → Bool
  | .unreadable => false
  | _ => SnapshotStore.holdsSnapshot d.files.current

def commit (deviceHash : Bytes) (snapshot : Snapshot) (i : Interruption) (d : RouteDirectory) :
    RouteDirectory × Ending :=
  if !isSafeDeviceHash deviceHash then (d, .failed (some "device hash is invalid"))
  else if snapshot.deviceKeyHash ≠ deviceHash then (d, .failed (some "device hash does not match snapshot"))
  else match encodeSnapshot snapshot with
    | .error e => (d, .failed (some e))
    | .ok encoded => performUntil (commitSteps (d.hasValidCurrent i) encoded) i d

end RouteDirectory

/-! ## What the operations leave alone -/

def FileName.isTemporary : FileName → Bool
  | .temporary | .previousTemporary => true
  | .current | .previous => false

/-- an operation on the temporary files only -/
def FileOp.isAside : FileOp → Bool
  | .remove name | .create name | .write name _ | .sync name | .copy _ name => name.isTemporary
  | .rename _ _ => false
  | .createDirectories | .chmod _ | .openFile _ | .openDirectory | .syncDirectory => true

theorem FileOp.perform_aside {op : FileOp} (h : op.isAside = true) (d : RouteDirectory) {name : FileName}
    (hname : name.isTemporary = false) : op.perform d name = d name := by
  have hne : ∀ target : FileName, target.isTemporary = true → name ≠ target := by
    intro target htarget heq
    rw [heq, htarget] at hname
    cases hname
  cases op with
  | remove target | create target => exact Function.update_of_ne (hne _ h) _ _
  | write target bytes => exact Function.update_of_ne (hne _ h) _ _
  | sync target => exact Function.update_of_ne (hne _ h) _ _
  | copy source target => exact Function.update_of_ne (hne _ h) _ _
  | rename source target => cases h
  | _ => rfl

/-- a failing step and its clean-up touch the temporary files only -/
def FileStep.FailsAside (s : FileStep) : Prop :=
  (∀ left d name, name.isTemporary = false → s.op.fail left d name = d name) ∧
    ∀ name ∈ s.cleanup, name.isTemporary = true

theorem FileStep.FailsAside.of_op {s : FileStep} (hop : s.op.isAside = true ∨ ∃ a b, s.op = .rename a b)
    (hcleanup : ∀ name ∈ s.cleanup, name.isTemporary = true) : s.FailsAside := by
  refine ⟨fun left d name hname => ?_, hcleanup⟩
  have hne : ∀ target : FileName, target.isTemporary = true → name ≠ target := by
    intro target htarget heq
    rw [heq, htarget] at hname
    cases hname
  rcases hop with hop | ⟨a, b, hop⟩
  · cases hs : s.op with
    | write target bytes =>
      rw [hs] at hop
      exact Function.update_of_ne (hne _ hop) _ _
    | copy source target =>
      rw [hs] at hop
      exact Function.update_of_ne (hne _ hop) _ _
    | _ => rfl
  · rw [hop]
    rfl

namespace RouteDirectory

theorem performAll_append (a b : List FileStep) (d : RouteDirectory) :
    performAll (a ++ b) d = performAll b (performAll a d) := List.foldl_append

theorem performAll_aside {steps : List FileStep} (h : ∀ s ∈ steps, s.op.isAside = true) (d : RouteDirectory)
    {name : FileName} (hname : name.isTemporary = false) : performAll steps d name = d name := by
  induction steps generalizing d with
  | nil => rfl
  | cons s steps ih =>
    calc performAll (s :: steps) d name = performAll steps (s.op.perform d) name := rfl
      _ = s.op.perform d name := ih (fun t ht => h t (List.mem_cons_of_mem _ ht)) _
      _ = d name := FileOp.perform_aside (h s List.mem_cons_self) d hname

/-- everything before the renames -/
def asideSteps (valid : Bool) (encoded : Bytes) : List FileStep :=
  writeSteps encoded ++ if valid then stageSteps else []

theorem commitSteps_eq (valid : Bool) (encoded : Bytes) :
    commitSteps valid encoded =
      asideSteps valid encoded ++ ((if valid then [rotateStep] else []) ++ publishStep :: settleSteps) := by
  cases valid <;> simp [commitSteps, asideSteps]

theorem asideSteps_aside (valid : Bool) (encoded : Bytes) : ∀ s ∈ asideSteps valid encoded, s.op.isAside = true := by
  cases valid <;> simp [asideSteps, writeSteps, stageSteps, FileOp.isAside, FileName.isTemporary]

theorem settleSteps_aside : ∀ s ∈ settleSteps, s.op.isAside = true := by decide

theorem commitSteps_failsAside {valid : Bool} {encoded : Bytes} {s : FileStep} (h : s ∈ commitSteps valid encoded) :
    s.FailsAside := by
  have hall : ∀ s ∈ commitSteps valid encoded,
      (s.op.isAside = true ∨ ∃ a b, s.op = .rename a b) ∧ ∀ name ∈ s.cleanup, name.isTemporary = true := by
    cases valid <;>
      simp [commitSteps, writeSteps, stageSteps, rotateStep, publishStep, settleSteps, FileOp.isAside, FileName.isTemporary]
  exact .of_op (hall s h).1 (hall s h).2

/-- the temporary file is complete and synced before any rename -/
theorem asideSteps_temporary (valid : Bool) (encoded : Bytes) (d : RouteDirectory) :
    performAll (asideSteps valid encoded) d .temporary = some ⟨encoded, true⟩ := by
  cases valid <;>
    simp [asideSteps, performAll, writeSteps, stageSteps, FileOp.perform]

/-- and so is the copy of the current file -/
theorem asideSteps_previousTemporary (encoded : Bytes) (d : RouteDirectory) :
    performAll (asideSteps true encoded) d .previousTemporary = (d .current).map ({ · with synced := true }) := by
  cases hc : d .current <;>
    simp [asideSteps, performAll, writeSteps, stageSteps, FileOp.perform, hc]

/-! ## How far an interrupted commit comes -/

/-- where the rename that publishes the new snapshot stands among the operations -/
def publishPosition (valid : Bool) : ℕ := if valid then 13 else 8

def rotated (valid : Bool) (d : RouteDirectory) : RouteDirectory :=
  if valid then Function.update d .previous ((d .current).map ({ · with synced := true })) else d

def published (valid : Bool) (encoded : Bytes) (d : RouteDirectory) : RouteDirectory :=
  Function.update (rotated valid d) .current (some ⟨encoded, true⟩)

/-- the files that are read back, after the first `k` operations -/
def reached (valid : Bool) (encoded : Bytes) (k : ℕ) (d : RouteDirectory) : RouteDirectory :=
  if k < publishPosition valid then d
  else if k = publishPosition valid then rotated valid d
  else published valid encoded d

theorem getElem?_publish (valid : Bool) (encoded : Bytes) (k : ℕ) :
    (commitSteps valid encoded)[k]? = some publishStep ↔ k = publishPosition valid := by
  constructor
  · intro h
    obtain ⟨hk, hget⟩ := List.getElem?_eq_some_iff.mp h
    cases valid
    · have hlen : k < 11 := hk
      interval_cases k <;> first | rfl | (injection hget with hop; cases hop)
    · have hlen : k < 16 := hk
      interval_cases k <;> first | rfl | (injection hget with hop; cases hop)
  · rintro rfl
    cases valid <;> rfl

theorem performAll_asideRotate (valid : Bool) (encoded : Bytes) (d : RouteDirectory) {name : FileName}
    (hname : name.isTemporary = false) :
    performAll (asideSteps valid encoded ++ if valid then [rotateStep] else []) d name = rotated valid d name := by
  have haside := performAll_aside (asideSteps_aside valid encoded) d hname
  cases valid with
  | false => simpa only [Bool.false_eq_true, if_false, List.append_nil, rotated] using haside
  | true =>
    rw [performAll_append]
    cases name with
    | temporary | previousTemporary => cases hname
    | current => simpa [performAll, rotateStep, FileOp.perform, rotated] using haside
    | previous =>
      have hcopy := asideSteps_previousTemporary encoded d
      simpa [performAll, rotateStep, FileOp.perform, rotated] using hcopy

theorem performAll_publish (valid : Bool) (encoded : Bytes) (d : RouteDirectory) {name : FileName}
    (hname : name.isTemporary = false) :
    performAll ((asideSteps valid encoded ++ if valid then [rotateStep] else []) ++ [publishStep]) d name
      = published valid encoded d name := by
  have htemporary : performAll (asideSteps valid encoded ++ if valid then [rotateStep] else []) d .temporary
      = some ⟨encoded, true⟩ := by
    rw [performAll_append]
    cases valid <;> simpa [performAll, rotateStep, FileOp.perform] using asideSteps_temporary _ encoded d
  have hrotated := performAll_asideRotate valid encoded d hname
  rw [performAll_append]
  cases name with
  | temporary | previousTemporary => cases hname
  | current => simpa [performAll, publishStep, FileOp.perform, published] using htemporary
  | previous => simpa [performAll, publishStep, FileOp.perform, published] using hrotated

theorem performAll_take (valid : Bool) (encoded : Bytes) (k : ℕ) (d : RouteDirectory) {name : FileName}
    (hname : name.isTemporary = false) :
    performAll ((commitSteps valid encoded).take k) d name = reached valid encoded k d name := by
  have hlength : (asideSteps valid encoded ++ if valid then [rotateStep] else []).length = publishPosition valid := by
    cases valid <;> rfl
  have hsplit : commitSteps valid encoded =
      (asideSteps valid encoded ++ if valid then [rotateStep] else []) ++ [publishStep] ++ settleSteps := by
    rw [commitSteps_eq, List.append_assoc, List.append_assoc]
    rfl
  unfold reached
  rcases Nat.lt_trichotomy k (publishPosition valid) with hk | rfl | hk
  · have hwithin : k ≤ (asideSteps valid encoded).length := by
      revert hk
      cases valid
      · intro hk
        exact Nat.le_of_lt hk
      · intro hk
        exact Nat.le_of_lt_succ hk
    rw [if_pos hk, commitSteps_eq, List.take_append_of_le_length hwithin]
    exact performAll_aside (fun s hs => asideSteps_aside valid encoded s (List.mem_of_mem_take hs)) d hname
  · rw [if_neg (lt_irrefl _), if_pos rfl, hsplit, List.append_assoc, ← hlength, List.take_left]
    exact performAll_asideRotate valid encoded d hname
  · have hall : ((asideSteps valid encoded ++ if valid then [rotateStep] else []) ++ [publishStep]).length ≤ k := by
      rw [List.length_append, hlength]
      exact hk
    rw [if_neg (by omega), if_neg (by omega), hsplit, List.take_append, performAll_append, List.take_of_length_le hall]
    calc performAll (settleSteps.take _) (performAll _ d) name = performAll _ d name :=
          performAll_aside (fun s hs => settleSteps_aside s (List.mem_of_mem_take hs)) _ hname
      _ = published valid encoded d name := performAll_publish valid encoded d hname

/-- the operation an interruption meets -/
def Interruption.position (steps : List FileStep) : Interruption → ℕ
  | .never | .unreadable => steps.length
  | .fault position _ _ | .crash position _ => position

theorem publishPosition_lt (valid : Bool) (encoded : Bytes) :
    publishPosition valid < (commitSteps valid encoded).length := by
  have h := (getElem?_publish valid encoded _).mpr rfl
  exact (List.getElem?_eq_some_iff.mp h).1

theorem performAll_commitSteps (valid : Bool) (encoded : Bytes) {k : ℕ} (d : RouteDirectory)
    (hk : (commitSteps valid encoded).length ≤ k) {name : FileName} (hname : name.isTemporary = false) :
    performAll (commitSteps valid encoded) d name = reached valid encoded k d name := by
  rw [← performAll_take valid encoded k d hname, List.take_of_length_le hk]

/-- what is read back was synced, or was there before -/
theorem reached_synced {valid : Bool} {encoded : Bytes} {k : ℕ} {prior : FileName → Option Bytes} {name : FileName}
    {f : File} (h : reached valid encoded k (onDisk prior) name = some f) : f.synced = true := by
  have hprior : ∀ n g, onDisk prior n = some g → g.synced = true := by
    intro n g hg
    obtain ⟨_, _, rfl⟩ := Option.map_eq_some_iff.mp hg
    rfl
  have hrotated : ∀ g, rotated valid (onDisk prior) name = some g → g.synced = true := by
    intro g hg
    unfold rotated at hg
    split_ifs at hg
    · by_cases hn : name = .previous
      · rw [hn, Function.update_self] at hg
        obtain ⟨_, _, rfl⟩ := Option.map_eq_some_iff.mp hg
        rfl
      · rw [Function.update_of_ne hn] at hg
        exact hprior _ _ hg
    · exact hprior _ _ hg
  unfold reached published at h
  split_ifs at h
  · exact hprior _ _ h
  · exact hrotated _ h
  · by_cases hn : name = .current
    · rw [hn, Function.update_self] at h
      cases h
      rfl
    · rw [Function.update_of_ne hn] at h
      exact hrotated _ h

theorem tear_synced {torn : FileName → Option Bytes} {d : RouteDirectory} {name : FileName}
    (h : ∀ f, d name = some f → f.synced = true) : tear torn d name = d name := by
  unfold tear
  cases hd : d name with
  | none => rfl
  | some f => simp only [h f hd, if_true]

theorem performUntil_reached (valid : Bool) (encoded : Bytes) (i : Interruption) (prior : FileName → Option Bytes)
    {name : FileName} (hname : name.isTemporary = false) :
    (performUntil (commitSteps valid encoded) i (onDisk prior)).1 name
      = reached valid encoded (Interruption.position (commitSteps valid encoded) i) (onDisk prior) name := by
  cases i with
  | never | unreadable => exact performAll_commitSteps valid encoded _ le_rfl hname
  | fault position left kept =>
    simp only [performUntil, Interruption.position]
    cases hs : (commitSteps valid encoded)[position]? with
    | none => exact performAll_commitSteps valid encoded _ (List.getElem?_eq_none_iff.mp hs) hname
    | some s =>
      obtain ⟨hfail, hcleanup⟩ := commitSteps_failsAside (List.mem_of_getElem? hs)
      have hkept : ¬ (name ∈ s.cleanup ∧ name ∉ kept) := by
        rintro ⟨hmem, -⟩
        rw [hcleanup name hmem] at hname
        cases hname
      simp only [cleanUp, if_neg hkept, hfail left _ name hname]
      exact performAll_take valid encoded position _ hname
  | crash position torn =>
    have hreached := performAll_take valid encoded position (onDisk prior) hname
    refine (tear_synced fun f hf => ?_).trans hreached
    rw [hreached] at hf
    exact reached_synced hf

theorem performUntil_succeeded {valid : Bool} {encoded : Bytes} {i : Interruption} {d : RouteDirectory}
    (h : (performUntil (commitSteps valid encoded) i d).2 = .succeeded) :
    (commitSteps valid encoded).length ≤ Interruption.position (commitSteps valid encoded) i := by
  cases i with
  | never | unreadable => exact le_rfl
  | fault position left kept =>
    simp only [performUntil] at h
    cases hs : (commitSteps valid encoded)[position]? with
    | none => exact List.getElem?_eq_none_iff.mp hs
    | some s => rw [hs] at h; cases h
  | crash position torn => cases h

theorem performUntil_complete {steps : List FileStep} {i : Interruption} {d : RouteDirectory}
    (hcrash : (performUntil steps i d).2 ≠ .crashed) (h : steps.length ≤ Interruption.position steps i) :
    (performUntil steps i d).2 = .succeeded := by
  cases i with
  | never | unreadable => rfl
  | fault position left kept =>
    have hnone : steps[position]? = none := List.getElem?_eq_none_iff.mpr h
    simp only [performUntil, hnone]
  | crash position torn => exact absurd rfl hcrash

/-! ## What is read back -/

/-- the snapshot a file holds for this route -/
def usableIn (deviceHash : Bytes) (file : Option Bytes) : Option Snapshot :=
  match SnapshotStore.loadNamed deviceHash file with
  | .ok snapshot => if snapshot.deviceKeyHash = deviceHash then some snapshot else none
  | .error _ => none

theorem store_loadCurrent (deviceHash : Bytes) (d : RouteDirectory) :
    (d.store deviceHash).loadCurrent deviceHash = SnapshotStore.loadNamed deviceHash d.files.current := by
  simp only [SnapshotStore.loadCurrent, SnapshotStore.files, store, Table.get?_put_self, Option.getD_some]

theorem store_loadPrevious (deviceHash : Bytes) (d : RouteDirectory) :
    (d.store deviceHash).loadPrevious deviceHash = SnapshotStore.loadNamed deviceHash d.files.previous := by
  simp only [SnapshotStore.loadPrevious, SnapshotStore.files, store, Table.get?_put_self, Option.getD_some]

theorem lookup_eq (deviceHash : Bytes) (d : RouteDirectory) :
    d.lookup deviceHash = (usableIn deviceHash d.files.current).or (usableIn deviceHash d.files.previous) := by
  have hfallback : usableSnapshot.fallback (d.store deviceHash) deviceHash = usableIn deviceHash d.files.previous := by
    cases hloaded : SnapshotStore.loadNamed deviceHash d.files.previous <;>
      simp only [usableSnapshot.fallback, usableIn, store_loadPrevious, hloaded]
  unfold lookup usableSnapshot
  rw [store_loadCurrent, hfallback]
  unfold usableIn
  cases SnapshotStore.loadNamed deviceHash d.files.current with
  | error e => rfl
  | ok snapshot =>
    by_cases hhash : snapshot.deviceKeyHash = deviceHash
    · simp only [if_pos hhash, Option.some_or]
    · simp only [if_neg hhash, Option.none_or]

theorem loadNamed_encoded {deviceHash encoded : Bytes} {snapshot : Snapshot} (hsafe : isSafeDeviceHash deviceHash = true)
    (h : encodeSnapshot snapshot = .ok encoded) : SnapshotStore.loadNamed deviceHash (some encoded) = .ok snapshot := by
  have hread : SnapshotStore.readFile (some encoded) = .ok encoded := if_neg (not_lt.mpr (encodeSnapshot_size h))
  unfold SnapshotStore.loadNamed
  rw [hsafe, hread]
  exact decodeSnapshot_encode h

theorem usableIn_encoded {deviceHash encoded : Bytes} {snapshot : Snapshot} (hsafe : isSafeDeviceHash deviceHash = true)
    (hhash : snapshot.deviceKeyHash = deviceHash) (h : encodeSnapshot snapshot = .ok encoded) :
    usableIn deviceHash (some encoded) = some snapshot := by
  unfold usableIn
  rw [loadNamed_encoded hsafe h]
  exact if_pos hhash

theorem holdsSnapshot_of_usableIn {deviceHash : Bytes} {file : Option Bytes} {snapshot : Snapshot}
    (h : usableIn deviceHash file = some snapshot) :
    SnapshotStore.holdsSnapshot file = true ∧ isSafeDeviceHash deviceHash = true := by
  unfold usableIn SnapshotStore.loadNamed at h
  unfold SnapshotStore.holdsSnapshot
  cases hsafe : isSafeDeviceHash deviceHash with
  | false => simp [hsafe] at h
  | true =>
    rw [hsafe] at h
    cases hread : SnapshotStore.readFile file with
    | error e => simp [hread] at h
    | ok bytes =>
      cases hdecode : decodeSnapshot bytes with
      | error e => simp [hread, hdecode] at h
      | ok t => simp [hdecode]

/-! ## Crash consistency -/

/-- an interrupted commit costs the route nothing, and a commit that returns true has published its snapshot -/
def Keeps (deviceHash : Bytes) (snapshot : Snapshot) (i : Interruption) (prior : FileName → Option Bytes) : Prop :=
  let before := onDisk prior
  let after := before.commit deviceHash snapshot i
  ((∃ s, before.lookup deviceHash = some s) →
    ∃ s, after.1.lookup deviceHash = some s ∧
      (usableIn deviceHash (prior .current) = some s ∨ usableIn deviceHash (prior .previous) = some s ∨ s = snapshot)) ∧
  (after.2 = .succeeded → (after.1.store deviceHash).loadCurrent deviceHash = .ok snapshot)

/-- the rotation has replaced the only usable file by one of another route, and the publishing rename does not follow -/
structure LosesPrevious (deviceHash : Bytes) (snapshot : Snapshot) (i : Interruption)
    (prior : FileName → Option Bytes) : Prop where
  own : snapshot.deviceKeyHash = deviceHash
  cut : ∃ encoded, encodeSnapshot snapshot = .ok encoded ∧
    (commitSteps true encoded)[Interruption.position (commitSteps true encoded) i]? = some publishStep
  decodes : SnapshotStore.holdsSnapshot (prior .current) = true
  foreign : usableIn deviceHash (prior .current) = none
  only : usableIn deviceHash (prior .previous) ≠ none

theorem onDisk_files (prior : FileName → Option Bytes) :
    (onDisk prior).files = ⟨prior .current, prior .previous⟩ := by
  simp [files, onDisk, Function.comp_def]

theorem hasValidCurrent_onDisk {i : Interruption} (h : i ≠ .unreadable) (prior : FileName → Option Bytes) :
    (onDisk prior).hasValidCurrent i = SnapshotStore.holdsSnapshot (prior .current) := by
  cases i with
  | unreadable => exact absurd rfl h
  | never => exact congrArg (fun f => SnapshotStore.holdsSnapshot f.current) (onDisk_files prior)
  | fault position left kept => exact congrArg (fun f => SnapshotStore.holdsSnapshot f.current) (onDisk_files prior)
  | crash position torn => exact congrArg (fun f => SnapshotStore.holdsSnapshot f.current) (onDisk_files prior)

theorem rotated_files (valid : Bool) (prior : FileName → Option Bytes) :
    (rotated valid (onDisk prior)).files = ⟨prior .current, if valid then prior .current else prior .previous⟩ := by
  cases valid <;> simp [files, rotated, onDisk, Function.comp_def]

theorem published_files (valid : Bool) (encoded : Bytes) (d : RouteDirectory) :
    (published valid encoded d).files.current = some encoded := by
  simp [files, published]

theorem files_congr {d e : RouteDirectory} (h : ∀ name, name.isTemporary = false → d name = e name) :
    d.files = e.files := by
  unfold files
  rw [h .current rfl, h .previous rfl]

/-- the files an accepted commit leaves, by the operation it was interrupted at -/
theorem commit_files {deviceHash encoded : Bytes} {snapshot : Snapshot} (hsafe : isSafeDeviceHash deviceHash = true)
    (hown : snapshot.deviceKeyHash = deviceHash) (hencode : encodeSnapshot snapshot = .ok encoded) (i : Interruption)
    (prior : FileName → Option Bytes) :
    let steps := commitSteps ((onDisk prior).hasValidCurrent i) encoded
    (onDisk prior).commit deviceHash snapshot i = performUntil steps i (onDisk prior) ∧
      ((onDisk prior).commit deviceHash snapshot i).1.files
        = (reached ((onDisk prior).hasValidCurrent i) encoded (Interruption.position steps i) (onDisk prior)).files := by
  intro steps
  have hcommit : (onDisk prior).commit deviceHash snapshot i = performUntil steps i (onDisk prior) := by
    unfold RouteDirectory.commit
    simp only [hsafe, hown, hencode, Bool.not_true, Bool.false_eq_true, if_false, ne_eq, not_true_eq_false]
    rfl
  refine ⟨hcommit, ?_⟩
  rw [hcommit]
  exact files_congr fun name hname => performUntil_reached _ encoded i prior hname

/-- before the publishing rename the old files are all there is, after it the new snapshot is found -/
theorem keeps_accepted {deviceHash encoded : Bytes} {snapshot : Snapshot} (hsafe : isSafeDeviceHash deviceHash = true)
    (hown : snapshot.deviceKeyHash = deviceHash) (hencode : encodeSnapshot snapshot = .ok encoded) (i : Interruption)
    (prior : FileName → Option Bytes) (h : ¬ LosesPrevious deviceHash snapshot i prior) :
    Keeps deviceHash snapshot i prior := by
  obtain ⟨hcommit, hfiles⟩ := commit_files hsafe hown hencode i prior
  have hlookup := lookup_eq deviceHash ((onDisk prior).commit deviceHash snapshot i).1
  have hload := store_loadCurrent deviceHash ((onDisk prior).commit deviceHash snapshot i).1
  have hbefore := lookup_eq deviceHash (onDisk prior)
  rw [onDisk_files] at hbefore
  rw [hfiles] at hlookup hload
  generalize hvalid : (onDisk prior).hasValidCurrent i = valid at hcommit hlookup hload
  constructor
  · rintro ⟨s, hs⟩
    rw [hbefore] at hs
    rw [hlookup]
    unfold reached
    rcases Nat.lt_trichotomy (Interruption.position (commitSteps valid encoded) i) (publishPosition valid)
      with hk | hk | hk
    · rw [if_pos hk, onDisk_files]
      refine ⟨s, hs, ?_⟩
      rcases Option.or_eq_some_iff.mp hs with hs | ⟨-, hs⟩
      · exact .inl hs
      · exact .inr (.inl hs)
    · rw [if_neg (by omega), if_pos hk, rotated_files]
      cases hcurrent : usableIn deviceHash (prior .current) with
      | some t => exact ⟨t, Option.some_or, .inl rfl⟩
      | none =>
        rw [hcurrent, Option.none_or] at hs
        cases valid with
        | false => exact ⟨s, by simpa only [hcurrent, Option.none_or, Bool.false_eq_true, if_false] using hs, .inr (.inl hs)⟩
        | true =>
          have hread : i ≠ .unreadable := by
            rintro rfl
            cases hvalid
          have hdecodes := (hasValidCurrent_onDisk hread prior).symm.trans hvalid
          exact absurd ⟨hown, ⟨encoded, hencode, (getElem?_publish true encoded _).mpr hk⟩, hdecodes, hcurrent,
            by rw [hs]; exact Option.some_ne_none _⟩ h
    · rw [if_neg (by omega), if_neg (by omega), published_files, usableIn_encoded hsafe hown hencode]
      exact ⟨snapshot, Option.some_or, .inr (.inr rfl)⟩
  · intro hsucceeded
    rw [hcommit] at hsucceeded
    have hk := lt_of_lt_of_le (publishPosition_lt valid encoded) (performUntil_succeeded hsucceeded)
    rw [hload]
    unfold reached
    rw [if_neg (by omega), if_neg (by omega), published_files, loadNamed_encoded hsafe hencode]

/-- a refused commit performs no operation -/
theorem keeps_unchanged {deviceHash : Bytes} {snapshot : Snapshot} {i : Interruption} {prior : FileName → Option Bytes}
    (message : String) (h : (onDisk prior).commit deviceHash snapshot i = (onDisk prior, .failed (some message))) :
    Keeps deviceHash snapshot i prior := by
  unfold Keeps
  dsimp only
  rw [h]
  refine ⟨fun ⟨s, hs⟩ => ⟨s, hs, ?_⟩, fun hsucceeded => by cases hsucceeded⟩
  rw [lookup_eq, onDisk_files] at hs
  rcases Option.or_eq_some_iff.mp hs with hs | ⟨-, hs⟩
  · exact .inl hs
  · exact .inr (.inl hs)

theorem not_keeps_of_loses {deviceHash : Bytes} {snapshot : Snapshot} {i : Interruption}
    {prior : FileName → Option Bytes} (h : LosesPrevious deviceHash snapshot i prior) :
    ¬ Keeps deviceHash snapshot i prior := by
  intro hkeeps
  obtain ⟨encoded, hencode, hcut⟩ := h.cut
  obtain ⟨s, hprevious⟩ := Option.ne_none_iff_exists'.mp h.only
  have hsafe := (holdsSnapshot_of_usableIn hprevious).2
  -- a commit that could not read the current file meets no operation
  have hread : i ≠ .unreadable := by
    rintro rfl
    have hnone : (commitSteps true encoded)[(commitSteps true encoded).length]? = none :=
      List.getElem?_eq_none_iff.mpr le_rfl
    cases hnone.symm.trans hcut
  have hvalid := (hasValidCurrent_onDisk hread prior).trans h.decodes
  obtain ⟨-, hfiles⟩ := commit_files hsafe h.own hencode i prior
  have hbefore : (onDisk prior).lookup deviceHash = some s := by
    rw [lookup_eq, onDisk_files, h.foreign, Option.none_or]
    exact hprevious
  obtain ⟨t, ht, -⟩ := hkeeps.1 ⟨s, hbefore⟩
  have hk := (getElem?_publish true encoded _).mp hcut
  rw [lookup_eq, hfiles, hvalid] at ht
  unfold reached at ht
  rw [if_neg (by omega), if_pos hk, rotated_files] at ht
  simp only [if_true, h.foreign, Option.none_or] at ht
  cases ht

/-- **Crash consistency.** Whatever the directory held and wherever a commit was interrupted, the route keeps a usable
snapshot and a commit that returns true has published its own, unless the rotation put a snapshot of another route over
the only usable file and the publishing rename did not follow. -/
theorem keeps_usable_iff (deviceHash : Bytes) (snapshot : Snapshot) (i : Interruption)
    (prior : FileName → Option Bytes) :
    Keeps deviceHash snapshot i prior ↔ ¬ LosesPrevious deviceHash snapshot i prior := by
  refine ⟨fun hkeeps hloses => not_keeps_of_loses hloses hkeeps, fun hloses => ?_⟩
  by_cases hsafe : isSafeDeviceHash deviceHash = true
  · by_cases hown : snapshot.deviceKeyHash = deviceHash
    · cases hencode : encodeSnapshot snapshot with
      | ok encoded => exact keeps_accepted hsafe hown hencode i prior hloses
      | error e =>
        refine keeps_unchanged e ?_
        unfold RouteDirectory.commit
        simp [hsafe, hown, hencode]
    · refine keeps_unchanged "device hash does not match snapshot" ?_
      unfold RouteDirectory.commit
      simp [hsafe, hown]
  · refine keeps_unchanged "device hash is invalid" ?_
    unfold RouteDirectory.commit
    simp [hsafe]

/-- a snapshot without parameters -/
def routeSnapshot (deviceKey : Bytes) (appGeneration : UInt64) : Snapshot :=
  { schemaVersion := 1, driverProtocolVersion := 1, deviceKey, deviceKeyHash := hashDeviceKey deviceKey, bootId := 1
    daemonGeneration := 1, appGeneration, createdAtMillis := 1, masterEnabled := true, globalMode := false
    parameters := [], iemParameters := [], resources := [], resourceGeneration := 0, graphGeneration := 0 }

def speakerKey : Bytes := ascii ['s', '|']
def headsetKey : Bytes := ascii ['h', '|']

/-- the speaker's directory, with a headset snapshot in its current file -/
def foreignCurrent : FileName → Option Bytes
  | .current => some (snapshotBytes (routeSnapshot headsetKey 1))
  | .previous => some (snapshotBytes (routeSnapshot speakerKey 2))
  | .temporary | .previousTemporary => none

/-- The rename that publishes fails, and the speaker's only snapshot is gone. -/
theorem foreign_current_costs_previous :
    ¬ Keeps (hashDeviceKey speakerKey) (routeSnapshot speakerKey 3) (.fault 13 none []) foreignCurrent := by
  have hencode : encodeSnapshot (routeSnapshot speakerKey 3) = .ok (snapshotBytes (routeSnapshot speakerKey 3)) :=
    ok_of_toOption (by decide +kernel)
  have hcut := (getElem?_publish true (snapshotBytes (routeSnapshot speakerKey 3)) 13).mpr rfl
  exact not_keeps_of_loses ⟨rfl, ⟨_, hencode, hcut⟩, by decide +kernel, by decide +kernel, by decide +kernel⟩

/-! ## The daemon model's commit -/

/-- the coarse fault an interruption amounts to -/
def DiskFault.of (valid : Bool) (k : ℕ) : DiskFault :=
  if k < 8 then .temporary
  else if k < publishPosition valid then (if k < 12 then .stagePrevious else .rotatePrevious)
  else if k = publishPosition valid then .publish
  else if k < publishPosition valid + 3 then .syncDirectory
  else .none

theorem publish_reached (encoded : Bytes) (k : ℕ) (prior : FileName → Option Bytes) :
    let valid := SnapshotStore.holdsSnapshot (prior .current)
    (SnapshotStore.publish ⟨prior .current, prior .previous⟩ encoded (DiskFault.of valid k)).1
      = (reached valid encoded k (onDisk prior)).files := by
  intro valid
  have hpublished : (published valid encoded (onDisk prior)).files =
      ⟨some encoded, if valid then prior .current else prior .previous⟩ := by
    cases valid <;> simp [files, published, rotated, onDisk, Function.comp_def]
  unfold reached DiskFault.of
  cases hv : valid with
  | false =>
    rw [hv] at hpublished
    have hholds : SnapshotStore.holdsSnapshot (prior .current) = false := hv
    have hposition : publishPosition false = 8 := rfl
    rw [hposition]
    split_ifs <;> first | omega | simp [SnapshotStore.publish, hholds, hpublished, onDisk_files, rotated_files]
  | true =>
    rw [hv] at hpublished
    have hholds : SnapshotStore.holdsSnapshot (prior .current) = true := hv
    have hposition : publishPosition true = 13 := rfl
    rw [hposition]
    split_ifs <;> first | omega | simp [SnapshotStore.publish, hholds, hpublished, onDisk_files, rotated_files]

theorem publish_succeeds (f : RouteFiles) (encoded : Bytes) (k : ℕ) :
    let valid := SnapshotStore.holdsSnapshot f.current
    (SnapshotStore.publish f encoded (DiskFault.of valid k)).2 = .ok () ↔ (commitSteps valid encoded).length ≤ k := by
  intro valid
  unfold DiskFault.of
  cases hv : valid with
  | false =>
    have hholds : SnapshotStore.holdsSnapshot f.current = false := hv
    have hlength : (commitSteps false encoded).length = 11 := rfl
    have hposition : publishPosition false = 8 := rfl
    rw [hlength, hposition]
    split_ifs <;> simp [SnapshotStore.publish, hholds] <;> omega
  | true =>
    have hholds : SnapshotStore.holdsSnapshot f.current = true := hv
    have hlength : (commitSteps true encoded).length = 16 := rfl
    have hposition : publishPosition true = 13 := rfl
    rw [hlength, hposition]
    split_ifs <;> simp [SnapshotStore.publish, hholds] <;> omega

/-- **The daemon model's commit is this one.** For every interruption but a failed read there is a fault of the coarse
model under which it leaves the same two files, and reports success in the same cases unless the machine stopped. -/
theorem commit_refines {deviceHash : Bytes} {snapshot : Snapshot} {i : Interruption} {prior : FileName → Option Bytes}
    (hi : i ≠ .unreadable) :
    ∃ fault,
      (((onDisk prior).store deviceHash).commit deviceHash snapshot fault).1.files deviceHash
          = ((onDisk prior).commit deviceHash snapshot i).1.files ∧
        (((onDisk prior).commit deviceHash snapshot i).2 ≠ .crashed →
          ((((onDisk prior).store deviceHash).commit deviceHash snapshot fault).2 = .ok () ↔
            ((onDisk prior).commit deviceHash snapshot i).2 = .succeeded)) := by
  have hstore : ((onDisk prior).store deviceHash).files deviceHash = ⟨prior .current, prior .previous⟩ := by
    rw [SnapshotStore.files, store, Table.get?_put_self, Option.getD_some, onDisk_files]
  unfold SnapshotStore.commit
  by_cases hsafe : isSafeDeviceHash deviceHash = true
  · by_cases hown : snapshot.deviceKeyHash = deviceHash
    · cases hencode : encodeSnapshot snapshot with
      | error e => exact ⟨.none, by simp [RouteDirectory.commit, hsafe, hown, hencode, hstore, onDisk_files]⟩
      | ok encoded =>
        obtain ⟨hcommit, hfiles⟩ := commit_files hsafe hown hencode i prior
        rw [hasValidCurrent_onDisk hi prior] at hcommit hfiles
        refine ⟨DiskFault.of (SnapshotStore.holdsSnapshot (prior .current))
          (Interruption.position (commitSteps (SnapshotStore.holdsSnapshot (prior .current)) encoded) i), ?_, ?_⟩
        · rw [hfiles, ← publish_reached]
          simp only [hsafe, hown, hstore, Bool.not_true, Bool.false_eq_true, if_false, ne_eq, not_true_eq_false]
          simp only [SnapshotStore.files, Table.get?_put_self, Option.getD_some]
        · rw [hcommit]
          intro hcrash
          simp only [hsafe, hown, hstore, Bool.not_true, Bool.false_eq_true, if_false, ne_eq, not_true_eq_false]
          exact (publish_succeeds ⟨prior .current, prior .previous⟩ encoded _).trans
            ⟨performUntil_complete hcrash, performUntil_succeeded⟩
    · exact ⟨.none, by simp [RouteDirectory.commit, hsafe, hown, hstore, onDisk_files]⟩
  · exact ⟨.none, by simp [RouteDirectory.commit, hsafe, hstore, onDisk_files]⟩

end RouteDirectory

end ViperFx.System
