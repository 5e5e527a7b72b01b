/-
The snapshots the daemon keeps on disk: `daemon/SnapshotStore.cpp`.

Each route has a directory named by its hash, with the file the last commit published and the one before it. A commit
writes a temporary file, copies a valid current file over the previous one, and renames the temporary file over the
current one. Where the disk fails is part of the call (`DiskFault`).

Results:
  · files_commit                     : a commit touches the files of its own route only
  · commit_published                 : what a successful commit leaves
-/
import ViperFx.Core.Table
import ViperFx.Protocol.SnapshotSchema

namespace ViperFx.Daemon

open ViperFx.Core ViperFx.Protocol

structure RouteFiles where
  current : Option Bytes := none
  previous : Option Bytes := none
  deriving DecidableEq

structure SnapshotStore where
  routes : Table Bytes RouteFiles := Table.empty

/-- the step of a commit at which the disk fails -/
inductive DiskFault where
  | none
  | temporary
  | stagePrevious
  | rotatePrevious
  | publish
  | syncDirectory
  deriving DecidableEq

/-- the disk gets as far as the rename -/
def DiskFault.Renames (fault : DiskFault) : Prop := fault = .none ∨ fault = .syncDirectory

instance DiskFault.decidableRenames (fault : DiskFault) : Decidable fault.Renames :=
  inferInstanceAs (Decidable (fault = .none ∨ fault = .syncDirectory))

def isSafeDeviceHash (value : Bytes) : Bool :=
  value.length == 64 && value.all fun b => (48 ≤ b && b ≤ 57) || (97 ≤ b && b ≤ 102)

/-- a hash that may stand in a snapshot may name a file -/
theorem isSafeDeviceHash_valid {sha256Hex : Bytes → Bytes} {s : Snapshot} (h : validateSnapshotWith sha256Hex s = .ok ()) :
    isSafeDeviceHash s.deviceKeyHash = true := by
  obtain ⟨-, h⟩ := unrefused h
  obtain ⟨-, h⟩ := unrefused h
  obtain ⟨-, h⟩ := unrefused h
  obtain ⟨-, h⟩ := unrefused h
  obtain ⟨hhex, -⟩ := unrefused h
  simp only [isLowerHex64, isHex64, Bool.not_eq_true', Bool.not_eq_false, Bool.and_eq_true, beq_iff_eq] at hhex
  obtain ⟨⟨hlength, hdigits⟩, hlower⟩ := hhex
  simp only [isSafeDeviceHash, Bool.and_eq_true, beq_iff_eq, hlength, true_and, List.all_eq_true] at hdigits hlower ⊢
  intro b hb
  have hdigit := hdigits b hb
  have hcase := hlower b hb
  revert hdigit hcase
  simp only [isXDigit, Bool.or_eq_true, Bool.and_eq_true, decide_eq_true_eq]
  grind

namespace SnapshotStore

def files (s : SnapshotStore) (deviceHash : Bytes) : RouteFiles := (s.routes.get? deviceHash).getD {}

def readFile : Option Bytes → Except String Bytes
  | none => .error "snapshot missing"
  | some bytes => if kMaxSnapshotSize < bytes.length then .error "snapshot file is too large" else .ok bytes

def loadNamed (deviceHash : Bytes) (file : Option Bytes) : Except String Snapshot :=
  if !isSafeDeviceHash deviceHash then .error "device hash is invalid"
  else match readFile file with
    | .error e => .error e
    | .ok bytes => decodeSnapshot bytes

def loadCurrent (s : SnapshotStore) (deviceHash : Bytes) : Except String Snapshot :=
  loadNamed deviceHash (s.files deviceHash).current

def loadPrevious (s : SnapshotStore) (deviceHash : Bytes) : Except String Snapshot :=
  loadNamed deviceHash (s.files deviceHash).previous

def holdsSnapshot (file : Option Bytes) : Bool :=
  match readFile file with
  | .error _ => false
  | .ok bytes =>
    match decodeSnapshot bytes with
    | .error _ => false
    | .ok _ => true

/-- the files after the writes of a commit, with the message of the step that failed -/
def publish (f : RouteFiles) (encoded : Bytes) (fault : DiskFault) : RouteFiles × Except String Unit :=
  if fault = .temporary then (f, .error "failed to write snapshot temporary file")
  else
    let valid := holdsSnapshot f.current
    if valid ∧ fault = .stagePrevious then (f, .error "failed to stage previous snapshot")
    else if valid ∧ fault = .rotatePrevious then (f, .error "failed to rotate previous snapshot")
    else
      let rotated := if valid then { f with previous := f.current } else f
      if fault = .publish then (rotated, .error "failed to publish current snapshot")
      else
        ({ rotated with current := some encoded },
          if fault = .syncDirectory then .error "failed to fsync snapshot directory" else .ok ())

def commit (s : SnapshotStore) (deviceHash : Bytes) (snapshot : Snapshot) (fault : DiskFault) :
    SnapshotStore × Except String Unit :=
  if !isSafeDeviceHash deviceHash then (s, .error "device hash is invalid")
  else if snapshot.deviceKeyHash ≠ deviceHash then (s, .error "device hash does not match snapshot")
  else match encodeSnapshot snapshot with
    | .error e => (s, .error e)
    | .ok encoded =>
      let p := publish (s.files deviceHash) encoded fault
      ({ s with routes := s.routes.put deviceHash p.1 }, p.2)

/-- **A commit touches its own route only.** -/
theorem files_commit (s : SnapshotStore) (deviceHash other : Bytes) (snapshot : Snapshot) (fault : DiskFault)
    (h : other ≠ deviceHash) : (s.commit deviceHash snapshot fault).1.files other = s.files other := by
  unfold commit
  split_ifs
  · rfl
  · rfl
  · split
    · rfl
    · simp only [files, Table.get?_put_ne _ _ (Ne.symm h)]

theorem publish_ok {f : RouteFiles} {encoded : Bytes} {fault : DiskFault} (h : (publish f encoded fault).2 = .ok ()) :
    (publish f encoded fault).1.current = some encoded ∧
      (holdsSnapshot f.current = true → (publish f encoded fault).1.previous = f.current) := by
  cases fault <;> cases hv : holdsSnapshot f.current <;> simp_all [publish]

/-- **A successful commit publishes its snapshot** and keeps the last valid one beside it. -/
theorem commit_published (s : SnapshotStore) (deviceHash : Bytes) (snapshot : Snapshot) (fault : DiskFault)
    (h : (s.commit deviceHash snapshot fault).2 = .ok ()) :
    ∃ encoded, encodeSnapshot snapshot = .ok encoded ∧
      ((s.commit deviceHash snapshot fault).1.files deviceHash).current = some encoded ∧
      (holdsSnapshot (s.files deviceHash).current = true →
        ((s.commit deviceHash snapshot fault).1.files deviceHash).previous = (s.files deviceHash).current) := by
  unfold commit at h ⊢
  split_ifs at h ⊢ with hsafe hhash
  cases he : encodeSnapshot snapshot with
  | error e => rw [he] at h; cases h
  | ok encoded =>
    rw [he] at h
    refine ⟨encoded, rfl, ?_⟩
    simpa only [files, Table.get?_put_self, Option.getD_some] using publish_ok h

theorem current_commit (store : SnapshotStore) (snapshot : Snapshot) {encoded : Bytes} {fault : DiskFault}
    (hfault : fault.Renames) (hsafe : isSafeDeviceHash snapshot.deviceKeyHash = true)
    (hencode : encodeSnapshot snapshot = .ok encoded) :
    ((store.commit snapshot.deviceKeyHash snapshot fault).1.files snapshot.deviceKeyHash).current = some encoded := by
  have hpublish : ∀ f, (publish f encoded fault).1.current = some encoded := by
    intro f
    rcases hfault with rfl | rfl
    · simp [publish]
    · simp [publish]
  unfold commit
  rw [hsafe, hencode]
  simp only [Bool.not_true, Bool.false_eq_true, if_false, ne_eq, not_true_eq_false, files, Table.get?_put_self,
    Option.getD_some]
  exact hpublish _

end SnapshotStore

end ViperFx.Daemon
