/-
Bytes on the wire: the little-endian integer fields every codec of `protocol/` is built from, and the CRC-32 that
covers a frame payload and a staged snapshot (`ViperDaemonProtocol.cpp`).

A decoder of the source walks a span with an offset. Here it is a `Reader`: the state is the part of the span behind
the offset, so `bytes.size() - offset` is the length of the state and `offset == bytes.size()` says it is empty. A read
past the end of the span, which the source does not guard against by itself, is an error of its own (`outOfBounds`).

Results:
  · readU16_put, readU32_put, readU64_put : a field that was written is read back, and the rest of the span is left
  · takeBytes_append                     : a counted field is read back
  · readU16_iff, readU32_iff, readU64_iff, takeBytes_iff, refuseIf_iff, bind_iff : a decoder that succeeds, said of the
    bytes; a codec proof rewrites with these once and has both directions
  · Stays                                : a decoder that reads inside its span, with a rule for each way to build one
-/
import Mathlib.Tactic

namespace ViperFx.Protocol

abbrev Bytes := List UInt8

/-! ## Little-endian integers -/

/-- the `width` low bytes of `n`, least significant first -/
def leBytes : ℕ → ℕ → Bytes
  | 0, _ => []
  | width + 1, n => UInt8.ofNat n :: leBytes width (n / 256)

/-- the number a little-endian byte string spells -/
def leNat : Bytes → ℕ
  | [] => 0
  | b :: bs => b.toNat + 256 * leNat bs

@[simp] theorem leBytes_length (width n : ℕ) : (leBytes width n).length = width := by
  induction width generalizing n with
  | zero => rfl
  | succ w ih => simp [leBytes, ih]

theorem leNat_lt (bytes : Bytes) : leNat bytes < 256 ^ bytes.length := by
  induction bytes with
  | nil => simp [leNat]
  | cons b bs ih =>
    have hb : b.toNat < 256 := b.toNat_lt
    calc b.toNat + 256 * leNat bs < 256 + 256 * leNat bs := by omega
      _ = 256 * (leNat bs + 1) := by ring
      _ ≤ 256 * 256 ^ bs.length := Nat.mul_le_mul_left _ ih
      _ = 256 ^ (b :: bs).length := by rw [List.length_cons, pow_succ, Nat.mul_comm]

theorem leBytes_leNat (bytes : Bytes) : leBytes bytes.length (leNat bytes) = bytes := by
  induction bytes with
  | nil => rfl
  | cons b bs ih =>
    have hb : b.toNat < 256 := b.toNat_lt
    have hlow : UInt8.ofNat (leNat (b :: bs)) = b := by
      rw [leNat, ← UInt8.toNat_inj, UInt8.toNat_ofNat']
      omega
    have hhigh : leNat (b :: bs) / 256 = leNat bs := by
      rw [leNat]
      omega
    rw [List.length_cons, leBytes, hlow, hhigh, ih]

theorem leNat_leBytes (width n : ℕ) (h : n < 256 ^ width) : leNat (leBytes width n) = n := by
  induction width generalizing n with
  | zero =>
    have hn : n = 0 := by simpa using h
    simp [leBytes, leNat, hn]
  | succ w ih =>
    have hdiv : n / 256 < 256 ^ w := by
      rw [pow_succ] at h
      exact Nat.div_lt_of_lt_mul (by omega)
    rw [leBytes, leNat, ih (n / 256) hdiv, UInt8.toNat_ofNat']
    omega

def putU16 (value : UInt16) : Bytes := leBytes 2 value.toNat

def putU32 (value : UInt32) : Bytes := leBytes 4 value.toNat

def putU64 (value : UInt64) : Bytes := leBytes 8 value.toNat

@[simp] theorem putU16_length (value : UInt16) : (putU16 value).length = 2 := leBytes_length 2 _

@[simp] theorem putU32_length (value : UInt32) : (putU32 value).length = 4 := leBytes_length 4 _

@[simp] theorem putU64_length (value : UInt64) : (putU64 value).length = 8 := leBytes_length 8 _

/-- a flag, as a 16-bit field -/
def putFlag (value : Bool) : Bytes := putU16 (if value then 1 else 0)

/-- a flag reads back as itself; every other non-zero value reads as a set flag -/
theorem flag_ne_zero (value : Bool) : ((if value then 1 else 0 : UInt16) != 0) = value := by
  cases value <;> rfl

/-! ## Readers -/

/-- a decoder: the state is the part of the span it has not read yet, the error is the source's message -/
abbrev Reader := StateT Bytes (Except String)

/-- what a read past the end of the span comes to; no message of the source -/
def outOfBounds : String := "out of bounds"

/-- the next `n` bytes -/
def takeBytes (n : ℕ) : Reader Bytes := fun rest =>
  if rest.length < n then .error outOfBounds else .ok (rest.take n, rest.drop n)

/-- `bytes.size() - offset` -/
def remaining : Reader ℕ := List.length <$> get

theorem remaining_eq (s : Bytes) : remaining s = .ok (s.length, s) := rfl

def readU16 : Reader UInt16 := (fun b => UInt16.ofNat (leNat b)) <$> takeBytes 2

def readU32 : Reader UInt32 := (fun b => UInt32.ofNat (leNat b)) <$> takeBytes 4

def readU64 : Reader UInt64 := (fun b => UInt64.ofNat (leNat b)) <$> takeBytes 8

/-- `SetError(error, message); return false;` under a condition -/
def refuseIf (c : Prop) [Decidable c] (message : String) : Reader Unit :=
  if c then throw message else pure ()

/-- a check of the source that sets the error itself -/
def check (result : Except String Unit) : Reader Unit := liftM result

/-- a reader that succeeds hands its value and the rest of the span on -/
theorem bind_ok {α β : Type} {m : Reader α} {f : α → Reader β} {s s' : Bytes} {a : α} (h : m s = .ok (a, s')) :
    (m >>= f) s = f a s' := by
  show (m s >>= fun p => f p.1 p.2) = f a s'
  rw [h]
  rfl

theorem refuseIf_pass {c : Prop} [Decidable c] (h : ¬ c) (message : String) (s : Bytes) :
    refuseIf c message s = .ok ((), s) := by
  simp only [refuseIf, h, if_false]
  rfl

/-- a reader that succeeds did so in each of its parts -/
theorem bind_inv {α β : Type} {m : Reader α} {f : α → Reader β} {s : Bytes} {p : β × Bytes}
    (h : (m >>= f) s = .ok p) : ∃ a s', m s = .ok (a, s') ∧ f a s' = .ok p := by
  cases hm : m s with
  | error e =>
    have hbind : (m >>= f) s = .error e := by
      show (m s >>= fun p => f p.1 p.2) = _
      rw [hm]
      rfl
    rw [hbind] at h
    cases h
  | ok q =>
    obtain ⟨a, s'⟩ := q
    exact ⟨a, s', rfl, (bind_ok hm).symm.trans h⟩

theorem refuseIf_inv {c : Prop} [Decidable c] {message : String} {s : Bytes} {p : Unit × Bytes}
    (h : refuseIf c message s = .ok p) : ¬ c ∧ p.2 = s := by
  by_cases hc : c
  · simp only [refuseIf, hc, if_true] at h
    cases h
  · rw [refuseIf_pass hc] at h
    exact ⟨hc, (congrArg Prod.snd (Except.ok.inj h)).symm⟩

theorem takeBytes_append (field rest : Bytes) (n : ℕ) (h : field.length = n) :
    takeBytes n (field ++ rest) = .ok (field, rest) := by
  subst h
  simp [takeBytes]

theorem takeBytes_inv {n : ℕ} {s s' field : Bytes} (h : takeBytes n s = .ok (field, s')) :
    s = field ++ s' ∧ field.length = n := by
  unfold takeBytes at h
  split_ifs at h with hshort
  obtain ⟨rfl, rfl⟩ := Prod.mk.inj (Except.ok.inj h)
  exact ⟨(List.take_append_drop n s).symm, List.length_take_of_le (not_lt.mp hshort)⟩

/-- a reader that is a function of another one -/
theorem map_inv {α β : Type} {m : Reader α} {f : α → β} {s s' : Bytes} {b : β} (h : (f <$> m) s = .ok (b, s')) :
    ∃ a, m s = .ok (a, s') ∧ f a = b := by
  obtain ⟨a, t, hm, hpure⟩ := bind_inv (f := fun a => pure (f a)) h
  obtain ⟨rfl, rfl⟩ := Prod.mk.inj (Except.ok.inj hpure)
  exact ⟨a, hm, rfl⟩

theorem readU16_put (value : UInt16) (rest : Bytes) : readU16 (putU16 value ++ rest) = .ok (value, rest) := by
  have hn : leNat (putU16 value) = value.toNat := leNat_leBytes 2 _ value.toNat_lt
  show (do let p ← takeBytes 2 (putU16 value ++ rest); pure (UInt16.ofNat (leNat p.1), p.2)) = _
  rw [takeBytes_append _ _ _ (putU16_length value)]
  simp [bind, Except.bind, pure, Except.pure, hn]

theorem readU32_put (value : UInt32) (rest : Bytes) : readU32 (putU32 value ++ rest) = .ok (value, rest) := by
  have hn : leNat (putU32 value) = value.toNat := leNat_leBytes 4 _ value.toNat_lt
  show (do let p ← takeBytes 4 (putU32 value ++ rest); pure (UInt32.ofNat (leNat p.1), p.2)) = _
  rw [takeBytes_append _ _ _ (putU32_length value)]
  simp [bind, Except.bind, pure, Except.pure, hn]

theorem readU64_put (value : UInt64) (rest : Bytes) : readU64 (putU64 value ++ rest) = .ok (value, rest) := by
  have hn : leNat (putU64 value) = value.toNat := leNat_leBytes 8 _ value.toNat_lt
  show (do let p ← takeBytes 8 (putU64 value ++ rest); pure (UInt64.ofNat (leNat p.1), p.2)) = _
  rw [takeBytes_append _ _ _ (putU64_length value)]
  simp [bind, Except.bind, pure, Except.pure, hn]

/-! ## What was read -/

/-- the bytes a number was read from are the bytes it is written as -/
theorem leBytes_read {n : ℕ} {s s' field : Bytes} (h : takeBytes n s = .ok (field, s')) :
    s = leBytes n (leNat field) ++ s' := by
  obtain ⟨hs, rfl⟩ := takeBytes_inv h
  rw [leBytes_leNat]
  exact hs

theorem readU16_inv {s s' : Bytes} {v : UInt16} (h : readU16 s = .ok (v, s')) : s = putU16 v ++ s' := by
  obtain ⟨field, hfield, rfl⟩ := map_inv h
  have hlt : leNat field < 2 ^ 16 := by
    have := leNat_lt field
    rwa [(takeBytes_inv hfield).2] at this
  rw [putU16, UInt16.toNat_ofNat', Nat.mod_eq_of_lt hlt]
  exact leBytes_read hfield

theorem readU32_inv {s s' : Bytes} {v : UInt32} (h : readU32 s = .ok (v, s')) : s = putU32 v ++ s' := by
  obtain ⟨field, hfield, rfl⟩ := map_inv h
  have hlt : leNat field < 2 ^ 32 := by
    have := leNat_lt field
    rwa [(takeBytes_inv hfield).2] at this
  rw [putU32, UInt32.toNat_ofNat', Nat.mod_eq_of_lt hlt]
  exact leBytes_read hfield

theorem readU64_inv {s s' : Bytes} {v : UInt64} (h : readU64 s = .ok (v, s')) : s = putU64 v ++ s' := by
  obtain ⟨field, hfield, rfl⟩ := map_inv h
  have hlt : leNat field < 2 ^ 64 := by
    have := leNat_lt field
    rwa [(takeBytes_inv hfield).2] at this
  rw [putU64, UInt64.toNat_ofNat', Nat.mod_eq_of_lt hlt]
  exact leBytes_read hfield

section Iff

variable {α β : Type} {s s' : Bytes}

theorem readU16_iff {v : UInt16} : readU16 s = .ok (v, s') ↔ s = putU16 v ++ s' := by
  constructor
  · exact readU16_inv
  · rintro rfl
    exact readU16_put v s'

theorem readU32_iff {v : UInt32} : readU32 s = .ok (v, s') ↔ s = putU32 v ++ s' := by
  constructor
  · exact readU32_inv
  · rintro rfl
    exact readU32_put v s'

theorem readU64_iff {v : UInt64} : readU64 s = .ok (v, s') ↔ s = putU64 v ++ s' := by
  constructor
  · exact readU64_inv
  · rintro rfl
    exact readU64_put v s'

theorem takeBytes_iff {n : ℕ} {field : Bytes} :
    takeBytes n s = .ok (field, s') ↔ s = field ++ s' ∧ field.length = n := by
  constructor
  · exact takeBytes_inv
  · rintro ⟨rfl, hn⟩
    exact takeBytes_append field s' n hn

theorem refuseIf_iff {c : Prop} [Decidable c] {message : String} {u : Unit} :
    refuseIf c message s = .ok (u, s') ↔ ¬ c ∧ s = s' := by
  constructor
  · intro h
    obtain ⟨hc, hs⟩ := refuseIf_inv h
    exact ⟨hc, hs.symm⟩
  · rintro ⟨hc, rfl⟩
    exact refuseIf_pass hc message s

theorem remaining_iff {n : ℕ} : remaining s = .ok (n, s') ↔ s.length = n ∧ s = s' := by
  rw [remaining_eq, Except.ok.injEq, Prod.mk.injEq]

theorem get_iff {t : Bytes} : (get : Reader Bytes) s = .ok (t, s') ↔ s = t ∧ s = s' := by
  show Except.ok (s, s) = .ok (t, s') ↔ _
  rw [Except.ok.injEq, Prod.mk.injEq]

theorem pure_iff {a b : α} : (pure a : Reader α) s = .ok (b, s') ↔ a = b ∧ s = s' := by
  show Except.ok (a, s) = .ok (b, s') ↔ _
  rw [Except.ok.injEq, Prod.mk.injEq]

theorem check_iff {result : Except String Unit} {u : Unit} :
    check result s = .ok (u, s') ↔ result = .ok () ∧ s = s' := by
  cases result with
  | error e => exact ⟨fun h => (nomatch h), fun h => (nomatch h.1)⟩
  | ok v =>
    show Except.ok (v, s) = .ok (u, s') ↔ _
    simp only [Except.ok.injEq, Prod.mk.injEq]

theorem bind_iff {m : Reader α} {f : α → Reader β} {p : β × Bytes} :
    (m >>= f) s = .ok p ↔ ∃ a s', m s = .ok (a, s') ∧ f a s' = .ok p := by
  constructor
  · exact bind_inv
  · rintro ⟨a, s', hm, hf⟩
    rw [bind_ok hm, hf]

end Iff

/-- one check in front of a result -/
theorem guard_iff {c : Prop} [Decidable c] {α : Type} {e : String} {rest : Except String α} {a : α} :
    (if c then .error e else rest) = .ok a ↔ ¬ c ∧ rest = .ok a := by
  split_ifs with hc
  · exact ⟨fun h => (nomatch h), fun h => absurd hc h.1⟩
  · exact ⟨fun h => ⟨hc, h⟩, fun h => h.2⟩

/-- a decoder that keeps the value of a reader and drops the rest of the span -/
theorem fst_inv {α : Type} {m : Reader α} {s : Bytes} {a : α} (h : Prod.fst <$> m s = .ok a) :
    ∃ rest, m s = .ok (a, rest) := by
  cases hm : m s with
  | error e => rw [hm] at h; cases h
  | ok p =>
    rw [hm] at h
    obtain rfl := Except.ok.inj h
    exact ⟨p.2, rfl⟩

theorem fst_iff {α : Type} {m : Reader α} {s : Bytes} {a : α} :
    Prod.fst <$> m s = .ok a ↔ ∃ rest, m s = .ok (a, rest) := by
  constructor
  · exact fst_inv
  · rintro ⟨rest, h⟩
    rw [h]
    rfl

/-! ## Reading inside the span -/

/-- the reader ends without a read past the end, and what it leaves satisfies `Q` -/
def Stays {α : Type} (m : Reader α) (Q : α → Bytes → Prop) (s : Bytes) : Prop :=
  match m s with
  | .ok (a, s') => Q a s'
  | .error e => e ≠ outOfBounds

section Stays

variable {α β : Type} {s : Bytes}

theorem stays_pure {Q : α → Bytes → Prop} {a : α} (h : Q a s) : Stays (pure a) Q s := h

theorem stays_bind {m : Reader α} {f : α → Reader β} {Q : β → Bytes → Prop}
    (h : Stays m (fun a s' => Stays (f a) Q s') s) : Stays (m >>= f) Q s := by
  unfold Stays at h ⊢
  cases hm : m s with
  | error e =>
    have hbind : (m >>= f) s = .error e := by
      show (m s >>= fun p => f p.1 p.2) = _
      rw [hm]
      rfl
    rw [hm] at h
    rw [hbind]
    exact h
  | ok p =>
    rw [bind_ok hm]
    rw [hm] at h
    exact h

theorem stays_takeBytes {n : ℕ} {Q : Bytes → Bytes → Prop} (hn : n ≤ s.length)
    (h : ∀ field s', field.length = n → s'.length = s.length - n → Q field s') : Stays (takeBytes n) Q s := by
  unfold Stays takeBytes
  rw [if_neg (not_lt.mpr hn)]
  exact h _ _ (List.length_take_of_le hn) (List.length_drop ..)

theorem stays_remaining {Q : ℕ → Bytes → Prop} (h : Q s.length s) : Stays remaining Q s := h

theorem stays_map {m : Reader α} {f : α → β} {Q : β → Bytes → Prop} (h : Stays m (fun a s' => Q (f a) s') s) :
    Stays (f <$> m) Q s := stays_bind (f := fun a => pure (f a)) h

theorem stays_readU16 {Q : UInt16 → Bytes → Prop} (hn : 2 ≤ s.length)
    (h : ∀ v s', s'.length = s.length - 2 → Q v s') : Stays readU16 Q s :=
  stays_map (stays_takeBytes hn fun _ s' _ hlen => h _ s' hlen)

theorem stays_readU32 {Q : UInt32 → Bytes → Prop} (hn : 4 ≤ s.length)
    (h : ∀ v s', s'.length = s.length - 4 → Q v s') : Stays readU32 Q s :=
  stays_map (stays_takeBytes hn fun _ s' _ hlen => h _ s' hlen)

theorem stays_readU64 {Q : UInt64 → Bytes → Prop} (hn : 8 ≤ s.length)
    (h : ∀ v s', s'.length = s.length - 8 → Q v s') : Stays readU64 Q s :=
  stays_map (stays_takeBytes hn fun _ s' _ hlen => h _ s' hlen)

theorem stays_refuseIf {c : Prop} [Decidable c] {message : String} {Q : Unit → Bytes → Prop}
    (hmessage : message ≠ outOfBounds) (h : ¬ c → Q () s) : Stays (refuseIf c message) Q s := by
  unfold Stays
  by_cases hc : c
  · have hthrow : refuseIf c message s = .error message := by
      simp only [refuseIf, hc, if_true]
      rfl
    rw [hthrow]
    exact hmessage
  · rw [refuseIf_pass hc]
    exact h hc

theorem Stays.inside {m : Reader α} {Q : α → Bytes → Prop} (h : Stays m Q s) : m s ≠ .error outOfBounds := by
  intro he
  unfold Stays at h
  rw [he] at h
  exact h rfl

theorem Stays.fst_inside {m : Reader α} {Q : α → Bytes → Prop} (h : Stays m Q s) :
    Prod.fst <$> m s ≠ .error outOfBounds := by
  intro he
  cases hm : m s with
  | error e =>
    rw [hm] at he
    exact h.inside (hm.trans (congrArg _ (Except.error.inj he)))
  | ok p =>
    rw [hm] at he
    cases he

end Stays

/-! ## CRC-32 -/

/-- one bit of the reflected polynomial division -/
def crcBit (crc : UInt32) : UInt32 := (crc >>> 1) ^^^ (0xEDB88320 &&& (0 - (crc &&& 1)))

def crcByte (crc : UInt32) (byte : UInt8) : UInt32 := Nat.repeat crcBit 8 (crc ^^^ byte.toUInt32)

def crc32 (bytes : Bytes) : UInt32 := ~~~ (bytes.foldl crcByte 0xFFFFFFFF)

/-- the check value of the CRC-32 catalogue, over "123456789" -/
example : crc32 [0x31, 0x32, 0x33, 0x34, 0x35, 0x36, 0x37, 0x38, 0x39] = 0xCBF43926 := by decide +kernel

theorem ok_of_toOption {ε α : Type} {e : Except ε α} {a : α} (h : e.toOption = some a) : e = .ok a := by
  cases e with
  | error m => cases h
  | ok b => exact congrArg Except.ok (Option.some.inj h)

end ViperFx.Protocol
