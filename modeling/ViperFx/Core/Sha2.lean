/-
The hash function SHA-256 of FIPS 180-4 over byte strings.

The words are bit vectors, the constants are what the standard says they are: the first 32 bits of the fractional parts of the
cube roots of the first 64 primes, and of the square roots of the first 8. The message is padded with 0x80, the least number of
zeros and its 64-bit length in bits, and the blocks of the padded message are folded into the state.

`absorb` folds from any state, so that a hash can be taken in pieces.

Results:
  · absorb_congr, absorb_append : a fold depends on the bytes of its blocks, and goes on where another one ended
-/
import Mathlib.Data.List.GetD
import Mathlib.Data.Nat.NthRoot.Defs
import Mathlib.Tactic

namespace ViperFx.Core.Sha2

abbrev Word := BitVec 32

/-! ## Functions and constants -/

def ch (x y z : Word) : Word := (x &&& y) ^^^ (~~~x &&& z)

def maj (x y z : Word) : Word := (x &&& y) ^^^ (x &&& z) ^^^ (y &&& z)

def bigSigma0 (x : Word) : Word := x.rotateRight 2 ^^^ x.rotateRight 13 ^^^ x.rotateRight 22

def bigSigma1 (x : Word) : Word := x.rotateRight 6 ^^^ x.rotateRight 11 ^^^ x.rotateRight 25

def smallSigma0 (x : Word) : Word := x.rotateRight 7 ^^^ x.rotateRight 18 ^^^ (x >>> 3)

def smallSigma1 (x : Word) : Word := x.rotateRight 17 ^^^ x.rotateRight 19 ^^^ (x >>> 10)

/-- the first 64 primes -/
def primes : List ℕ := (List.range 312).filter Nat.Prime

/-- the first 32 bits of the fractional part of the `n`-th root of `p` -/
def rootBits (n p : ℕ) : Word := BitVec.ofNat 32 (Nat.nthRoot n (p * 2 ^ (32 * n)))

def roundConstants : List Word := primes.map (rootBits 3)

/-- the eight working variables -/
structure Work where
  a : Word
  b : Word
  c : Word
  d : Word
  e : Word
  f : Word
  g : Word
  h : Word
  deriving DecidableEq

def Work.words (s : Work) : List Word := [s.a, s.b, s.c, s.d, s.e, s.f, s.g, s.h]

/-- the hash value that the computation begins with -/
def initial : Work :=
  let root i := rootBits 2 (primes.getD i 0)
  ⟨root 0, root 1, root 2, root 3, root 4, root 5, root 6, root 7⟩

/-! ## The compression of a block -/

/-- the message schedule of a block -/
def schedule (block : ℕ → Word) (t : ℕ) : Word :=
  if t < 16 then block t
  else smallSigma1 (schedule block (t - 2)) + schedule block (t - 7) + smallSigma0 (schedule block (t - 15))
    + schedule block (t - 16)
termination_by t

def round (k w : Word) (s : Work) : Work :=
  let t1 := s.h + bigSigma1 s.e + ch s.e s.f s.g + k + w
  let t2 := bigSigma0 s.a + maj s.a s.b s.c
  ⟨t1 + t2, s.a, s.b, s.c, s.d + t1, s.e, s.f, s.g⟩

/-- the working variables after the first rounds -/
def rounds (block : ℕ → Word) (s : Work) : ℕ → Work
  | 0 => s
  | t + 1 => round (roundConstants.getD t 0) (schedule block t) (rounds block s t)

def compress (block : ℕ → Word) (s : Work) : Work :=
  let t := rounds block s 64
  ⟨s.a + t.a, s.b + t.b, s.c + t.c, s.d + t.d, s.e + t.e, s.f + t.f, s.g + t.g, s.h + t.h⟩

/-! ## The message -/

/-- the low bytes of a number, the most significant first -/
def bigEndian (count n : ℕ) : List UInt8 := (List.range count).map fun i => UInt8.ofNat (n / 256 ^ (count - 1 - i))

/-- how many zeros are between 0x80 and the length -/
def zeros (length : ℕ) : ℕ := (119 - length % 64) % 64

def pad (message : List UInt8) : List UInt8 :=
  message ++ 0x80 :: List.replicate (zeros message.length) 0 ++ bigEndian 8 (8 * message.length)

/-- the word that begins at a place of a message -/
def wordAt (message : List UInt8) (i : ℕ) : Word :=
  (message.getD i 0).toBitVec ++ (message.getD (i + 1) 0).toBitVec ++ (message.getD (i + 2) 0).toBitVec
    ++ (message.getD (i + 3) 0).toBitVec

/-- the words of a block of a message -/
def block (message : List UInt8) (i t : ℕ) : Word := wordAt message (64 * i + 4 * t)

/-- the first blocks of a message are folded into a state -/
def absorb (message : List UInt8) (s : Work) : ℕ → Work
  | 0 => s
  | n + 1 => compress (block message n) (absorb message s n)

def sha256 (message : List UInt8) : List UInt8 :=
  let padded := pad message
  (absorb padded initial (padded.length / 64)).words.flatMap fun w => bigEndian 4 w.toNat

/-- the digits of a byte string in base 16, in lower case -/
def hex (bytes : List UInt8) : List Char := bytes.flatMap fun b => [Nat.digitChar (b.toNat / 16), Nat.digitChar (b.toNat % 16)]

/-! ## Blocks -/

theorem schedule_lt (w : ℕ → Word) {t : ℕ} (ht : t < 16) : schedule w t = w t := by
  rw [schedule, if_pos ht]

theorem schedule_ge (w : ℕ → Word) {t : ℕ} (ht : 16 ≤ t) :
    schedule w t = smallSigma1 (schedule w (t - 2)) + schedule w (t - 7) + smallSigma0 (schedule w (t - 15))
      + schedule w (t - 16) := by
  rw [schedule, if_neg (Nat.not_lt.mpr ht)]

/-- the schedule depends on the sixteen words of the block -/
theorem schedule_congr {w w' : ℕ → Word} (h : ∀ t < 16, w t = w' t) (t : ℕ) : schedule w t = schedule w' t := by
  induction t using Nat.strong_induction_on with
  | _ t ih =>
    rcases Nat.lt_or_ge t 16 with ht | ht
    · rw [schedule_lt w ht, schedule_lt w' ht, h t ht]
    · rw [schedule_ge w ht, schedule_ge w' ht, ih (t - 2) (by omega), ih (t - 7) (by omega), ih (t - 15) (by omega),
        ih (t - 16) (by omega)]

theorem rounds_congr {w w' : ℕ → Word} (h : ∀ t < 16, w t = w' t) (s : Work) (n : ℕ) : rounds w s n = rounds w' s n := by
  induction n with
  | zero => rfl
  | succ n ih => rw [rounds, rounds, ih, schedule_congr h]

theorem compress_congr {w w' : ℕ → Word} (h : ∀ t < 16, w t = w' t) (s : Work) : compress w s = compress w' s := by
  unfold compress
  rw [rounds_congr h]

/-- a word is four bytes -/
theorem wordAt_congr {message message' : List UInt8} {i i' : ℕ} (h : ∀ j < 4, message.getD (i + j) 0 = message'.getD (i' + j) 0) :
    wordAt message i = wordAt message' i' := by
  unfold wordAt
  rw [h 1 (by omega), h 2 (by omega), h 3 (by omega)]
  have hzero : message.getD i 0 = message'.getD i' 0 := h 0 (by omega)
  rw [hzero]

/-- the fold depends on the bytes of its blocks -/
theorem absorb_congr {message message' : List UInt8} {n : ℕ} (h : ∀ i < 64 * n, message.getD i 0 = message'.getD i 0) (s : Work) :
    absorb message s n = absorb message' s n := by
  induction n with
  | zero => rfl
  | succ n ih =>
    rw [absorb, absorb, ih fun i hi => h i (by omega)]
    refine compress_congr (fun t ht => ?_) _
    exact wordAt_congr fun j hj => h _ (by omega)

/-- **A hash in pieces.** The blocks behind whole blocks are folded into what those have led to. -/
theorem absorb_append {front : List UInt8} {m : ℕ} (hfront : front.length = 64 * m) (back : List UInt8) (s : Work) (n : ℕ) :
    absorb (front ++ back) s (m + n) = absorb back (absorb front s m) n := by
  induction n with
  | zero =>
    refine absorb_congr (fun i hi => ?_) s
    exact List.getD_append front back 0 i (by omega)
  | succ n ih =>
    rw [← Nat.add_assoc, absorb, absorb, ih]
    refine compress_congr (fun t ht => ?_) _
    refine wordAt_congr fun j hj => ?_
    rw [List.getD_append_right front back 0 _ (by omega)]
    congr 1
    omega

end ViperFx.Core.Sha2
