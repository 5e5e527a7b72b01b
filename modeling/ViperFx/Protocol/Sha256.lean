/-
The digest of `tools/Sha256.cpp` is SHA-256.

`Transform` and the loop of `Sha256` work on machine words and an array that is filled in place; the standard (`Core.Sha2`) is
said of bit vectors and of the padded message as a whole. The bridge goes up from the word to the block, and from the block to
the message, whose last one or two blocks the code puts together by itself.

Results:
  · transform_work  : a block is compressed as in the standard
  · digest_standard : the digest of every message, and its hexadecimal form, are those of the standard, and the hash of every
                      device key is one that the snapshot schema and the store take
-/
import ViperFx.Core.Sha2
import ViperFx.Daemon.SnapshotStore

namespace ViperFx.Protocol.Sha256

open ViperFx.Core ViperFx.Daemon

/-! ## Words -/

theorem rotateRight_toBitVec (value : UInt32) {amount : UInt32} (hpos : 0 < amount.toNat) (hlt : amount.toNat < 32) :
    (rotateRight value amount).toBitVec = value.toBitVec.rotateRight amount.toNat := by
  have hback : (32 - amount).toNat = 32 - amount.toNat := by
    rw [UInt32.toNat_sub_of_le _ _ (UInt32.le_of_lt hlt)]
    rfl
  have hright : (value >>> amount).toBitVec = value.toBitVec >>> amount.toNat := by
    rw [UInt32.toBitVec_shiftRight]
    show value.toBitVec >>> (amount.toBitVec % 32).toNat = _
    rw [BitVec.toNat_umod]
    show value.toBitVec >>> (amount.toNat % 32) = _
    rw [Nat.mod_eq_of_lt hlt]
  have hleft : (value <<< (32 - amount)).toBitVec = value.toBitVec <<< (32 - amount.toNat) := by
    rw [UInt32.toBitVec_shiftLeft]
    show value.toBitVec <<< ((32 - amount).toBitVec % 32).toNat = _
    rw [BitVec.toNat_umod]
    show value.toBitVec <<< ((32 - amount).toNat % 32) = _
    rw [hback, Nat.mod_eq_of_lt (by omega)]
  rw [rotateRight, UInt32.toBitVec_or, hright, hleft, BitVec.rotateRight_def, Nat.mod_eq_of_lt hlt]

theorem blockWord_toBitVec (block : Bytes) (t : ℕ) : (blockWord block t).toBitVec = Sha2.wordAt block (4 * t) := by
  unfold blockWord Sha2.wordAt
  rw [Nat.mul_comm t 4]
  generalize block.getD (4 * t) 0 = b0
  generalize block.getD (4 * t + 1) 0 = b1
  generalize block.getD (4 * t + 2) 0 = b2
  generalize block.getD (4 * t + 3) 0 = b3
  refine BitVec.eq_of_getLsbD_eq fun i hi => ?_
  have hbytes : BitVec.getLsbD (b0.toBitVec ++ b1.toBitVec ++ b2.toBitVec ++ b3.toBitVec) i =
      if i < 8 then b3.toBitVec.getLsbD i else if i - 8 < 8 then b2.toBitVec.getLsbD (i - 8)
      else if i - 8 - 8 < 8 then b1.toBitVec.getLsbD (i - 8 - 8) else b0.toBitVec.getLsbD (i - 8 - 8 - 8) := by
    simp only [BitVec.getLsbD_append]
  refine Eq.trans ?_ hbytes.symm
  interval_cases i <;> simp

theorem smallSigma0_toBitVec (x : UInt32) :
    (rotateRight x 7 ^^^ rotateRight x 18 ^^^ (x >>> 3)).toBitVec = Sha2.smallSigma0 x.toBitVec := by
  rw [UInt32.toBitVec_xor, UInt32.toBitVec_xor, rotateRight_toBitVec x (by decide) (by decide),
    rotateRight_toBitVec x (by decide) (by decide), UInt32.toBitVec_shiftRight]
  rfl

theorem smallSigma1_toBitVec (x : UInt32) :
    (rotateRight x 17 ^^^ rotateRight x 19 ^^^ (x >>> 10)).toBitVec = Sha2.smallSigma1 x.toBitVec := by
  rw [UInt32.toBitVec_xor, UInt32.toBitVec_xor, rotateRight_toBitVec x (by decide) (by decide),
    rotateRight_toBitVec x (by decide) (by decide), UInt32.toBitVec_shiftRight]
  rfl

theorem bigSigma0_toBitVec (x : UInt32) :
    (rotateRight x 2 ^^^ rotateRight x 13 ^^^ rotateRight x 22).toBitVec = Sha2.bigSigma0 x.toBitVec := by
  rw [UInt32.toBitVec_xor, UInt32.toBitVec_xor, rotateRight_toBitVec x (by decide) (by decide),
    rotateRight_toBitVec x (by decide) (by decide), rotateRight_toBitVec x (by decide) (by decide)]
  rfl

theorem bigSigma1_toBitVec (x : UInt32) :
    (rotateRight x 6 ^^^ rotateRight x 11 ^^^ rotateRight x 25).toBitVec = Sha2.bigSigma1 x.toBitVec := by
  rw [UInt32.toBitVec_xor, UInt32.toBitVec_xor, rotateRight_toBitVec x (by decide) (by decide),
    rotateRight_toBitVec x (by decide) (by decide), rotateRight_toBitVec x (by decide) (by decide)]
  rfl

/-- the working words of the code as those of the standard -/
def St.work (s : St) : Sha2.Work :=
  ⟨s.a.toBitVec, s.b.toBitVec, s.c.toBitVec, s.d.toBitVec, s.e.toBitVec, s.f.toBitVec, s.g.toBitVec, s.h.toBitVec⟩

/-! ## A block -/

/-- the words so far are those of the schedule -/
def Scheduled (w : ℕ → Sha2.Word) (words : List UInt32) (n : ℕ) : Prop :=
  words.length = n ∧ ∀ t < n, (words.getD t 0).toBitVec = Sha2.schedule w t

theorem Scheduled.word {words : List UInt32} {w : ℕ → Sha2.Word} {n : ℕ} (h : Scheduled w words n) (hn : 16 ≤ n) :
    Scheduled w (scheduleWord words n) (n + 1) := by
  obtain ⟨hlength, hwords⟩ := h
  unfold scheduleWord
  refine ⟨by simp [hlength], fun t ht => ?_⟩
  rcases Nat.lt_succ_iff_lt_or_eq.mp ht with hlt | rfl
  · rw [List.getD_append _ _ _ _ (hlength ▸ hlt)]
    exact hwords t hlt
  · rw [List.getD_append_right _ _ _ _ hlength.le, hlength, Nat.sub_self, List.getD_cons_zero, Sha2.schedule_ge w hn]
    simp only [UInt32.toBitVec_add, smallSigma0_toBitVec, smallSigma1_toBitVec]
    rw [hwords (t - 2) (by omega), hwords (t - 7) (by omega), hwords (t - 15) (by omega), hwords (t - 16) (by omega)]
    ac_rfl

theorem schedule_scheduled (block : Bytes) : Scheduled (fun t => Sha2.wordAt block (4 * t)) (schedule block) 64 := by
  have hrun : ∀ n, Scheduled (fun t => Sha2.wordAt block (4 * t))
      ((List.range' 16 n).foldl scheduleWord ((List.range 16).map (blockWord block))) (16 + n) := by
    intro n
    induction n with
    | zero =>
      refine ⟨by simp, fun t ht => ?_⟩
      rw [Sha2.schedule_lt _ ht, ← blockWord_toBitVec]
      simp [List.getD_eq_getElem?_getD, List.getElem?_range ht]
    | succ n ih =>
      rw [List.range'_concat, List.foldl_append, Nat.one_mul]
      exact ih.word (Nat.le_add_right 16 n)
  exact hrun 48

/-- the constants of the code are those of the standard -/
theorem kRound_standard : kRound.map UInt32.toBitVec = Sha2.roundConstants := by decide +kernel

theorem init_standard : init.work = Sha2.initial := by decide +kernel

theorem mixRound_work (s : St) (k w : UInt32) : (mixRound s (k, w)).work = Sha2.round k.toBitVec w.toBitVec s.work := by
  have hch : ((s.e &&& s.f) ^^^ (~~~ s.e &&& s.g)).toBitVec = Sha2.ch s.e.toBitVec s.f.toBitVec s.g.toBitVec := by
    simp only [UInt32.toBitVec_xor, UInt32.toBitVec_and, UInt32.toBitVec_not, Sha2.ch]
  have hmaj : ((s.a &&& s.b) ^^^ (s.a &&& s.c) ^^^ (s.b &&& s.c)).toBitVec =
      Sha2.maj s.a.toBitVec s.b.toBitVec s.c.toBitVec := by
    simp only [UInt32.toBitVec_xor, UInt32.toBitVec_and, Sha2.maj]
  simp only [mixRound, St.work, Sha2.round, UInt32.toBitVec_add, bigSigma0_toBitVec, bigSigma1_toBitVec, hch, hmaj]

/-- the rounds of the code, taken in order, are those of the standard -/
theorem rounds_work {words : List UInt32} {w : ℕ → Sha2.Word} (h : Scheduled w words 64) (s : St) :
    ((kRound.zip words).foldl mixRound s).work = Sha2.rounds w s.work 64 := by
  have hzip : kRound.zip words = (List.range 64).map fun t => (kRound.getD t 0, words.getD t 0) := by
    refine List.ext_getElem (by simp [h.1, kRound]) fun t ht ht' => ?_
    have hlt : t < 64 := by simpa using ht'
    have hk : t < kRound.length := hlt
    have hw : t < words.length := h.1 ▸ hlt
    simp [List.getElem?_eq_getElem hk, List.getElem?_eq_getElem hw]
  have hconstant : ∀ t < 64, (kRound.getD t 0).toBitVec = Sha2.roundConstants.getD t 0 := by
    intro t ht
    have hk : t < kRound.length := ht
    rw [← kRound_standard]
    simp [List.getElem?_eq_getElem hk]
  have hrun : ∀ n ≤ 64, (((List.range n).map fun t => (kRound.getD t 0, words.getD t 0)).foldl mixRound s).work =
      Sha2.rounds w s.work n := by
    intro n hn
    induction n with
    | zero => rfl
    | succ n ih =>
      rw [List.range_succ, List.map_append, List.foldl_append, Sha2.rounds, ← ih (by omega), ← hconstant n hn, ← h.2 n hn]
      exact mixRound_work _ _ _
  rw [hzip]
  exact hrun 64 le_rfl

/-- **A block is compressed as in the standard.** -/
theorem transform_work (block : Bytes) (s : St) :
    (transform block s).work = Sha2.compress (fun t => Sha2.wordAt block (4 * t)) s.work := by
  have hrounds := rounds_work (schedule_scheduled block) s
  unfold Sha2.compress
  rw [← hrounds]
  simp only [transform, St.work, UInt32.toBitVec_add]

theorem transform_absorb (block : Bytes) (s : St) : (transform block s).work = Sha2.absorb block s.work 1 := by
  refine (transform_work block s).trans (Sha2.compress_congr (fun t _ => ?_) _)
  rw [Sha2.block, Nat.mul_zero, Nat.zero_add]

/-! ## The message -/

theorem reverse_leBytes (count n : ℕ) : (leBytes count n).reverse = Sha2.bigEndian count n := by
  induction count generalizing n with
  | zero => rfl
  | succ count ih =>
    have hhigh : Sha2.bigEndian count (n / 256) = (List.range count).map fun i => UInt8.ofNat (n / 256 ^ (count + 1 - 1 - i)) := by
      refine List.map_congr_left fun i hi => ?_
      have hlt : i < count := List.mem_range.mp hi
      have hplace : count + 1 - 1 - i = (count - 1 - i) + 1 := by omega
      rw [hplace, pow_succ', Nat.div_div_eq_div_mul]
    rw [leBytes, List.reverse_cons, ih, hhigh, Sha2.bigEndian, List.range_succ, List.map_append]
    simp

/-- the whole blocks of the message are folded into the state -/
theorem absorb_work (n : ℕ) (data : Bytes) (s : St) (h : 64 * n ≤ data.length) :
    (absorb n data s).1 = data.drop (64 * n) ∧ (absorb n data s).2.work = Sha2.absorb data s.work n := by
  induction n generalizing data s with
  | zero => exact ⟨rfl, rfl⟩
  | succ n ih =>
    obtain ⟨hrest, hwork⟩ := ih (data.drop 64) (transform (data.take 64) s) (by rw [List.length_drop]; omega)
    have hfront : (data.take 64).length = 64 * 1 := by
      rw [List.length_take]
      omega
    rw [absorb, if_pos (by omega)]
    refine ⟨?_, ?_⟩
    · rw [hrest, List.drop_drop]
      congr 1
      omega
    · have happend := Sha2.absorb_append hfront (data.drop 64) s.work n
      rw [List.take_append_drop, ← transform_absorb, Nat.add_comm 1 n] at happend
      rw [hwork, happend]

theorem tail_length (remaining : Bytes) (size : ℕ) (h : remaining.length < 64) :
    (tail remaining size).length = if remaining.length < 56 then 64 else 128 := by
  unfold tail
  split_ifs <;> simp <;> omega

/-- the last blocks of the code are those of the padded message -/
theorem pad_tail (data : Bytes) :
    Sha2.pad data = data.take (64 * (data.length / 64)) ++ tail (data.drop (64 * (data.length / 64))) data.length := by
  have hzeros : Sha2.zeros data.length = (if data.length - 64 * (data.length / 64) < 56 then 64 else 128)
      - (data.length - 64 * (data.length / 64)) - 9 := by
    unfold Sha2.zeros
    split_ifs <;> omega
  unfold Sha2.pad tail
  dsimp only
  rw [List.length_drop, ← hzeros, reverse_leBytes, Nat.mul_comm data.length 8]
  simp only [← List.append_assoc, List.take_append_drop]
  simp

/-- the last one or two blocks -/
theorem tail_work {pad : Bytes} (hlength : pad.length = 64 ∨ pad.length = 128) (s : St) :
    (if pad.length = 128 then transform (pad.drop 64) (transform (pad.take 64) s) else transform (pad.take 64) s).work =
      Sha2.absorb pad s.work (pad.length / 64) := by
  rcases hlength with hone | htwo
  · rw [if_neg (by omega), hone, List.take_of_length_le hone.le]
    exact transform_absorb pad s
  · have hfront : (pad.take 64).length = 64 * 1 := by
      rw [List.length_take]
      omega
    have happend := Sha2.absorb_append hfront (pad.drop 64) s.work 1
    rw [List.take_append_drop] at happend
    rw [if_pos htwo, htwo, transform_absorb, transform_absorb]
    exact happend.symm

/-- the words of the state are written most significant byte first -/
theorem digest_words (s : St) :
    [s.a, s.b, s.c, s.d, s.e, s.f, s.g, s.h].flatMap wordBytes = s.work.words.flatMap fun w => Sha2.bigEndian 4 w.toNat := by
  have hword (w : UInt32) : wordBytes w = Sha2.bigEndian 4 w.toBitVec.toNat := reverse_leBytes 4 w.toNat
  simp only [Sha2.Work.words, St.work, List.flatMap_cons, List.flatMap_nil, hword]

theorem digest_eq (data : Bytes) : digest data = Sha2.sha256 data := by
  obtain ⟨hremaining, hwork⟩ := absorb_work (data.length / 64) data init (Nat.mul_div_le _ _)
  have hfront : (data.take (64 * (data.length / 64))).length = 64 * (data.length / 64) := by
    rw [List.length_take]
    omega
  have htail : (tail (data.drop (64 * (data.length / 64))) data.length).length = 64 ∨
      (tail (data.drop (64 * (data.length / 64))) data.length).length = 128 := by
    rw [tail_length _ _ (by rw [List.length_drop]; omega)]
    split_ifs
    · exact .inl rfl
    · exact .inr rfl
  have hblocks : (Sha2.pad data).length / 64 =
      data.length / 64 + (tail (data.drop (64 * (data.length / 64))) data.length).length / 64 := by
    rw [pad_tail, List.length_append, hfront]
    omega
  -- what the whole blocks have led to depends on them only
  have hwhole : Sha2.absorb data init.work (data.length / 64) =
      Sha2.absorb (data.take (64 * (data.length / 64))) init.work (data.length / 64) := by
    have happend := Sha2.absorb_append hfront (data.drop (64 * (data.length / 64))) init.work 0
    rwa [List.take_append_drop] at happend
  have hstate := Sha2.absorb_append hfront (tail (data.drop (64 * (data.length / 64))) data.length) init.work
    ((tail (data.drop (64 * (data.length / 64))) data.length).length / 64)
  rw [← pad_tail, ← hblocks, ← hwhole, ← hwork, ← tail_work htail, init_standard] at hstate
  unfold Sha2.sha256
  dsimp only
  rw [hstate]
  unfold digest
  rw [show absorb (data.length / 64) data init = ((absorb (data.length / 64) data init).1, (absorb (data.length / 64) data init).2)
    from rfl, hremaining]
  exact digest_words _

/-- a half byte is printed as the digit of its value -/
theorem hexDigit_digitChar {n : ℕ} (hn : n < 16) : hexDigit n = UInt8.ofNat (Nat.digitChar n).toNat := by
  interval_cases n <;> rfl

theorem digestHex_eq (data : Bytes) : digestHex data = ascii (Sha2.hex (Sha2.sha256 data)) := by
  unfold digestHex ascii Sha2.hex
  rw [digest_eq, List.map_flatMap]
  refine List.flatMap_congr fun b _ => ?_
  have hhigh := hexDigit_digitChar (Nat.div_lt_of_lt_mul b.toNat_lt : b.toNat / 16 < 16)
  have hlow := hexDigit_digitChar (Nat.mod_lt b.toNat (by decide : 0 < 16))
  rw [hhigh, hlow]
  rfl

/-- a hash in hexadecimal is what the schema and the store take for one -/
theorem digestHex_safe (data : Bytes) : isLowerHex64 (digestHex data) = true ∧ isSafeDeviceHash (digestHex data) = true := by
  have hdigits : ∀ b ∈ digestHex data, (48 ≤ b ∧ b ≤ 57) ∨ (97 ≤ b ∧ b ≤ 102) := by
    intro b hb
    obtain ⟨c, _, hc⟩ := List.mem_flatMap.mp hb
    rcases List.mem_pair.mp hc with rfl | rfl
    · exact hexDigit_range _ (Nat.div_lt_of_lt_mul c.toNat_lt)
    · exact hexDigit_range _ (Nat.mod_lt _ (by decide))
  have hlength : ((digestHex data).length == 64) = true := beq_iff_eq.mpr (digestHex_length data)
  have hxdigits : (digestHex data).all isXDigit = true := by
    refine List.all_eq_true.mpr fun b hb => ?_
    rcases hdigits b hb with h | h <;> simp [isXDigit, h]
  have hlower : (digestHex data).all (fun b => (48 ≤ b && b ≤ 57) || (97 ≤ b && b ≤ 122)) = true := by
    refine List.all_eq_true.mpr fun b hb => ?_
    rcases hdigits b hb with h | h
    · simp [h]
    · simp [h.1, UInt8.le_trans h.2 (by decide : (102 : UInt8) ≤ 122)]
  have hsafe : (digestHex data).all (fun b => (48 ≤ b && b ≤ 57) || (97 ≤ b && b ≤ 102)) = true := by
    refine List.all_eq_true.mpr fun b hb => ?_
    simpa using hdigits b hb
  constructor
  · unfold isLowerHex64 isHex64
    rw [hlength, hxdigits, hlower]
    rfl
  · unfold isSafeDeviceHash
    rw [hlength, hsafe]
    rfl

/-- **The digest is SHA-256.** It is that of the standard on every message, the bit length taken in 64 bits; its hexadecimal
form has 64 digits in lower case. The hash of a device key satisfies the checks of the schema and of the store whenever the
key is not empty. -/
theorem digest_standard (data : Bytes) :
    digest data = Sha2.sha256 data ∧ digestHex data = ascii (Sha2.hex (Sha2.sha256 data)) ∧ (digestHex data).length = 64 ∧
      isLowerHex64 (hashDeviceKey data) = !data.isEmpty ∧ isSafeDeviceHash (hashDeviceKey data) = !data.isEmpty := by
  refine ⟨digest_eq data, digestHex_eq data, digestHex_length data, ?_⟩
  unfold hashDeviceKey hashDeviceKeyWith
  cases hempty : data.isEmpty with
  | true => exact ⟨rfl, rfl⟩
  | false => exact digestHex_safe data

end ViperFx.Protocol.Sha256
