import OpenSSLWasm.AesSimd.Basic
import OpenSSLWasm.Lib.Rijndael
import Mathlib.Tactic.FinCases

/-!
# SIMD AES computes the FIPS 197 cipher

Lane `r + 4 c` of a vector is byte `r, c` of the AES state. Under this reading every layer of
`aes_simd.c` is the transformation of FIPS 197 of the same name, and a round key loaded from an
`AES_KEY` holds the big-endian bytes of four columns of the key schedule.

## Main definitions

* `toState` and `ofState`: a vector as an AES state, and back;
* `AESKey.roundKey`: the round keys that FIPS 197 takes from the columns of the schedule.

## Main results

* `toState_aesEncryptSimd` and `toState_aesDecryptSimd`: the SIMD block functions are the cipher
  and the equivalent inverse cipher;
* `wrapAESEncrypt_spec`: what the function that replaces `AES_encrypt` computes.
-/

namespace OpenSSLWasm.AesSimd

open BinaryField Rijndael

/-- The lane of the byte in row `r` and column `c`. -/
def lane (r c : Fin 4) : Fin 16 := ⟨r + 4 * c, by omega⟩

/-- The AES state that a vector holds. -/
def toState (v : V128) : State := fun r c => byte (v (lane r c))

/-- The vector that holds an AES state. -/
def ofState (s : State) : V128 := fun i =>
  (s ⟨i % 4, Nat.mod_lt _ (by decide)⟩ ⟨i / 4, by omega⟩).bits

theorem ofState_toState (v : V128) : ofState (toState v) = v := by
  funext i
  refine congrArg v (Fin.ext ?_)
  simp only [lane]
  omega

theorem toState_injective : Function.Injective toState :=
  Function.LeftInverse.injective ofState_toState

/-! ## The layers -/

/-- `v128_xor` adds states; with a round key as its operand it is AddRoundKey. -/
theorem toState_v128Xor (a b : V128) : toState (v128Xor a b) = addRoundKey (toState a) (toState b) :=
  rfl

/-- A check of every entry of a table against its index, in one pass, holds at each index. -/
theorem get_of_all_zipIdx {α : Type*} {n : ℕ} {table : Vector α n} {check : α × ℕ → Bool}
    (h : table.toList.zipIdx.all check = true) (i : Fin n) : check (table.get i, i) = true := by
  rw [List.all_eq_true] at h
  apply h
  rw [List.mk_mem_zipIdx_iff_getElem?]
  simp [Vector.get]

/-- Each entry of the S-box table is the FIPS 197 value: undoing the affine map of the entry gives
the inverse of the index. -/
theorem aesSbox_get (b : BitVec 8) : byte (aesSbox.get b.toFin) = sbox (byte b) := by
  have hall : aesSbox.toList.zipIdx.all (fun x =>
      decide (byte (BitVec.ofNat 8 x.2) * invAffine (byte x.1) = 1 ∨ x.2 = 0)) = true := by
    decide +kernel
  have hb := of_decide_eq_true (get_of_all_zipIdx hall b.toFin)
  rcases hb with hb | hb
  · apply eq_sbox_of_mul_invAffine
    simpa using hb
  · -- zero has no inverse, and goes to the constant of the affine map
    obtain rfl : b = 0 := BitVec.eq_of_toNat_eq hb
    decide +kernel

/-- Each entry of the inverse S-box table is the FIPS 197 value: it is inverse to the index with
the affine map undone. -/
theorem aesInvSbox_get (b : BitVec 8) : byte (aesInvSbox.get b.toFin) = invSbox (byte b) := by
  have hall : aesInvSbox.toList.zipIdx.all (fun x =>
      decide (invAffine (byte (BitVec.ofNat 8 x.2)) * byte x.1 = 1 ∨ x.2 = 0x63)) = true := by
    decide +kernel
  have hb := of_decide_eq_true (get_of_all_zipIdx hall b.toFin)
  rcases hb with hb | hb
  · apply eq_inv_of_mul_eq_one_right
    simpa using hb
  · -- the constant of the affine map comes from zero
    obtain rfl : b = 0x63 := BitVec.eq_of_toNat_eq hb
    decide +kernel

theorem toState_aesSubBytes (v : V128) : toState (aesSubBytes v) = subBytes (toState v) :=
  Matrix.ext fun r c => aesSbox_get (v (lane r c))

theorem toState_aesInvSubBytes (v : V128) : toState (aesInvSubBytes v) = invSubBytes (toState v) :=
  Matrix.ext fun r c => aesInvSbox_get (v (lane r c))

theorem toState_aesShiftRows (v : V128) : toState (aesShiftRows v) = shiftRows (toState v) := by
  refine Matrix.ext fun r c => ?_
  fin_cases r <;> fin_cases c <;> rfl

theorem toState_aesInvShiftRows (v : V128) :
    toState (aesInvShiftRows v) = invShiftRows (toState v) := by
  refine Matrix.ext fun r c => ?_
  fin_cases r <;> fin_cases c <;> rfl

/-- Rotating the columns moves every row up. -/
theorem toState_rotCol1 (v : V128) (r c : Fin 4) : toState (rotCol1 v) r c = toState v (r + 1) c := by
  fin_cases r <;> fin_cases c <;> rfl

theorem toState_rotCol2 (v : V128) (r c : Fin 4) : toState (rotCol2 v) r c = toState v (r + 2) c := by
  fin_cases r <;> fin_cases c <;> rfl

theorem toState_rotCol3 (v : V128) (r c : Fin 4) : toState (rotCol3 v) r c = toState v (r + 3) c := by
  fin_cases r <;> fin_cases c <;> rfl

/-- A lane exceeds `0x7f` when its top bit is set, so the comparison selects the reduction. -/
theorem aesXtime_lane (v : V128) (i : Fin 16) : byte (aesXtime v i) = byte 0x02 * byte (v i) := by
  have hlane : ∀ b : BitVec 8,
      b <<< 1 ^^^ ((if 0x7f < b then 0xff else 0x00) &&& 0x1b) = (byte b).xtime.bits := by
    decide +kernel
  rw [show byte 0x02 = Residue.X (0x1b : BitVec 8) from rfl, Residue.X_mul]
  exact congrArg byte (hlane (v i))

theorem toState_aesXtime (v : V128) (r c : Fin 4) :
    toState (aesXtime v) r c = byte 0x02 * toState v r c :=
  aesXtime_lane v (lane r c)

/-- One row of MixColumns, as the code adds it up. -/
theorem toState_aesMixColumns_apply (v : V128) (r c : Fin 4) :
    toState (aesMixColumns v) r c =
      byte 0x02 * toState v r c + byte 0x03 * toState v (r + 1) c + toState v (r + 2) c +
        toState v (r + 3) c := by
  -- the code adds `{03}` times a byte as its double and the byte itself
  have hthree : byte 0x03 = byte 0x02 + 1 := by decide
  calc toState (aesMixColumns v) r c
      = toState (aesXtime v) r c + toState (rotCol1 (aesXtime v)) r c + toState (rotCol1 v) r c +
          toState (rotCol2 v) r c + toState (rotCol3 v) r c := rfl
    _ = _ := by
      rw [toState_rotCol1, toState_rotCol1, toState_rotCol2, toState_rotCol3, toState_aesXtime,
        toState_aesXtime, hthree]
      ring

theorem toState_aesMixColumns (v : V128) : toState (aesMixColumns v) = mixColumns (toState v) := by
  have hone : byte 1#8 = 1 := rfl
  refine Matrix.ext fun r c => ?_
  rw [toState_aesMixColumns_apply, mixColumns, Matrix.mul_apply, Fin.sum_univ_four]
  fin_cases r <;> simp [mixMatrix, hone] <;> ring

/-- One row of InvMixColumns, as the code adds it up. -/
theorem toState_aesInvMixColumns_apply (v : V128) (r c : Fin 4) :
    toState (aesInvMixColumns v) r c =
      toState (aesMixColumns v) r c +
        (byte 0x08 * (toState v r c + toState v (r + 1) c + toState v (r + 2) c +
            toState v (r + 3) c) +
          byte 0x04 * (toState v r c + toState v (r + 2) c)) := by
  have hfour : byte 0x04 = byte 0x02 * byte 0x02 := by decide +kernel
  have height : byte 0x08 = byte 0x02 * (byte 0x02 * byte 0x02) := by decide +kernel
  rw [hfour, height, mul_assoc, mul_assoc, mul_assoc, ← toState_rotCol1, ← toState_rotCol2,
    ← toState_rotCol3]
  calc toState (aesInvMixColumns v) r c
      = toState (aesMixColumns v) r c +
          (toState (aesXtime (aesXtime (aesXtime
              (v128Xor (v128Xor (v128Xor v (rotCol1 v)) (rotCol2 v)) (rotCol3 v))))) r c +
            toState (aesXtime (aesXtime (v128Xor v (rotCol2 v)))) r c) := rfl
    _ = _ := by
      simp only [toState_aesXtime]
      rfl

theorem toState_aesInvMixColumns (v : V128) :
    toState (aesInvMixColumns v) = invMixColumns (toState v) := by
  -- the entries of the inverse matrix, less those of the forward one, are sums of `{08}` and `{04}`
  have h09 : byte 9#8 = byte 8#8 + 1 := rfl
  have h0b : byte 11#8 = byte 8#8 + byte 3#8 := rfl
  have h0d : byte 13#8 = byte 8#8 + byte 4#8 + 1 := rfl
  have h0e : byte 14#8 = byte 8#8 + byte 4#8 + byte 2#8 := rfl
  refine Matrix.ext fun r c => ?_
  rw [toState_aesInvMixColumns_apply, toState_aesMixColumns_apply, invMixColumns, Matrix.mul_apply,
    Fin.sum_univ_four]
  fin_cases r <;> simp [invMixMatrix, h09, h0b, h0d, h0e] <;> ring

/-! ## The round keys -/

/-- Round key `i` of FIPS 197: its column `c` is column `4 i + c` of the schedule, with the most
significant byte in row 0. -/
def AESKey.roundKey (key : AESKey) (i : ℕ) : State := fun r c =>
  byte ((key.rdKey.getD (4 * i + c) 0).extractLsb' (24 - 8 * r) 8)

/-- The key pointer after `i` steps. -/
theorem nextKey_iterate (rk : ℕ → BitVec 8) (i j : ℕ) : nextKey^[i] rk j = rk (j + 16 * i) := by
  induction i generalizing j with
  | zero => rfl
  | succ i ih =>
    rw [Function.iterate_succ_apply', nextKey, ih]
    congr 1
    ring

theorem toState_loadRoundKey_apply (rk : ℕ → BitVec 8) (r c : Fin 4) :
    toState (loadRoundKey rk) r c = byte (rk (4 * c + (3 - r))) := by
  fin_cases r <;> fin_cases c <;> rfl

/-- Byte `3 - r` of a little-endian column is byte `r` of the big-endian one. -/
theorem toState_loadRoundKey (key : AESKey) (i : ℕ) :
    toState (loadRoundKey (nextKey^[i] key.bytes)) = key.roundKey i := by
  refine Matrix.ext fun r c => ?_
  -- sixteen bytes to a round key, four to a column
  have hcol : (4 * (c : ℕ) + (3 - r) + 16 * i) / 4 = 4 * i + c := by omega
  have hbyte : 8 * ((4 * (c : ℕ) + (3 - r) + 16 * i) % 4) = 24 - 8 * r := by omega
  rw [toState_loadRoundKey_apply, nextKey_iterate, AESKey.bytes, hcol, hbyte, AESKey.roundKey]

/-! ## The block functions -/

/-- After `k` iterations of the encryption loop the key pointer is at round key `k + 1` and the
state is that of the cipher after `k` full rounds. -/
theorem encryptRound_iterate (input : V128) (key : AESKey) (k : ℕ) :
    (encryptRound^[k] (v128Xor input (loadRoundKey key.bytes), nextKey key.bytes)).2 =
        nextKey^[k + 1] key.bytes ∧
      toState (encryptRound^[k] (v128Xor input (loadRoundKey key.bytes), nextKey key.bytes)).1 =
        cipherRounds key.roundKey (toState input) k := by
  induction k with
  | zero =>
    refine ⟨rfl, ?_⟩
    rw [Function.iterate_zero_apply, toState_v128Xor, cipherRounds, ← toState_loadRoundKey key 0]
    rfl
  | succ k ih =>
    obtain ⟨hkey, hstate⟩ := ih
    rw [Function.iterate_succ_apply']
    refine ⟨?_, ?_⟩
    · rw [encryptRound, hkey, ← Function.iterate_succ_apply' nextKey]
    · rw [encryptRound, hkey, toState_v128Xor, toState_aesMixColumns, toState_aesShiftRows,
        toState_aesSubBytes, hstate, toState_loadRoundKey, cipherRounds]

/-- The SIMD encryption is the FIPS 197 cipher, for every positive number of rounds. -/
theorem toState_aesEncryptSimd (input : V128) {key : AESKey} (hrounds : 0 < key.rounds) :
    toState (aesEncryptSimd input key) =
      cipher key.rounds.toNat key.roundKey (toState input) := by
  obtain ⟨hkey, hstate⟩ := encryptRound_iterate input key (key.rounds - 1).toNat
  have hloop : (key.rounds - 1).toNat = key.rounds.toNat - 1 := by omega
  have hlast : (key.rounds - 1).toNat + 1 = key.rounds.toNat := by omega
  rw [aesEncryptSimd, toState_v128Xor, toState_aesShiftRows, toState_aesSubBytes, hstate, hkey,
    hlast, hloop, toState_loadRoundKey, cipher]

/-- After `k` iterations of the decryption loop the key pointer is at round key `k + 1` and the
state is that of the equivalent inverse cipher after `k` full rounds. -/
theorem decryptRound_iterate (input : V128) (key : AESKey) (k : ℕ) :
    (decryptRound^[k] (v128Xor input (loadRoundKey key.bytes), nextKey key.bytes)).2 =
        nextKey^[k + 1] key.bytes ∧
      toState (decryptRound^[k] (v128Xor input (loadRoundKey key.bytes), nextKey key.bytes)).1 =
        eqInvCipherRounds key.roundKey (toState input) k := by
  induction k with
  | zero =>
    refine ⟨rfl, ?_⟩
    rw [Function.iterate_zero_apply, toState_v128Xor, eqInvCipherRounds,
      ← toState_loadRoundKey key 0]
    rfl
  | succ k ih =>
    obtain ⟨hkey, hstate⟩ := ih
    rw [Function.iterate_succ_apply']
    refine ⟨?_, ?_⟩
    · rw [decryptRound, hkey, ← Function.iterate_succ_apply' nextKey]
    · rw [decryptRound, hkey, toState_v128Xor, toState_aesInvMixColumns,
        toState_aesInvShiftRows, toState_aesInvSubBytes, hstate, toState_loadRoundKey,
        eqInvCipherRounds]

/-- The SIMD decryption is the equivalent inverse cipher, for every positive number of rounds. -/
theorem toState_aesDecryptSimd (input : V128) {key : AESKey} (hrounds : 0 < key.rounds) :
    toState (aesDecryptSimd input key) =
      eqInvCipher key.rounds.toNat key.roundKey (toState input) := by
  obtain ⟨hkey, hstate⟩ := decryptRound_iterate input key (key.rounds - 1).toNat
  have hloop : (key.rounds - 1).toNat = key.rounds.toNat - 1 := by omega
  have hlast : (key.rounds - 1).toNat + 1 = key.rounds.toNat := by omega
  rw [aesDecryptSimd, toState_v128Xor, toState_aesInvShiftRows, toState_aesInvSubBytes, hstate,
    hkey, hlast, hloop, toState_loadRoundKey, eqInvCipher]

theorem AESKey.SupportedRounds.pos {key : AESKey} (h : key.SupportedRounds) : 0 < key.rounds := by
  rcases h with h | h | h <;> omega

/-- The FIPS 197 cipher on a block and a key schedule in memory. -/
def fipsCipher (input : V128) (key : AESKey) : V128 :=
  ofState (cipher key.rounds.toNat key.roundKey (toState input))

theorem aesEncryptSimd_eq_fipsCipher (input : V128) {key : AESKey} (h : key.SupportedRounds) :
    aesEncryptSimd input key = fipsCipher input key := by
  rw [fipsCipher, ← toState_aesEncryptSimd input h.pos, ofState_toState]

/-- The replacement of `AES_encrypt` computes the FIPS 197 cipher on every block and every
schedule with a supported number of rounds, and falls back to the original on the others. If the
original computes the cipher too, the replacement cannot be told from it. -/
theorem wrapAESEncrypt_spec (realAESEncrypt : V128 → AESKey → V128) (input : V128)
    (key : AESKey) :
    (key.SupportedRounds →
        wrapAESEncrypt realAESEncrypt input key = fipsCipher input key) ∧
      (¬key.SupportedRounds →
        wrapAESEncrypt realAESEncrypt input key = realAESEncrypt input key) ∧
      ((key.SupportedRounds → realAESEncrypt input key = fipsCipher input key) →
        wrapAESEncrypt realAESEncrypt input key = realAESEncrypt input key) := by
  refine ⟨fun h => ?_, fun h => ?_, fun hreal => ?_⟩
  · rw [wrapAESEncrypt, if_pos h, aesEncryptSimd_eq_fipsCipher input h]
  · rw [wrapAESEncrypt, if_neg h]
  · by_cases h : key.SupportedRounds
    · rw [wrapAESEncrypt, if_pos h, aesEncryptSimd_eq_fipsCipher input h, hreal h]
    · rw [wrapAESEncrypt, if_neg h]

end OpenSSLWasm.AesSimd
