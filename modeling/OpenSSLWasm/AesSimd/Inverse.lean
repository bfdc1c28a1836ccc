import OpenSSLWasm.AesSimd.Refinement

/-!
# SIMD AES decryption inverts encryption

`aes_decrypt_simd` expects the key schedule of the equivalent inverse cipher, which OpenSSL's
`AES_set_decrypt_key` derives from the encryption schedule. Under that schedule the two SIMD block
functions are inverse to each other.

## Main definitions

* `aesSetDecryptKey`: the schedule of the equivalent inverse cipher.

## Main results

* `roundKey_aesSetDecryptKey`: its round keys are those of FIPS 197, Section 5.3.5;
* `aesDecryptSimd_aesEncryptSimd`: decryption and encryption undo each other.
-/

namespace OpenSSLWasm.AesSimd

open BinaryField Rijndael

/-- Four bytes as a column of the key schedule, the one of row 0 most significant. -/
def column (a : Fin 4 → GF256) : BitVec 32 :=
  (a 0).bits ++ (a 1).bits ++ (a 2).bits ++ (a 3).bits

/-- The bytes of a concatenation of four. -/
theorem extractLsb'_append (a b c d : BitVec 8) :
    (a ++ b ++ c ++ d).extractLsb' 24 8 = a ∧ (a ++ b ++ c ++ d).extractLsb' 16 8 = b ∧
      (a ++ b ++ c ++ d).extractLsb' 8 8 = c ∧ (a ++ b ++ c ++ d).extractLsb' 0 8 = d := by
  refine ⟨?_, ?_, ?_, ?_⟩ <;> apply BitVec.eq_of_getLsbD_eq <;> intro i hi <;>
    simp only [BitVec.getLsbD_extractLsb', BitVec.getLsbD_append] <;> grind

theorem extractLsb'_column (a : Fin 4 → GF256) (r : Fin 4) :
    byte ((column a).extractLsb' (24 - 8 * r) 8) = a r := by
  obtain ⟨h0, h1, h2, h3⟩ := extractLsb'_append (a 0).bits (a 1).bits (a 2).bits (a 3).bits
  apply Residue.ext
  fin_cases r
  · exact h0
  · exact h1
  · exact h2
  · exact h3

/-- The decryption schedule that `AES_set_decrypt_key` makes of an encryption schedule: the round
keys in reverse order, InvMixColumns applied to all but the first and the last. -/
def aesSetDecryptKey (W : AESKey) : AESKey where
  rdKey := Vector.ofFn fun j : Fin 60 =>
    column fun r =>
      eqInvRoundKeys W.rounds.toNat W.roundKey (j / 4) r ⟨j % 4, Nat.mod_lt _ (by decide)⟩
  rounds := W.rounds

@[simp] theorem rounds_aesSetDecryptKey (W : AESKey) :
    (aesSetDecryptKey W).rounds = W.rounds := by
  rw [aesSetDecryptKey]

/-- The schedule holds fifteen round keys, so those of AES-256 and of the shorter keys fit. -/
theorem roundKey_aesSetDecryptKey (W : AESKey) {i : ℕ} (hi : i ≤ 14) :
    (aesSetDecryptKey W).roundKey i = eqInvRoundKeys W.rounds.toNat W.roundKey i := by
  refine Matrix.ext fun r c => ?_
  have hlt : 4 * i + c < 60 := by omega
  have hround : (4 * i + c : ℕ) / 4 = i := by omega
  have hcol : (4 * i + c : ℕ) % 4 = c := by omega
  have hget : (aesSetDecryptKey W).rdKey.getD (4 * i + c) 0 =
      column fun r => eqInvRoundKeys W.rounds.toNat W.roundKey i r c := by
    simp [aesSetDecryptKey, Vector.getD, hlt, hround, hcol]
  rw [AESKey.roundKey, hget, extractLsb'_column]

/-- Decrypting what was encrypted gives the block back, and so does encrypting what was
decrypted. -/
theorem aesDecryptSimd_aesEncryptSimd (W : AESKey) (hW : W.SupportedRounds) (b : V128) :
    aesDecryptSimd (aesEncryptSimd b W) (aesSetDecryptKey W) = b ∧
      aesEncryptSimd (aesDecryptSimd b (aesSetDecryptKey W)) W = b := by
  have hpos : 0 < W.rounds.toNat := by
    have := hW.pos
    omega
  -- the schedule has room for fifteen round keys, and no more than those are read
  have hkeys : ∀ i ≤ W.rounds.toNat,
      (aesSetDecryptKey W).roundKey i = eqInvRoundKeys W.rounds.toNat W.roundKey i := by
    intro i hi
    apply roundKey_aesSetDecryptKey
    rcases hW with h | h | h <;> omega
  have hdecrypt : ∀ v, toState (aesDecryptSimd v (aesSetDecryptKey W)) =
      eqInvCipher W.rounds.toNat (eqInvRoundKeys W.rounds.toNat W.roundKey) (toState v) := by
    intro v
    rw [toState_aesDecryptSimd v (by rw [rounds_aesSetDecryptKey]; exact hW.pos),
      rounds_aesSetDecryptKey]
    exact eqInvCipher_congr hkeys
  refine ⟨toState_injective ?_, toState_injective ?_⟩
  · rw [hdecrypt, toState_aesEncryptSimd b hW.pos, eqInvCipher_cipher hpos]
  · rw [toState_aesEncryptSimd _ hW.pos, hdecrypt, cipher_eqInvCipher hpos]

/-- The zero schedule of AES-128, as an instance. -/
theorem aesDecryptSimd_aesEncryptSimd_zero :
    let W : AESKey := { rdKey := Vector.replicate 60 0, rounds := 10 }
    aesDecryptSimd (aesEncryptSimd (fun _ => 0) W) (aesSetDecryptKey W) = (fun _ => 0) ∧
      aesEncryptSimd (aesDecryptSimd (fun _ => 0) (aesSetDecryptKey W)) W = (fun _ => 0) :=
  aesDecryptSimd_aesEncryptSimd _ (Or.inl rfl) _

end OpenSSLWasm.AesSimd
