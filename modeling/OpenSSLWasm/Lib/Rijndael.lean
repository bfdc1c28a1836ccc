import OpenSSLWasm.Lib.BinaryField
import OpenSSLWasm.Lib.KeyAlternating
import Mathlib.Data.Matrix.Mul
import Mathlib.LinearAlgebra.Matrix.Notation

/-!
# The AES block cipher of FIPS 197

The cipher in the terms of the standard: bytes are elements of GF(2⁸), the state is a four by
four matrix of them, SubBytes is inversion followed by an affine map, and MixColumns is a matrix
product. The byte order of blocks and round keys is left to the user of this file.

## Main definitions

* `GF256`: the field with 256 elements modulo `x⁸ + x⁴ + x³ + x + 1`;
* `sbox`, `subBytes`, `shiftRows`, `mixColumns`, `addRoundKey`: the transformations of FIPS 197,
  Section 5.1, and their inverses of Section 5.3;
* `cipher`: the cipher with `Nr` rounds, given one round key for each key addition;
* `eqInvCipher` and `eqInvRoundKeys`: the equivalent inverse cipher of Section 5.3.5.

## Main results

* `eqInvCipher_cipher` and `cipher_eqInvCipher`: the equivalent inverse cipher inverts the cipher
  on both sides, for every number of rounds.
-/

namespace Rijndael

open BinaryField

/-- GF(2⁸) modulo `x⁸ + x⁴ + x³ + x + 1`, the low part of the modulus being `0x1b`. -/
abbrev GF256 := Residue (0x1b : BitVec 8)

/-- A byte as an element of the field. -/
def byte (b : BitVec 8) : GF256 := ⟨b⟩

/-- A property of bytes that can be checked on all 256 of them. -/
theorem forall_byte {p : GF256 → Prop} (h : ∀ b, p (byte b)) (a : GF256) : p a := h a.bits

/-- The eightfold Frobenius map fixes `x`. -/
theorem X_pow_256 : Residue.X (0x1b : BitVec 8) ^ 2 ^ 8 = Residue.X (0x1b : BitVec 8) := by
  decide +kernel

/-- The only idempotents are `0` and `1`. -/
theorem eq_zero_or_one_of_mul_self (e : GF256) (he : e * e = e) : e = 0 ∨ e = 1 := by
  revert e
  exact forall_byte (by decide +kernel)

/-- The power that inverts, by Fermat's little theorem for the field. -/
theorem mul_pow_254 {a : GF256} (ha : a ≠ 0) : a * a ^ 254 = 1 := by
  have h := Residue.mul_pow_two_pow_sub_two X_pow_256 eq_zero_or_one_of_mul_self ha
  rwa [show 2 ^ 8 - 2 = 254 by norm_num] at h

instance : Field GF256 where
  inv a := a ^ 254
  mul_inv_cancel _ := mul_pow_254
  inv_zero := zero_pow (by decide)
  nnqsmul := _
  nnqsmul_def _ _ := rfl
  qsmul := _
  qsmul_def _ _ := rfl

/-- The state: byte `r, c` is in row `r` and column `c`. -/
abbrev State := Matrix (Fin 4) (Fin 4) GF256

/-! ## The substitution -/

/-- The affine map of the S-box: bit `i` of the result is the sum of the bits `i`, `i + 4`,
`i + 5`, `i + 6` and `i + 7` modulo 8 of the argument, plus bit `i` of `0x63`. -/
def affine (a : GF256) : GF256 :=
  byte (a.bits ^^^ a.bits.rotateLeft 1 ^^^ a.bits.rotateLeft 2 ^^^ a.bits.rotateLeft 3 ^^^
    a.bits.rotateLeft 4 ^^^ 0x63)

/-- The inverse of the affine map. -/
def invAffine (a : GF256) : GF256 :=
  byte (a.bits.rotateLeft 1 ^^^ a.bits.rotateLeft 3 ^^^ a.bits.rotateLeft 6 ^^^ 0x05)

theorem invAffine_affine (a : GF256) : invAffine (affine a) = a := by
  revert a
  exact forall_byte (by decide +kernel)

theorem affine_invAffine (a : GF256) : affine (invAffine a) = a := by
  revert a
  exact forall_byte (by decide +kernel)

/-- The S-box: inversion in the field, zero going to itself, followed by the affine map. -/
def sbox (a : GF256) : GF256 := affine a⁻¹

/-- The inverse S-box. -/
def invSbox (a : GF256) : GF256 := (invAffine a)⁻¹

theorem invSbox_sbox (a : GF256) : invSbox (sbox a) = a := by
  rw [invSbox, sbox, invAffine_affine, inv_inv]

theorem sbox_invSbox (a : GF256) : sbox (invSbox a) = a := by
  rw [sbox, invSbox, inv_inv, affine_invAffine]

/-- A candidate for the S-box value of `a` is right if undoing the affine map gives an inverse. -/
theorem eq_sbox_of_mul_invAffine {a b : GF256} (h : a * invAffine b = 1) : b = sbox a := by
  -- the product identifies the inverse, so no inverse has to be computed
  rw [sbox, ← eq_inv_of_mul_eq_one_right h, affine_invAffine]

/-! ## The transformations -/

/-- SubBytes. -/
def subBytes (s : State) : State := s.map sbox

/-- InvSubBytes. -/
def invSubBytes (s : State) : State := s.map invSbox

/-- ShiftRows: row `r` rotates left by `r` places. -/
def shiftRows (s : State) : State := fun r c => s r (c + r)

/-- InvShiftRows: row `r` rotates right by `r` places. -/
def invShiftRows (s : State) : State := fun r c => s r (c - r)

/-- The circulant matrix of MixColumns. -/
def mixMatrix : State :=
  !![byte 0x02, byte 0x03, byte 0x01, byte 0x01;
     byte 0x01, byte 0x02, byte 0x03, byte 0x01;
     byte 0x01, byte 0x01, byte 0x02, byte 0x03;
     byte 0x03, byte 0x01, byte 0x01, byte 0x02]

/-- The circulant matrix of InvMixColumns. -/
def invMixMatrix : State :=
  !![byte 0x0e, byte 0x0b, byte 0x0d, byte 0x09;
     byte 0x09, byte 0x0e, byte 0x0b, byte 0x0d;
     byte 0x0d, byte 0x09, byte 0x0e, byte 0x0b;
     byte 0x0b, byte 0x0d, byte 0x09, byte 0x0e]

/-- A column, multiplied by a matrix. -/
def mulColumn (M : State) (a : Fin 4 → GF256) : Fin 4 → GF256 := M.mulVec a

/-- MixColumns. -/
def mixColumns (s : State) : State := mixMatrix * s

/-- InvMixColumns. -/
def invMixColumns (s : State) : State := invMixMatrix * s

/-- AddRoundKey. -/
def addRoundKey (s k : State) : State := s + k

theorem invMixMatrix_mul_mixMatrix : invMixMatrix * mixMatrix = 1 := by
  decide +kernel

theorem mixMatrix_mul_invMixMatrix : mixMatrix * invMixMatrix = 1 := by
  decide +kernel

theorem invMixColumns_mixColumns (s : State) : invMixColumns (mixColumns s) = s := by
  rw [invMixColumns, mixColumns, ← Matrix.mul_assoc, invMixMatrix_mul_mixMatrix, Matrix.one_mul]

theorem mixColumns_invMixColumns (s : State) : mixColumns (invMixColumns s) = s := by
  rw [mixColumns, invMixColumns, ← Matrix.mul_assoc, mixMatrix_mul_invMixMatrix, Matrix.one_mul]

/-- Two round keys that are equal cancel. -/
theorem state_add_self (s : State) : s + s = 0 :=
  Matrix.ext fun r c => Residue.add_self (s r c)

/-! ## The cipher and its inverse -/

/-- The state after the initial key addition and `i` full rounds. -/
def cipherRounds (w : ℕ → State) (s : State) : ℕ → State
  | 0 => addRoundKey s (w 0)
  | i + 1 => addRoundKey (mixColumns (shiftRows (subBytes (cipherRounds w s i)))) (w (i + 1))

/-- The cipher with `Nr` rounds and the round keys `w 0`, …, `w Nr`; the last round has no
MixColumns. -/
def cipher (Nr : ℕ) (w : ℕ → State) (s : State) : State :=
  addRoundKey (shiftRows (subBytes (cipherRounds w s (Nr - 1)))) (w Nr)

/-- The state of the equivalent inverse cipher after the initial key addition and `i` rounds. -/
def eqInvCipherRounds (dw : ℕ → State) (s : State) : ℕ → State
  | 0 => addRoundKey s (dw 0)
  | i + 1 =>
      addRoundKey (invMixColumns (invShiftRows (invSubBytes (eqInvCipherRounds dw s i))))
        (dw (i + 1))

/-- The equivalent inverse cipher with `Nr` rounds and the round keys `dw 0`, …, `dw Nr`. -/
def eqInvCipher (Nr : ℕ) (dw : ℕ → State) (s : State) : State :=
  addRoundKey (invShiftRows (invSubBytes (eqInvCipherRounds dw s (Nr - 1)))) (dw Nr)

/-- The round keys of the equivalent inverse cipher: those of the cipher in reverse order, all
but the first and the last taken through InvMixColumns. -/
def eqInvRoundKeys (Nr : ℕ) (w : ℕ → State) (i : ℕ) : State :=
  if i = 0 ∨ i = Nr then w (Nr - i) else invMixColumns (w (Nr - i))

/-- The layers of a round, as those of a key-alternating cipher. -/
def layers : KeyAlternating.Layers State where
  sub :=
    { toFun := subBytes
      invFun := invSubBytes
      left_inv := fun s => Matrix.ext fun r c => invSbox_sbox (s r c)
      right_inv := fun s => Matrix.ext fun r c => sbox_invSbox (s r c) }
  shift :=
    { toFun := shiftRows
      invFun := invShiftRows
      left_inv := fun s => Matrix.ext fun r c => congrArg (s r) (sub_add_cancel c r)
      right_inv := fun s => Matrix.ext fun r c => congrArg (s r) (add_sub_cancel_right c r) }
  mix :=
    { toFun := mixColumns
      invFun := invMixColumns
      left_inv := invMixColumns_mixColumns
      right_inv := mixColumns_invMixColumns
      map_add' := Matrix.mul_add mixMatrix }
  -- one works on bytes, the other on places
  sub_shift _ := rfl

theorem cipherRounds_eq (w : ℕ → State) (s : State) (i : ℕ) :
    cipherRounds w s i = KeyAlternating.roundState layers w s i := by
  induction i with
  | zero => rfl
  | succ i ih => rw [cipherRounds, KeyAlternating.roundState, ih]; rfl

theorem cipher_eq_encrypt (Nr : ℕ) (w : ℕ → State) (s : State) :
    cipher Nr w s = KeyAlternating.encrypt layers Nr w s := by
  rw [cipher, cipherRounds_eq, KeyAlternating.encrypt]
  rfl

theorem eqInvCipherRounds_eq (dw : ℕ → State) (s : State) (i : ℕ) :
    eqInvCipherRounds dw s i = KeyAlternating.roundState layers.symm dw s i := by
  induction i with
  | zero => rfl
  | succ i ih => rw [eqInvCipherRounds, KeyAlternating.roundState, ih]; rfl

theorem eqInvCipher_eq_encrypt (Nr : ℕ) (dw : ℕ → State) (s : State) :
    eqInvCipher Nr dw s = KeyAlternating.encrypt layers.symm Nr dw s := by
  rw [eqInvCipher, eqInvCipherRounds_eq, KeyAlternating.encrypt]
  rfl

/-- The equivalent inverse cipher undoes the cipher. -/
theorem eqInvCipher_cipher {Nr : ℕ} (hNr : 0 < Nr) (w : ℕ → State) (s : State) :
    eqInvCipher Nr (eqInvRoundKeys Nr w) (cipher Nr w s) = s := by
  rw [cipher_eq_encrypt, eqInvCipher_eq_encrypt]
  exact KeyAlternating.encrypt_symm_encrypt state_add_self layers hNr w s

/-- The cipher undoes the equivalent inverse cipher. -/
theorem cipher_eqInvCipher {Nr : ℕ} (hNr : 0 < Nr) (w : ℕ → State) (s : State) :
    cipher Nr w (eqInvCipher Nr (eqInvRoundKeys Nr w) s) = s := by
  rw [cipher_eq_encrypt, eqInvCipher_eq_encrypt]
  exact KeyAlternating.encrypt_encrypt_symm state_add_self layers hNr w s

/-- The equivalent inverse cipher with `Nr` rounds reads the round keys `dw 0`, …, `dw Nr`
only. -/
theorem eqInvCipher_congr {Nr : ℕ} {dw dw' : ℕ → State} {s : State}
    (h : ∀ i ≤ Nr, dw i = dw' i) : eqInvCipher Nr dw s = eqInvCipher Nr dw' s := by
  rw [eqInvCipher_eq_encrypt, eqInvCipher_eq_encrypt]
  exact KeyAlternating.encrypt_congr h

end Rijndael
