import OpenSSLWasm.AesSimd.Refinement
import Mathlib.LinearAlgebra.Matrix.Circulant

/-!
# The MixColumns layers as linear maps

`aes_xtime`, `aes_mix_columns` and `aes_inv_mix_columns` of `src/aes_simd.c` add up rotations of a
vector and their multiples. On the columns of the state they are multiplications by matrices over
`𝔽₂[x] / (x⁸ + x⁴ + x³ + x + 1)`.

## Main definitions

* `rowCirculant`: the matrix whose rows are the rotations of the first one;
* `MultipliesColumns`: a function on vectors multiplies every column by a matrix.

## Main results

* `modulus_eq`: the polynomial that the bytes are taken modulo;
* `MultipliesColumns.map_v128Xor` and `MultipliesColumns.leftInverse`: such a function is additive, and
  inverse matrices give inverse functions;
* `aesMixColumns_linear`: the matrices of the two layers.
-/

namespace OpenSSLWasm.AesSimd

open BinaryField Rijndael Polynomial

/-! ## The field and the matrices -/

/-- The polynomial of FIPS 197. -/
theorem modulus_eq :
    modulus (0x1b : BitVec 8) = (X ^ 8 + X ^ 4 + X ^ 3 + X + 1 : (ZMod 2)[X]) := by
  have hbits : unpack (0x1b : BitVec 8) = (X ^ 4 + X ^ 3 + X + 1 : (ZMod 2)[X]) := by
    -- the bits that are set, from the lowest on
    calc unpack (0x1b : BitVec 8)
      _ = 1 + X + X ^ 3 + X ^ 4 := by simp [unpack, Fin.sum_univ_eight]
      _ = X ^ 4 + X ^ 3 + X + 1 := by ring
  rw [modulus, hbits]
  ring

/-- Every row is the one above it, moved to the right. -/
def rowCirculant (c : Fin 4 → GF256) : State := (Matrix.circulant c).transpose

theorem mixMatrix_eq_rowCirculant :
    mixMatrix = rowCirculant ![byte 0x02, byte 0x03, byte 0x01, byte 0x01] := by
  decide

theorem invMixMatrix_eq_rowCirculant :
    invMixMatrix = rowCirculant ![byte 0x0e, byte 0x0b, byte 0x0d, byte 0x09] := by
  decide

/-! ## Functions that multiply the columns -/

/-- Every column of the state is multiplied by the matrix. -/
def MultipliesColumns (M : State) (f : V128 → V128) : Prop :=
  ∀ v c, (toState (f v)).col c = mulColumn M ((toState v).col c)

section

variable {M N : State} {f g : V128 → V128}

theorem multipliesColumns_iff :
    MultipliesColumns M f ↔ ∀ v, toState (f v) = M * toState v := by
  refine forall_congr' fun v => ⟨fun h => ?_, fun h c => ?_⟩
  · refine Matrix.ext fun r c => ?_
    exact congrFun (h c) r
  · rw [h]
    rfl

/-- The function is additive. -/
theorem MultipliesColumns.map_v128Xor (h : MultipliesColumns M f) (a b : V128) :
    f (v128Xor a b) = v128Xor (f a) (f b) := by
  rw [multipliesColumns_iff] at h
  apply toState_injective
  calc toState (f (v128Xor a b))
      = M * (toState a + toState b) := by rw [h, toState_v128Xor, addRoundKey]
    _ = toState (f a) + toState (f b) := by rw [Matrix.mul_add, h, h]
    _ = toState (v128Xor (f a) (f b)) := by rw [toState_v128Xor, addRoundKey]

/-- The inverse matrix gives the inverse function. -/
theorem MultipliesColumns.leftInverse (h : MultipliesColumns M f) (h' : MultipliesColumns N g)
    (hNM : N * M = 1) : Function.LeftInverse g f := by
  rw [multipliesColumns_iff] at h h'
  intro v
  apply toState_injective
  rw [h', h, ← Matrix.mul_assoc, hNM, Matrix.one_mul]

end

theorem multipliesColumns_aesMixColumns : MultipliesColumns mixMatrix aesMixColumns :=
  multipliesColumns_iff.mpr toState_aesMixColumns

theorem multipliesColumns_aesInvMixColumns : MultipliesColumns invMixMatrix aesInvMixColumns :=
  multipliesColumns_iff.mpr toState_aesInvMixColumns

/-- `aes_xtime` multiplies every byte by `x`. -/
theorem toQuot_aesXtime (v : V128) (i : Fin 16) :
    (byte (aesXtime v i)).toQuot = AdjoinRoot.root (modulus 0x1b) * (byte (v i)).toQuot := by
  rw [aesXtime_lane, show byte 0x02 = Residue.X (0x1b : BitVec 8) from rfl, Residue.X_mul,
    Residue.toQuot_xtime]

/-- The layers multiply the columns by the matrices of FIPS 197, and are inverse to each other. -/
theorem aesMixColumns_linear :
    modulus (0x1b : BitVec 8) = (X ^ 8 + X ^ 4 + X ^ 3 + X + 1 : (ZMod 2)[X]) ∧
    (∀ v i, (byte (aesXtime v i)).toQuot =
      AdjoinRoot.root (modulus 0x1b) * (byte (v i)).toQuot) ∧
    MultipliesColumns (rowCirculant ![byte 0x02, byte 0x03, byte 0x01, byte 0x01]) aesMixColumns ∧
    MultipliesColumns (rowCirculant ![byte 0x0e, byte 0x0b, byte 0x0d, byte 0x09])
      aesInvMixColumns ∧
    (∀ a b, aesMixColumns (v128Xor a b) = v128Xor (aesMixColumns a) (aesMixColumns b)) ∧
    (∀ a b, aesInvMixColumns (v128Xor a b) =
      v128Xor (aesInvMixColumns a) (aesInvMixColumns b)) ∧
    Function.LeftInverse aesInvMixColumns aesMixColumns ∧
    Function.RightInverse aesInvMixColumns aesMixColumns := by
  rw [← mixMatrix_eq_rowCirculant, ← invMixMatrix_eq_rowCirculant]
  exact ⟨modulus_eq, toQuot_aesXtime, multipliesColumns_aesMixColumns,
    multipliesColumns_aesInvMixColumns, multipliesColumns_aesMixColumns.map_v128Xor,
    multipliesColumns_aesInvMixColumns.map_v128Xor,
    multipliesColumns_aesMixColumns.leftInverse multipliesColumns_aesInvMixColumns
      invMixMatrix_mul_mixMatrix,
    multipliesColumns_aesInvMixColumns.leftInverse multipliesColumns_aesMixColumns
      mixMatrix_mul_invMixMatrix⟩

end OpenSSLWasm.AesSimd
