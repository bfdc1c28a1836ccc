import Mathlib.Algebra.CharP.Frobenius
import Mathlib.Algebra.CharP.Two
import Mathlib.Algebra.Field.ZMod
import Mathlib.Algebra.Polynomial.Monic
import Mathlib.Data.ZMod.Basic
import Mathlib.RingTheory.AdjoinRoot
import Mathlib.Tactic.Ring

/-!
# Packed residues of polynomials over `𝔽₂`

A word of `w` bits is read as a polynomial over `𝔽₂` of degree less than `w`: bit `i` is the
coefficient of `xⁱ`. This file gives the words the arithmetic of the quotient ring
`𝔽₂[x] / (xʷ + r)`, where the low part `r` of the modulus is itself a packed word. All the
operations are computable; the ring laws are transported from `AdjoinRoot`.

## Main definitions

* `Residue r`: the packed residues modulo `xʷ + r`;
* `Residue.xtime`: multiplication by `x`, a shift followed by a conditional reduction;
* `Residue.toQuot`: the residue as an element of `AdjoinRoot (modulus r)`.

## Main results

* `Residue.toQuot_xtime` and `Residue.toQuot_mul`: the packed operations are those of the
  quotient;
* `Residue.instCommRing`: the ring structure, with exclusive or as its addition;
* `Residue.quotEquiv`: the packed residues are the whole quotient ring;
* `Residue.mul_pow_two_pow_sub_two`: a criterion for the quotient to be a field, checked by
  computing with residues.
-/

namespace BinaryField

open Polynomial

variable {w : ℕ}

/-- The polynomial over `𝔽₂` whose coefficient at `xⁱ` is bit `i` of the word. -/
noncomputable def unpack (v : BitVec w) : (ZMod 2)[X] :=
  ∑ i : Fin w, C (if v.getLsbD i then 1 else 0) * X ^ (i : ℕ)

theorem coeff_unpack (v : BitVec w) (n : ℕ) :
    (unpack v).coeff n = if v.getLsbD n then 1 else 0 := by
  rw [unpack, finsetSum_coeff]
  simp only [coeff_C_mul_X_pow]
  by_cases hn : n < w
  · rw [Finset.sum_eq_single ⟨n, hn⟩]
    · simp
    · intro i _ hi
      exact if_neg fun h => hi (Fin.ext h.symm)
    · simp
  · rw [Finset.sum_eq_zero, BitVec.getLsbD_of_ge v n (Nat.le_of_not_lt hn)]
    · simp
    · intro i _
      exact if_neg fun h : n = i => hn (h ▸ i.isLt)

theorem degree_unpack_lt (v : BitVec w) : (unpack v).degree < w := by
  rw [degree_lt_iff_coeff_zero]
  intro n hn
  simp [coeff_unpack, BitVec.getLsbD_of_ge v n hn]

theorem unpack_injective : Function.Injective (unpack (w := w)) := by
  intro a b h
  refine BitVec.eq_of_getLsbD_eq fun i _ => ?_
  have hi := congrArg (coeff · i) h
  simp only [coeff_unpack] at hi
  revert hi
  cases a.getLsbD i <;> cases b.getLsbD i <;> simp

/-- Exclusive or is addition over `𝔽₂`. -/
theorem unpack_xor (a b : BitVec w) : unpack (a ^^^ b) = unpack a + unpack b := by
  ext n
  simp only [coeff_add, coeff_unpack, BitVec.getLsbD_xor]
  cases a.getLsbD n <;> cases b.getLsbD n <;> decide

theorem unpack_zero : unpack (0 : BitVec w) = 0 := by
  ext n
  simp [coeff_unpack]

theorem unpack_one [NeZero w] : unpack (1 : BitVec w) = 1 := by
  ext n
  have hw : 0 < w := Nat.pos_of_neZero w
  simp only [coeff_unpack, coeff_one, BitVec.ofNat_eq_ofNat, BitVec.getLsbD_one, hw,
    decide_true, Bool.true_and, decide_eq_true_eq]

/-- Shifting left multiplies by `x`, up to the term of the bit that is shifted out. -/
theorem X_mul_unpack [NeZero w] (a : BitVec w) :
    X * unpack a = unpack (a <<< 1) + C (if a.msb then 1 else 0) * X ^ w := by
  have hw : 0 < w := Nat.pos_of_neZero w
  ext n
  rw [coeff_add, coeff_C_mul_X_pow, coeff_unpack]
  cases n with
  | zero => simp [hw.ne]
  | succ n =>
    -- below `w` the shift moves the bit, at `w` it drops the top bit, above there is none
    rw [coeff_X_mul, coeff_unpack, BitVec.getLsbD_shiftLeft]
    rcases lt_trichotomy (n + 1) w with h | h | h
    · simp [h, h.ne]
    · have hlast : a.msb = a.getLsbD n := by
        rw [BitVec.msb_eq_getLsbD_last, show w - 1 = n by omega]
      simp [h, hlast]
    · simp [h.ne', h.not_gt, BitVec.getLsbD_of_ge a n (by omega)]

/-- Every polynomial of degree less than `w` is packed in some word. -/
theorem exists_unpack_eq {p : (ZMod 2)[X]} (hp : p.degree < w) :
    ∃ v : BitVec w, unpack v = p := by
  -- read the coefficients off, the constant one first
  refine ⟨(BitVec.ofBoolListLE ((List.range w).map fun i => decide (p.coeff i = 1))).cast
    (by simp), ?_⟩
  have hbit : ∀ c : ZMod 2, (if decide (c = 1) then 1 else 0) = c := by decide
  ext n
  rw [coeff_unpack, BitVec.getLsbD_cast, BitVec.getLsbD_ofBoolListLE]
  by_cases hn : n < w
  · simpa [List.getD_eq_getElem?_getD, hn] using hbit (p.coeff n)
  · simp [List.getD_eq_getElem?_getD, hn,
      (degree_lt_iff_coeff_zero p w).mp hp n (Nat.le_of_not_lt hn)]

/-- The modulus `xʷ + r`, with the low part `r` packed in a word. -/
noncomputable def modulus (r : BitVec w) : (ZMod 2)[X] := X ^ w + unpack r

theorem modulus_monic (r : BitVec w) : (modulus r).Monic :=
  monic_X_pow_add (degree_unpack_lt r)

theorem degree_modulus (r : BitVec w) : (modulus r).degree = w := by
  have h : (unpack r).degree < (X ^ w : (ZMod 2)[X]).degree := by
    rw [degree_X_pow]
    exact degree_unpack_lt r
  rw [modulus, degree_add_eq_left_of_degree_lt h, degree_X_pow]

/-- The packed residues modulo `xʷ + r`. -/
structure Residue (r : BitVec w) where
  /-- The coefficients, the one of `xⁱ` at bit `i`. -/
  bits : BitVec w
  deriving DecidableEq

namespace Residue

variable {r : BitVec w}

@[ext] theorem ext {a b : Residue r} (h : a.bits = b.bits) : a = b := by
  cases a
  cases b
  exact congrArg mk h

/-- Multiplication by `x`: shift left and, when the bit that leaves was set, add `r` for the `xʷ`
it stands for. -/
def xtime (a : Residue r) : Residue r :=
  ⟨a.bits <<< 1 ^^^ if a.bits.msb then r else 0⟩

/-- The product of `b` with the terms of `a` of degree less than `k`. -/
def mulLow (a b : Residue r) : ℕ → BitVec w
  | 0 => 0
  | k + 1 => mulLow a b k ^^^ if a.bits.getLsbD k then (xtime^[k] b).bits else 0

instance : Zero (Residue r) := ⟨⟨0⟩⟩
instance : One (Residue r) := ⟨⟨1⟩⟩
instance : Add (Residue r) := ⟨fun a b => ⟨a.bits ^^^ b.bits⟩⟩
instance : Mul (Residue r) := ⟨fun a b => ⟨mulLow a b w⟩⟩
instance : Neg (Residue r) := ⟨id⟩

@[simp] theorem bits_zero : (0 : Residue r).bits = 0 := rfl
@[simp] theorem bits_one : (1 : Residue r).bits = 1 := rfl
@[simp] theorem bits_add (a b : Residue r) : (a + b).bits = a.bits ^^^ b.bits := rfl

/-- The residue as an element of the quotient ring. -/
noncomputable def toQuot (a : Residue r) : AdjoinRoot (modulus r) :=
  AdjoinRoot.mk (modulus r) (unpack a.bits)

theorem toQuot_injective : Function.Injective (toQuot (r := r)) := by
  intro a b h
  refine ext (unpack_injective ?_)
  by_contra hne
  have hdvd : modulus r ∣ unpack a.bits - unpack b.bits := AdjoinRoot.mk_eq_mk.mp h
  refine (modulus_monic r).not_dvd_of_degree_lt (sub_ne_zero.mpr hne) ?_ hdvd
  rw [degree_modulus]
  exact (degree_sub_le _ _).trans_lt (max_lt (degree_unpack_lt _) (degree_unpack_lt _))

theorem toQuot_surjective : Function.Surjective (toQuot (r := r)) := by
  intro y
  obtain ⟨p, rfl⟩ := AdjoinRoot.mk_surjective y
  have hdeg : (p %ₘ modulus r).degree < w :=
    degree_modulus r ▸ degree_modByMonic_lt p (modulus_monic r)
  obtain ⟨v, hv⟩ := exists_unpack_eq hdeg
  refine ⟨⟨v⟩, ?_⟩
  rw [toQuot, hv, AdjoinRoot.mk_eq_mk, modByMonic_eq_sub_mul_div, sub_sub_cancel_left, dvd_neg]
  exact dvd_mul_right _ _

@[simp] theorem toQuot_zero : toQuot (0 : Residue r) = 0 := by
  rw [toQuot, bits_zero, unpack_zero, map_zero]

@[simp] theorem toQuot_add (a b : Residue r) : toQuot (a + b) = toQuot a + toQuot b := by
  rw [toQuot, bits_add, unpack_xor, map_add]
  rfl

/-- Addition is exclusive or, so every residue is its own negative. -/
theorem add_self (a : Residue r) : a + a = 0 :=
  ext BitVec.xor_self

/-- The quotient has characteristic two. -/
theorem quot_add_self (y : AdjoinRoot (modulus r)) : y + y = 0 := by
  have h2 : (2 : AdjoinRoot (modulus r)) = 0 := by
    rw [← map_ofNat (AdjoinRoot.of (modulus r)) 2, show (2 : ZMod 2) = 0 from rfl, map_zero]
  rw [← two_mul, h2, zero_mul]

/-- In the quotient `xʷ` is the low part of the modulus. -/
theorem root_pow_width :
    AdjoinRoot.root (modulus r) ^ w = AdjoinRoot.mk (modulus r) (unpack r) := by
  have h : AdjoinRoot.root (modulus r) ^ w + AdjoinRoot.mk (modulus r) (unpack r) = 0 := by
    rw [← AdjoinRoot.mk_X, ← map_pow, ← map_add]
    exact AdjoinRoot.mk_self
  rw [eq_neg_of_add_eq_zero_left h, ← eq_neg_of_add_eq_zero_left (quot_add_self _)]

variable [NeZero w]

@[simp] theorem toQuot_one : toQuot (1 : Residue r) = 1 := by
  rw [toQuot, bits_one, unpack_one, map_one]

theorem toQuot_xtime (a : Residue r) :
    toQuot (xtime a) = AdjoinRoot.root (modulus r) * toQuot a := by
  have hcarry : AdjoinRoot.mk (modulus r) (unpack (if a.bits.msb then r else 0)) =
      AdjoinRoot.mk (modulus r) (C (if a.bits.msb then 1 else 0) * X ^ w) := by
    cases a.bits.msb
    · rw [if_neg Bool.false_ne_true, if_neg Bool.false_ne_true, unpack_zero, map_zero, map_zero,
        zero_mul, map_zero]
    · rw [if_pos rfl, if_pos rfl, map_one, one_mul, map_pow, AdjoinRoot.mk_X, root_pow_width]
  rw [toQuot, toQuot, ← AdjoinRoot.mk_X, ← map_mul, X_mul_unpack, map_add, ← hcarry, ← map_add,
    ← unpack_xor]
  rfl

theorem toQuot_xtime_iterate (a : Residue r) (k : ℕ) :
    toQuot (xtime^[k] a) = AdjoinRoot.root (modulus r) ^ k * toQuot a := by
  induction k with
  | zero => simp
  | succ k ih => rw [Function.iterate_succ_apply', toQuot_xtime, ih, pow_succ', mul_assoc]

/-- The terms of `a` of degree less than `k`, in the quotient. -/
theorem toQuot_mulLow (a b : Residue r) (k : ℕ) :
    AdjoinRoot.mk (modulus r) (unpack (mulLow a b k)) =
      AdjoinRoot.mk (modulus r)
        (∑ i ∈ Finset.range k, C (if a.bits.getLsbD i then 1 else 0) * X ^ i) * toQuot b := by
  induction k with
  | zero => rw [mulLow, unpack_zero, map_zero, Finset.sum_range_zero, map_zero, zero_mul]
  | succ k ih =>
    rw [mulLow, unpack_xor, map_add, ih, Finset.sum_range_succ, map_add, add_mul,
      add_right_inj]
    -- the term of this degree is there or not
    cases a.bits.getLsbD k
    · rw [if_neg Bool.false_ne_true, if_neg Bool.false_ne_true, unpack_zero, map_zero, map_zero,
        zero_mul, map_zero, zero_mul]
    · rw [if_pos rfl, if_pos rfl, map_one, one_mul, map_pow, AdjoinRoot.mk_X,
        ← toQuot_xtime_iterate]
      rfl

@[simp] theorem toQuot_mul (a b : Residue r) : toQuot (a * b) = toQuot a * toQuot b := by
  have hunpack : unpack a.bits =
      ∑ i ∈ Finset.range w, C (if a.bits.getLsbD i then 1 else 0) * X ^ i :=
    Fin.sum_univ_eq_sum_range (fun i => C (if a.bits.getLsbD i then (1 : ZMod 2) else 0) * X ^ i) w
  calc toQuot (a * b) = AdjoinRoot.mk (modulus r) (unpack (mulLow a b w)) := rfl
    _ = toQuot a * toQuot b := by rw [toQuot_mulLow, ← hunpack]; rfl

instance instCommRing : CommRing (Residue r) where
  add_assoc a b c := toQuot_injective (by simp only [toQuot_add, add_assoc])
  zero_add a := toQuot_injective (by simp only [toQuot_add, toQuot_zero, zero_add])
  add_zero a := toQuot_injective (by simp only [toQuot_add, toQuot_zero, add_zero])
  add_comm a b := toQuot_injective (by simp only [toQuot_add, add_comm])
  neg_add_cancel a := ext BitVec.xor_self
  mul_assoc a b c := toQuot_injective (by simp only [toQuot_mul, mul_assoc])
  one_mul a := toQuot_injective (by simp only [toQuot_mul, toQuot_one, one_mul])
  mul_one a := toQuot_injective (by simp only [toQuot_mul, toQuot_one, mul_one])
  mul_comm a b := toQuot_injective (by simp only [toQuot_mul, mul_comm])
  zero_mul a := toQuot_injective (by simp only [toQuot_mul, toQuot_zero, zero_mul])
  mul_zero a := toQuot_injective (by simp only [toQuot_mul, toQuot_zero, mul_zero])
  left_distrib a b c := toQuot_injective (by simp only [toQuot_add, toQuot_mul, mul_add])
  right_distrib a b c := toQuot_injective (by simp only [toQuot_add, toQuot_mul, add_mul])
  nsmul := nsmulRec
  zsmul := zsmulRec

/-- `toQuot` as a ring homomorphism. -/
noncomputable def toQuotHom : Residue r →+* AdjoinRoot (modulus r) where
  toFun := toQuot
  map_zero' := toQuot_zero
  map_one' := toQuot_one
  map_add' := toQuot_add
  map_mul' := toQuot_mul

/-- The packed residues are the quotient ring. -/
noncomputable def quotEquiv : Residue r ≃+* AdjoinRoot (modulus r) :=
  RingEquiv.ofBijective toQuotHom ⟨toQuot_injective, toQuot_surjective⟩

/-- The residue of `x`. -/
def X (r : BitVec w) : Residue r := xtime 1

/-- `xtime` is multiplication by the residue of `x`. -/
theorem X_mul (a : Residue r) : X r * a = xtime a := by
  apply toQuot_injective
  rw [toQuot_mul, X, toQuot_xtime, toQuot_xtime, toQuot_one, mul_one]

/-! ## When the quotient is a field

The `w`-fold Frobenius map `a ↦ a ^ 2ʷ` is a ring endomorphism, so it is the identity as soon as it
fixes `x`. Then `a ^ (2ʷ - 1)` is an idempotent for every `a`, and if the ring has no idempotents
but `0` and `1`, every element other than `0` is invertible. -/

instance : Nontrivial (Residue r) := by
  refine ⟨0, 1, fun h => ?_⟩
  have hbit := congrArg (fun a : Residue r => a.bits.getLsbD 0) h
  simp [Nat.pos_of_neZero w] at hbit

instance : CharP (Residue r) 2 :=
  CharTwo.of_one_ne_zero_of_two_eq_zero one_ne_zero (by rw [← one_add_one_eq_two, add_self])

theorem quotEquiv_X : quotEquiv (X r) = AdjoinRoot.root (modulus r) := by
  change toQuot (xtime 1) = _
  rw [toQuot_xtime, toQuot_one, mul_one]

/-- If the `w`-fold Frobenius map fixes `x`, it fixes every residue. -/
theorem pow_two_pow_width (hX : X r ^ 2 ^ w = X r) (a : Residue r) : a ^ 2 ^ w = a := by
  have hroot : quotEquiv.symm (AdjoinRoot.root (modulus r)) = X r := by
    rw [← quotEquiv_X, RingEquiv.symm_apply_apply]
  have hhom : (iterateFrobenius (Residue r) 2 w).comp quotEquiv.symm.toRingHom =
      quotEquiv.symm.toRingHom := by
    refine AdjoinRoot.ringHom_ext (Subsingleton.elim _ _) ?_
    change quotEquiv.symm (AdjoinRoot.root (modulus r)) ^ 2 ^ w =
      quotEquiv.symm (AdjoinRoot.root (modulus r))
    rw [hroot, hX]
  calc a ^ 2 ^ w = quotEquiv.symm (quotEquiv a) ^ 2 ^ w := by rw [RingEquiv.symm_apply_apply]
    _ = quotEquiv.symm (quotEquiv a) := congrArg (· (quotEquiv a)) hhom
    _ = a := quotEquiv.symm_apply_apply a

/-- If the `w`-fold Frobenius map fixes `x` and the only idempotents are `0` and `1`, then
`a ^ (2ʷ - 2)` is the inverse of every `a` other than `0`. -/
theorem mul_pow_two_pow_sub_two (hX : X r ^ 2 ^ w = X r)
    (hidem : ∀ e : Residue r, e * e = e → e = 0 ∨ e = 1) {a : Residue r} (ha : a ≠ 0) :
    a * a ^ (2 ^ w - 2) = 1 := by
  have hpow : 2 ≤ 2 ^ w := Nat.le_self_pow (Nat.pos_of_neZero w).ne' 2
  have hfix : a * (a * a ^ (2 ^ w - 2)) = a := by
    rw [← pow_succ', ← pow_succ', show 2 ^ w - 2 + 1 + 1 = 2 ^ w by omega, pow_two_pow_width hX]
  have hsq : a * a ^ (2 ^ w - 2) * (a * a ^ (2 ^ w - 2)) = a * a ^ (2 ^ w - 2) := by
    calc a * a ^ (2 ^ w - 2) * (a * a ^ (2 ^ w - 2))
        = a * (a * a ^ (2 ^ w - 2)) * a ^ (2 ^ w - 2) := by ring
      _ = a * a ^ (2 ^ w - 2) := by rw [hfix]
  rcases hidem _ hsq with h | h
  · rw [h, mul_zero] at hfix
    exact absurd hfix.symm ha
  · exact h

end Residue

end BinaryField
