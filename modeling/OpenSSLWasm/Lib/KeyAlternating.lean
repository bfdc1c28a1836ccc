import Mathlib.Algebra.Group.Equiv.Basic
import Mathlib.Algebra.Order.Group.Nat

/-!
# Key-alternating ciphers and the equivalent inverse cipher

A key-alternating cipher over a group `V` of block states repeats one unkeyed round, a
substitution, a permutation of the cells and a linear mixing, and adds a round key after each
round. The last round leaves the mixing out. This file develops the cipher over an arbitrary
additive group of exponent two, so that adding a key twice is the identity.

## Main definitions

* `Layers`: the three layers of a round, each of them a bijection;
* `roundState`: the state after the first key addition and `i` full rounds;
* `encrypt`: the cipher with `n` rounds;
* `Layers.symm` and `inverseKeys`: the layers and the key schedule of the equivalent inverse
  cipher, which runs the inverse layers in the order of the forward cipher.

## Main results

* `encrypt_symm_encrypt`: the equivalent inverse cipher undoes the cipher;
* `encrypt_encrypt_symm`: the cipher undoes the equivalent inverse cipher.
-/

namespace KeyAlternating

variable {V : Type*} [AddCommGroup V]

/-- The unkeyed layers of one round. The substitution works on cells and the permutation moves
cells, so the two commute; this is what lets the inverse cipher keep the forward order. -/
structure Layers (V : Type*) [AddCommGroup V] where
  /-- The substitution layer. -/
  sub : Equiv.Perm V
  /-- The permutation of the cells. -/
  shift : Equiv.Perm V
  /-- The linear mixing layer. -/
  mix : V ≃+ V
  /-- Substituting and moving cells commute. -/
  sub_shift : ∀ x, sub (shift x) = shift (sub x)

/-- The inverse layers. -/
def Layers.symm (L : Layers V) : Layers V where
  sub := L.sub.symm
  shift := L.shift.symm
  mix := L.mix.symm
  sub_shift x := by
    apply L.sub.injective
    apply L.shift.injective
    rw [Equiv.apply_symm_apply, Equiv.apply_symm_apply, ← L.sub_shift, Equiv.apply_symm_apply,
      Equiv.apply_symm_apply]

/-- The state after adding the round key `k 0` and running `i` full rounds, the `i`-th of them
ending with the round key `k i`. -/
def roundState (L : Layers V) (k : ℕ → V) (x : V) : ℕ → V
  | 0 => x + k 0
  | i + 1 => L.mix (L.shift (L.sub (roundState L k x i))) + k (i + 1)

/-- The cipher with `n` rounds, of which the last has no mixing layer. -/
def encrypt (L : Layers V) (n : ℕ) (k : ℕ → V) (x : V) : V :=
  L.shift (L.sub (roundState L k x (n - 1))) + k n

/-- The key schedule of the equivalent inverse cipher: the round keys in reverse order, all but
the first and the last of them taken through the inverse mixing. -/
def inverseKeys (L : Layers V) (n : ℕ) (k : ℕ → V) (i : ℕ) : V :=
  if i = 0 ∨ i = n then k (n - i) else L.mix.symm (k (n - i))

/-- The state after `i` rounds reads the round keys `k 0`, …, `k i` only. -/
theorem roundState_congr {L : Layers V} {k k' : ℕ → V} {x : V} {i : ℕ}
    (h : ∀ j ≤ i, k j = k' j) : roundState L k x i = roundState L k' x i := by
  induction i with
  | zero => rw [roundState, roundState, h 0 le_rfl]
  | succ i ih =>
    rw [roundState, roundState, ih fun j hj => h j (hj.trans i.le_succ), h (i + 1) le_rfl]

/-- The cipher with `n` rounds reads the round keys `k 0`, …, `k n` only. -/
theorem encrypt_congr {L : Layers V} {n : ℕ} {k k' : ℕ → V} {x : V}
    (h : ∀ j ≤ n, k j = k' j) : encrypt L n k x = encrypt L n k' x := by
  rw [encrypt, encrypt, roundState_congr fun j hj => h j (hj.trans (n.sub_le 1)), h n le_rfl]

/-- Inverting the key schedule twice gives the round keys back. -/
theorem inverseKeys_symm_inverseKeys (L : Layers V) {n i : ℕ} (k : ℕ → V) (hi : i ≤ n) :
    inverseKeys L.symm n (inverseKeys L n k) i = k i := by
  have hsub : n - (n - i) = i := Nat.sub_sub_self hi
  have hends : (n - i = 0 ∨ n - i = n) ↔ (i = 0 ∨ i = n) := by omega
  simp only [inverseKeys, hends, hsub]
  split_ifs with h
  · rfl
  · exact L.mix.apply_symm_apply _

section ExponentTwo

variable (h2 : ∀ x : V, x + x = 0)
include h2

/-- Adding a round key twice is the identity. -/
theorem add_key_cancel (x k : V) : x + k + k = x := by
  rw [add_assoc, h2, add_zero]

/-- The states of the inverse cipher are those of the cipher in reverse, each taken through the
substitution and the cell permutation of the round that follows it. -/
theorem roundState_symm (L : Layers V) (n : ℕ) (k : ℕ → V) (x : V) :
    ∀ j < n, roundState L.symm (inverseKeys L n k) (encrypt L n k x) j =
      L.shift (L.sub (roundState L k x (n - 1 - j)))
  | 0, _ => by
    rw [roundState, inverseKeys, if_pos (Or.inl rfl), Nat.sub_zero, Nat.sub_zero, encrypt,
      add_key_cancel h2]
  | j + 1, hj => by
    -- a middle round, whose round key went through the inverse mixing
    have hmid : ¬(j + 1 = 0 ∨ j + 1 = n) := by omega
    obtain ⟨m, hm⟩ : ∃ m, n - 1 - j = m + 1 := ⟨n - 1 - j - 1, by omega⟩
    have hkey : n - (j + 1) = m + 1 := by omega
    have hprev : n - 1 - (j + 1) = m := by omega
    rw [roundState, roundState_symm L n k x j (Nat.lt_of_succ_lt hj), inverseKeys, if_neg hmid,
      hkey, hprev, hm]
    -- the inverse layers first undo the substitution and the permutation of the round below
    change L.mix.symm (L.shift.symm (L.sub.symm (L.shift (L.sub (roundState L k x (m + 1))))))
      + L.mix.symm (k (m + 1)) = _
    rw [← L.sub_shift, Equiv.symm_apply_apply, Equiv.symm_apply_apply, ← map_add, roundState,
      add_key_cancel h2, AddEquiv.symm_apply_apply]

/-- The equivalent inverse cipher undoes the cipher. -/
theorem encrypt_symm_encrypt (L : Layers V) {n : ℕ} (hn : 0 < n) (k : ℕ → V) (x : V) :
    encrypt L.symm n (inverseKeys L n k) (encrypt L n k x) = x := by
  rw [encrypt, roundState_symm h2 L n k x (n - 1) (Nat.sub_lt hn one_pos), Nat.sub_self,
    inverseKeys, if_pos (Or.inr rfl), Nat.sub_self]
  change L.shift.symm (L.sub.symm (L.shift (L.sub (roundState L k x 0)))) + k 0 = x
  rw [← L.sub_shift, Equiv.symm_apply_apply, Equiv.symm_apply_apply, roundState,
    add_key_cancel h2]

/-- The cipher undoes the equivalent inverse cipher, which is itself a cipher over the inverse
layers with this one as its inverse. -/
theorem encrypt_encrypt_symm (L : Layers V) {n : ℕ} (hn : 0 < n) (k : ℕ → V) (x : V) :
    encrypt L n k (encrypt L.symm n (inverseKeys L n k) x) = x := by
  have h := encrypt_symm_encrypt h2 L.symm hn (inverseKeys L n k) x
  rw [encrypt_congr fun j hj => inverseKeys_symm_inverseKeys L k hj] at h
  exact h

end ExponentTwo

end KeyAlternating
