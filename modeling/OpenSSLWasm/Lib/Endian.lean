import Mathlib.Data.Nat.Digits.Defs
import Mathlib.Data.Nat.Size
import Mathlib.Tactic.Common
import Mathlib.Tactic.Ring

/-!
# Numbers in a given count of bytes

A number is laid out on a fixed count of bytes, with the lowest byte first or last. What does not
fit is lost. The bytes can be read as a number with a sign or without.

## Main definitions

* `le` and `be`: a number on so many bytes, the lowest byte first, or last;
* `leValue` and `beValue`: the number that some bytes stand for;
* `leInt`: the number with a sign;
* `byteLength`: how many bytes a number takes.

## Main results

* `leValue_le`, `leInt_le`, `beValue_be`: what is read back of a number;
* `le_leValue`, `be_beValue`: bytes are those of the number that they stand for;
* `byteLength_le_iff`: a number takes the least count of bytes that it fits on;
* `be_eq_replicate_append`: on more bytes than it takes, a number has zeros in front.
-/

namespace Endian

/-- The `n` low bytes of a number, the lowest first. -/
def le : ℕ → ℕ → List (BitVec 8)
  | 0, _ => []
  | n + 1, v => BitVec.ofNat 8 v :: le n (v / 256)

/-- The `n` low bytes of a number, the lowest last. -/
def be (n v : ℕ) : List (BitVec 8) := (le n v).reverse

def leValue (bs : List (BitVec 8)) : ℕ := Nat.ofDigits 256 (bs.map BitVec.toNat)

def beValue (bs : List (BitVec 8)) : ℕ := leValue bs.reverse

/-- The number in two's complement, on as many bytes as there are. -/
def leInt (bs : List (BitVec 8)) : ℤ := Int.bmod (leValue bs) (256 ^ bs.length)

@[simp] theorem leValue_nil : leValue [] = 0 := rfl

theorem leValue_cons (b : BitVec 8) (bs : List (BitVec 8)) :
    leValue (b :: bs) = b.toNat + 256 * leValue bs := by
  rw [leValue, List.map_cons, Nat.ofDigits_cons, leValue]

theorem leValue_append (bs cs : List (BitVec 8)) :
    leValue (bs ++ cs) = leValue bs + 256 ^ bs.length * leValue cs := by
  rw [leValue, List.map_append, Nat.ofDigits_append, List.length_map, leValue, leValue]

theorem leValue_lt (bs : List (BitVec 8)) : leValue bs < 256 ^ bs.length := by
  have hlt : ∀ d ∈ bs.map BitVec.toNat, d < 256 := by
    intro d hd
    obtain ⟨b, -, rfl⟩ := List.mem_map.mp hd
    exact b.isLt
  simpa [leValue] using Nat.ofDigits_lt_base_pow_length (by omega) hlt

@[simp] theorem length_le (n v : ℕ) : (le n v).length = n := by
  induction n generalizing v with
  | zero => rfl
  | succ n ih => rw [le, List.length_cons, ih]

@[simp] theorem length_be (n v : ℕ) : (be n v).length = n := by simp [be]

/-- What does not fit is lost. -/
theorem leValue_le (n v : ℕ) : leValue (le n v) = v % 256 ^ n := by
  induction n generalizing v with
  | zero => rw [le, leValue_nil, Nat.pow_zero, Nat.mod_one]
  | succ n ih =>
    have hmod : v % 256 ^ (n + 1) = v % 256 + 256 * (v / 256 % 256 ^ n) := by
      rw [Nat.pow_succ', Nat.mod_mul]
    rw [le, leValue_cons, BitVec.toNat_ofNat, ih, hmod]

theorem leInt_le (n v : ℕ) : leInt (le n v) = Int.bmod v (256 ^ n) := by
  rw [leInt, leValue_le, length_le, Int.natCast_mod]
  exact Int.emod_bmod v (256 ^ n)

theorem le_leValue (bs : List (BitVec 8)) : le bs.length (leValue bs) = bs := by
  induction bs with
  | nil => rfl
  | cons b bs ih =>
    have hb := b.isLt
    have hhead : BitVec.ofNat 8 (leValue (b :: bs)) = b := by
      apply BitVec.eq_of_toNat_eq
      rw [BitVec.toNat_ofNat, leValue_cons]
      omega
    have htail : leValue (b :: bs) / 256 = leValue bs := by
      rw [leValue_cons]
      omega
    rw [List.length_cons, le, hhead, htail, ih]

theorem beValue_be (n v : ℕ) : beValue (be n v) = v % 256 ^ n := by
  rw [beValue, be, List.reverse_reverse, leValue_le]

theorem beValue_cons (b : BitVec 8) (bs : List (BitVec 8)) :
    beValue (b :: bs) = b.toNat * 256 ^ bs.length + beValue bs := by
  rw [beValue, List.reverse_cons, leValue_append, List.length_reverse, leValue_cons, leValue_nil,
    beValue]
  ring

theorem be_beValue (bs : List (BitVec 8)) : be bs.length (beValue bs) = bs := by
  rw [be, beValue, ← List.length_reverse, le_leValue, List.reverse_reverse]

theorem beValue_lt (bs : List (BitVec 8)) : beValue bs < 256 ^ bs.length := by
  simpa [beValue] using leValue_lt bs.reverse

/-- Zeros in front do not count. -/
theorem beValue_replicate_append (k : ℕ) (bs : List (BitVec 8)) :
    beValue (List.replicate k 0 ++ bs) = beValue bs := by
  have hzeros : leValue (List.replicate k 0) = 0 := by
    simp [leValue, Nat.ofDigits_replicate_zero]
  rw [beValue, List.reverse_append, List.reverse_replicate, leValue_append, hzeros, Nat.mul_zero,
    Nat.add_zero, beValue]

/-- Bytes are determined by their count and the number that they stand for. -/
theorem eq_of_beValue_eq {bs cs : List (BitVec 8)} (hlen : bs.length = cs.length)
    (h : beValue bs = beValue cs) : bs = cs := by
  rw [← be_beValue bs, ← be_beValue cs, hlen, h]

/-- On more bytes than it takes, a number has zeros in front. -/
theorem be_add (k : ℕ) {n v : ℕ} (hv : v < 256 ^ n) :
    be (k + n) v = List.replicate k 0 ++ be n v := by
  have hpow : 256 ^ n ≤ 256 ^ (k + n) := Nat.pow_le_pow_right (by omega) (Nat.le_add_left n k)
  apply eq_of_beValue_eq
  · simp
  · rw [beValue_replicate_append, beValue_be, beValue_be, Nat.mod_eq_of_lt hv,
      Nat.mod_eq_of_lt (Nat.lt_of_lt_of_le hv hpow)]

/-! ## The bytes that a number takes -/

/-- No byte for 0. -/
def byteLength (v : ℕ) : ℕ := (Nat.size v + 7) / 8

theorem byteLength_le_iff {v n : ℕ} : byteLength v ≤ n ↔ v < 256 ^ n := by
  have hpow : (256 : ℕ) ^ n = 2 ^ (8 * n) := by rw [Nat.pow_mul]
  rw [hpow, ← Nat.size_le, byteLength]
  omega

theorem lt_pow_byteLength (v : ℕ) : v < 256 ^ byteLength v := byteLength_le_iff.mp le_rfl

theorem byteLength_beValue_le (bs : List (BitVec 8)) : byteLength (beValue bs) ≤ bs.length :=
  byteLength_le_iff.mpr (beValue_lt bs)

theorem be_eq_replicate_append {n v : ℕ} (h : byteLength v ≤ n) :
    be n v = List.replicate (n - byteLength v) 0 ++ be (byteLength v) v := by
  rw [← be_add _ (lt_pow_byteLength v), Nat.sub_add_cancel h]

/-- A number is read back from bytes that it fits on. -/
theorem beValue_be_of_byteLength_le {n v : ℕ} (h : byteLength v ≤ n) : beValue (be n v) = v := by
  rw [beValue_be, Nat.mod_eq_of_lt (byteLength_le_iff.mp h)]

end Endian
