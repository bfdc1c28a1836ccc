import OpenSSLWasm.Bignum
import OpenSSLWasm.Lib.Endian
import OpenSSLWasm.X509.Serial

/-!
# BIGNUMs as bytes

`bn.from-be-bytes` and `bn.to-be-bytes` of `src/bignum.c`. The length to pad to is a `u32`. It is
compared as such and then given to libcrypto as an `int`, and what libcrypto answers is not looked at.

## Main definitions

* `bnBn2binpad`, `bnFromBeBytes` and `bnToBeBytes`: the code, with what libcrypto writes to memory;
* `PadsTo`: a number is written on the right count of bytes, all of them written, and can be read
  back;
* `RoundTrips`: a list is read and written as it is.

## Main results

* `refuses_iff`: when libcrypto refuses to write;
* `padsTo_and_roundTrips_iff`: exactly then something goes wrong.
-/

namespace OpenSSLWasm.Bignum

open Endian

/-! ## The code -/

/-- `BN_num_bytes`. -/
def bnNumBytes (bn : ℤ) : ℕ := byteLength bn.natAbs

@[simp] theorem bnNumBytes_natCast (x : ℕ) : bnNumBytes x = byteLength x := rfl

/-- `BN_bn2binpad`: what it returns, and the memory `mem` after it. -/
def bnBn2binpad (bn : ℤ) (mem : Ptr) (tolen : ℤ) : ℤ × Ptr :=
  if tolen < 0 ∨ tolen < bnNumBytes bn then (-1, mem)
  else (tolen, fun i => (be tolen.toNat bn.natAbs).getD i (mem i))

section

-- what `BN_bin2bn` gives for a negative length
variable (bin2bnNegative : Ptr → ℤ → Option ℤ)

/-- `bn.from-be-bytes`, if it does not abort. -/
def bnFromBeBytes (bytes : ListU8) : Option ℤ :=
  let len := cInt bytes.len
  if len < 0 then bin2bnNegative bytes.ptr len
  else some (X509.bnBin2bn (readBytes bytes.ptr len.toNat))

/-- `out_len`. -/
def toBeBytesLen (self : ℤ) (maybePadTo : Option (BitVec 32)) : ℤ :=
  let nat := cInt (bnNumBytes self)
  match maybePadTo with
  | some padTo => if BitVec.ofInt 32 nat < padTo then padTo.toInt else nat
  | none => nat

/-- `bn.to-be-bytes`, with `mem` in the memory that is allocated for it. -/
def bnToBeBytes (mem : Ptr) (self : ℤ) (maybePadTo : Option (BitVec 32)) : ListU8 :=
  let outLen := toBeBytesLen self maybePadTo
  { ptr := (bnBn2binpad self mem outLen).2
    len := (BitVec.ofInt 32 outLen).toNat
    len_lt := BitVec.isLt _ }

/-- The length to pad to, or 0. -/
def padLen (maybePadTo : Option (BitVec 32)) : ℕ := (maybePadTo.map BitVec.toNat).getD 0

/-- The bytes of a number, with zeros in front of them. -/
def paddedBytes (x : ℕ) (maybePadTo : Option (BitVec 32)) : List Byte :=
  List.replicate (padLen maybePadTo - bnNumBytes x) 0 ++ be (bnNumBytes x) x

/-- The bytes are those of the number, whatever was in the memory, and can be read back. -/
structure PadsTo (x : ℕ) (maybePadTo : Option (BitVec 32)) : Prop where
  len_eq : ∀ mem, (bnToBeBytes mem x maybePadTo).len = max (bnNumBytes x) (padLen maybePadTo)
  bytes_eq : ∀ mem, (bnToBeBytes mem x maybePadTo).bytes = paddedBytes x maybePadTo
  back : ∀ mem, bnFromBeBytes bin2bnNegative (bnToBeBytes mem x maybePadTo) = some (x : ℤ)

/-- A list is read, and padded to its length it is written as it was. -/
def RoundTrips (b : ListU8) : Prop :=
  ∃ bn, bnFromBeBytes bin2bnNegative b = some bn ∧
    ∀ mem, (bnToBeBytes mem bn (some (BitVec.ofNat 32 b.len))).bytes = b.bytes

/-! ## What is written -/

variable {bin2bnNegative}

/-- `BN_bin2bn` reads big-endian bytes. -/
theorem bnBin2bn_eq_beValue (bs : List Byte) : X509.bnBin2bn bs = beValue bs := by
  induction bs with
  | nil => rfl
  | cons b bs ih =>
    rw [X509.bnBin2bn_cons, ih, beValue_cons]

theorem bnFromBeBytes_of_lt {b : ListU8} (h : b.len < 2 ^ 31) :
    bnFromBeBytes bin2bnNegative b = some (beValue b.bytes : ℤ) := by
  have hlen := cInt_of_lt h
  simp only [bnFromBeBytes, hlen]
  rw [if_neg (by omega), Int.toNat_natCast, ← ListU8.bytes, bnBin2bn_eq_beValue]

/-- Both lengths must be less than `2 ^ 31`, and then the larger one is used. -/
theorem toBeBytesLen_of_lt {bn : ℤ} {maybePadTo : Option (BitVec 32)}
    (hbn : bnNumBytes bn < 2 ^ 31) (hpad : padLen maybePadTo < 2 ^ 31) :
    toBeBytesLen bn maybePadTo = (max (bnNumBytes bn) (padLen maybePadTo) : ℕ) := by
  have hnat := cInt_of_lt hbn
  rcases maybePadTo with _ | padTo
  · simp [toBeBytesLen, padLen, hnat]
  · have hpad : padTo.toNat < 2 ^ 31 := hpad
    have hint : padTo.toInt = padTo.toNat := BitVec.toInt_eq_toNat_of_lt (by omega)
    -- the comparison is one of `uint32_t`, and both lengths are in its range
    have hlt : BitVec.ofInt 32 (bnNumBytes bn : ℤ) < padTo ↔ bnNumBytes bn < padTo.toNat := by
      rw [BitVec.lt_def, BitVec.toNat_ofInt]
      omega
    simp only [toBeBytesLen, hnat, hlt, hint, padLen, Option.map_some, Option.getD_some]
    split_ifs <;> omega

/-- libcrypto refuses the length exactly if one of the two is not less than `2 ^ 31`. -/
theorem refuses_iff (bn : ℤ) (maybePadTo : Option (BitVec 32)) :
    (toBeBytesLen bn maybePadTo < 0 ∨ toBeBytesLen bn maybePadTo < bnNumBytes bn) ↔
      ¬(bnNumBytes bn < 2 ^ 31 ∧ padLen maybePadTo < 2 ^ 31) := by
  constructor
  · rintro h ⟨hbn, hpad⟩
    rw [toBeBytesLen_of_lt hbn hpad] at h
    omega
  · intro h
    have hnat : cInt (bnNumBytes bn) < 2 ^ 31 := BitVec.toInt_lt
    rcases maybePadTo with _ | padTo
    · simp only [toBeBytesLen, padLen, Option.map_none, Option.getD_none] at h ⊢
      omega
    · simp only [toBeBytesLen, padLen, Option.map_some, Option.getD_some] at h ⊢
      split_ifs with hlt
      · -- an `int` cannot be as large as the length to pad to
        have hint : padTo.toInt < 2 ^ 31 := BitVec.toInt_lt
        by_contra hrefused
        have hpad : padTo.toInt = padTo.toNat := by
          rw [BitVec.toInt_eq_toNat_cond] at hint hrefused ⊢
          split_ifs at hrefused ⊢ <;> omega
        omega
      · -- the length of the number is used, and is at least the one to pad to
        by_contra hrefused
        have hbn : bnNumBytes bn < 2 ^ 31 := by omega
        rw [cInt_of_lt hbn, BitVec.lt_def, BitVec.toNat_ofInt] at hlt
        omega

theorem bnToBeBytes_of_lt (mem : Ptr) {bn : ℤ} {maybePadTo : Option (BitVec 32)}
    (hbn : bnNumBytes bn < 2 ^ 31) (hpad : padLen maybePadTo < 2 ^ 31) :
    (bnToBeBytes mem bn maybePadTo).bytes =
      be (max (bnNumBytes bn) (padLen maybePadTo)) bn.natAbs := by
  have hwrites := mt (refuses_iff bn maybePadTo).mp (not_not.mpr ⟨hbn, hpad⟩)
  simp only [bnToBeBytes, bnBn2binpad, if_neg hwrites, ListU8.bytes]
  rw [toBeBytesLen_of_lt hbn hpad, Int.toNat_natCast, BitVec.toNat_ofInt]
  have hmod : ((max (bnNumBytes bn) (padLen maybePadTo) : ℕ) % (2 ^ 32 : ℕ) : ℤ).toNat =
      (be (max (bnNumBytes bn) (padLen maybePadTo)) bn.natAbs).length := by
    rw [length_be]
    omega
  rw [hmod]
  exact readBytes_getD _ mem

/-- Where libcrypto refuses, the list has whatever was in the memory. -/
theorem bnToBeBytes_of_refuses (mem : Ptr) {bn : ℤ} {maybePadTo : Option (BitVec 32)}
    (h : ¬(bnNumBytes bn < 2 ^ 31 ∧ padLen maybePadTo < 2 ^ 31)) :
    (bnToBeBytes mem bn maybePadTo).bytes =
      readBytes mem (bnToBeBytes mem bn maybePadTo).len := by
  rw [ListU8.bytes, bnToBeBytes]
  simp only [bnBn2binpad, if_pos ((refuses_iff bn maybePadTo).mpr h)]

/-- So nothing is known of a list that is not empty. -/
theorem not_determined_of_refuses {bn : ℤ} {maybePadTo : Option (BitVec 32)} {out : List Byte}
    (h : ¬(bnNumBytes bn < 2 ^ 31 ∧ padLen maybePadTo < 2 ^ 31)) (hout : out.length ≠ 0) :
    ¬∀ mem, (bnToBeBytes mem bn maybePadTo).bytes = out := by
  intro hall
  have hlen : (bnToBeBytes (fun _ => 0) bn maybePadTo).len = out.length := by
    rw [← hall fun _ => 0, ListU8.length_bytes]
  -- two memories that differ everywhere
  have hconst : ∀ c : Byte, List.replicate out.length c = out := by
    intro c
    calc List.replicate out.length c
      _ = readBytes (fun _ => c) out.length := by simp [readBytes]
      _ = (bnToBeBytes (fun _ => c) bn maybePadTo).bytes := by
        rw [bnToBeBytes_of_refuses _ h, ← hlen]
        rfl
      _ = out := hall _
  have heq : List.replicate out.length (0 : Byte) = List.replicate out.length 1 :=
    (hconst 0).trans (hconst 1).symm
  exact absurd ((List.replicate_right_inj hout).mp heq) (by decide)

/-! ## Both ways -/

theorem length_paddedBytes (x : ℕ) (maybePadTo : Option (BitVec 32)) :
    (paddedBytes x maybePadTo).length = max (bnNumBytes x) (padLen maybePadTo) := by
  rw [paddedBytes, List.length_append, List.length_replicate, length_be]
  omega

theorem paddedBytes_eq_be (x : ℕ) (maybePadTo : Option (BitVec 32)) :
    paddedBytes x maybePadTo = be (max (bnNumBytes x) (padLen maybePadTo)) x := by
  have hsub : padLen maybePadTo - byteLength x =
      max (byteLength x) (padLen maybePadTo) - byteLength x := by
    omega
  rw [bnNumBytes_natCast, be_eq_replicate_append (le_max_left (byteLength x) _), paddedBytes,
    bnNumBytes_natCast, hsub]

theorem padsTo_iff (x : ℕ) (maybePadTo : Option (BitVec 32)) :
    PadsTo bin2bnNegative x maybePadTo ↔ bnNumBytes x < 2 ^ 31 ∧ padLen maybePadTo < 2 ^ 31 := by
  constructor
  · intro h
    by_contra hrefuses
    -- one of the lengths is at least `2 ^ 31`, so there are bytes
    refine not_determined_of_refuses hrefuses ?_ h.bytes_eq
    rw [length_paddedBytes]
    omega
  · rintro ⟨hx, hpad⟩
    have hbytes : ∀ mem, (bnToBeBytes mem x maybePadTo).bytes = paddedBytes x maybePadTo := by
      intro mem
      rw [bnToBeBytes_of_lt mem hx hpad, paddedBytes_eq_be, Int.natAbs_natCast]
    have hlen : ∀ mem, (bnToBeBytes mem x maybePadTo).len =
        max (bnNumBytes x) (padLen maybePadTo) := by
      intro mem
      rw [← ListU8.length_bytes, hbytes, length_paddedBytes]
    refine ⟨hlen, hbytes, fun mem => ?_⟩
    have hshort : (bnToBeBytes mem x maybePadTo).len < 2 ^ 31 := by
      rw [hlen]
      omega
    rw [bnFromBeBytes_of_lt hshort, hbytes, paddedBytes_eq_be, bnNumBytes_natCast,
      beValue_be_of_byteLength_le (le_max_left (byteLength x) _)]

theorem roundTrips_bytes_iff (b : ListU8) : RoundTrips bin2bnNegative b ↔ b.len < 2 ^ 31 := by
  have hb := b.len_lt
  have hpad : padLen (some (BitVec.ofNat 32 b.len)) = b.len := by
    rw [padLen, Option.map_some, Option.getD_some, BitVec.toNat_ofNat, Nat.mod_eq_of_lt hb]
  constructor
  · rintro ⟨bn, -, hbytes⟩
    by_contra hlen
    refine not_determined_of_refuses (fun h => hlen (hpad ▸ h.2)) ?_ hbytes
    rw [ListU8.length_bytes]
    omega
  · intro hlen
    have hle : bnNumBytes (beValue b.bytes) ≤ b.len := by
      rw [bnNumBytes_natCast, ← b.length_bytes]
      exact byteLength_beValue_le b.bytes
    -- zeros in front of the list are lost in the number, and padded again
    refine ⟨beValue b.bytes, bnFromBeBytes_of_lt hlen, fun mem => ?_⟩
    rw [bnToBeBytes_of_lt mem (by omega) (by omega), hpad, max_eq_right hle, Int.natAbs_natCast,
      ← b.length_bytes, be_beValue]

variable (bin2bnNegative)

/-- A number is written as it should be exactly if it and the length to pad to take fewer than
`2 ^ 31` bytes, and a list is read and written exactly if it is that short. -/
theorem padsTo_and_roundTrips_iff :
    (∀ (x : ℕ) (maybePadTo : Option (BitVec 32)),
      PadsTo bin2bnNegative x maybePadTo ↔
        bnNumBytes x < 2 ^ 31 ∧ padLen maybePadTo < 2 ^ 31) ∧
      ∀ b : ListU8, RoundTrips bin2bnNegative b ↔ b.len < 2 ^ 31 :=
  ⟨padsTo_iff, roundTrips_bytes_iff⟩

end

/-- Nothing is written of 258, padded to `2 ^ 31` bytes. -/
theorem not_padsTo_258 : ¬PadsTo (fun _ _ => none) 258 (some 0x80000000) := by
  intro h
  refine not_determined_of_refuses (fun hlt => absurd hlt.2 (by decide)) ?_ h.bytes_eq
  rw [length_paddedBytes]
  decide

end OpenSSLWasm.Bignum
