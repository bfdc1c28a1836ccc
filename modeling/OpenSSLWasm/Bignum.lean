import OpenSSLWasm.Hex

/-!
# BIGNUMs

The constructors of the `bignum` interface from numbers and from strings, and the calls that print a
`BIGNUM`, as in `src/bignum.c`. A `BIGNUM` is an integer here.

## Main definitions

* `Platform`: where the component is built for, which decides the width of `BN_ULONG`;
* `bnFromU64`: the constructor from a number;
* `bnFromDec`, `bnFromHex`, `bnToDec` and `bnToHex`: the conversions from and to strings;
* `ReadsWhole`: a string is read as the integer that it denotes as a whole, or refused.

## Main results

* `bnFromU64_eq`: no bit of the number is lost, whatever the platform;
* `readsWhole_iff`: the strings that are read as they should, and the round trips.
-/

namespace OpenSSLWasm.Bignum

/-! ## Words -/

/-- The platforms that differ in `BN_ULONG`. -/
inductive Platform
  | wasm32
  | lp64
  deriving DecidableEq, Repr

/-- The bits of a `BN_ULONG`. -/
def Platform.bnUlongBits : Platform → ℕ
  | .wasm32 => 32
  | .lp64 => 64

/-- `BN_set_word`. -/
def bnSetWord {P : Platform} (w : BitVec P.bnUlongBits) : ℤ := w.toNat

/-- The conversion of a `uint64_t` to `BN_ULONG`. -/
def toBnUlong (P : Platform) (v : BitVec 64) : BitVec P.bnUlongBits := v.setWidth P.bnUlongBits

/-- `bn.from-u64`. -/
def bnFromU64 (P : Platform) (v : BitVec 64) : ℤ :=
  let bn := bnSetWord (toBnUlong P v)
  -- `sizeof(BN_ULONG) < sizeof(uint64_t)`, and there is a high half
  if P.bnUlongBits / 8 < 64 / 8 ∧ v >>> 32 ≠ 0 then
    let hi := bnSetWord (toBnUlong P (v >>> 32))
    let hi := hi * 2 ^ 32
    bn + hi
  else bn

/-- A word is set to the value, unless it has bits that the platform's `BN_ULONG` does not have. -/
theorem bnSetWord_toBnUlong (P : Platform) (v : BitVec 64) :
    bnSetWord (toBnUlong P v) = (v.toNat % 2 ^ P.bnUlongBits : ℕ) := by
  rw [bnSetWord, toBnUlong, BitVec.toNat_setWidth]

/-- The word is the value where it fits. -/
theorem bnSetWord_toBnUlong_eq_iff (P : Platform) (v : BitVec 64) :
    bnSetWord (toBnUlong P v) = v.toNat ↔ P = .lp64 ∨ v.toNat < 2 ^ 32 := by
  have hv := v.isLt
  rw [bnSetWord_toBnUlong]
  cases P with
  | wasm32 => simp only [Platform.bnUlongBits, reduceCtorEq, false_or]; omega
  | lp64 => simp only [Platform.bnUlongBits, true_or, iff_true]; omega

/-- The `BIGNUM` is the number, whatever the platform. -/
theorem bnFromU64_eq (P : Platform) (v : BitVec 64) : bnFromU64 P v = v.toNat := by
  have hv := v.isLt
  have hshift : (v >>> 32).toNat = v.toNat / 2 ^ 32 := by
    rw [BitVec.toNat_ushiftRight, Nat.shiftRight_eq_div_pow]
  have hzero : v >>> 32 ≠ 0 ↔ v.toNat / 2 ^ 32 ≠ 0 := by
    rw [← hshift, ne_eq, ← BitVec.toNat_inj]
    rfl
  simp only [bnFromU64, hzero, bnSetWord_toBnUlong, hshift]
  split_ifs with hhigh
  · cases P with
    -- the two halves are added
    | wasm32 => simp only [Platform.bnUlongBits]; omega
    | lp64 => exact absurd hhigh.1 (by decide)
  · cases P with
    | wasm32 =>
      have hlow : v.toNat / 2 ^ 32 = 0 := by
        by_contra h
        exact hhigh ⟨by decide, h⟩
      simp only [Platform.bnUlongBits]
      omega
    | lp64 => simp only [Platform.bnUlongBits]; omega

/-! ## Decimal strings -/

/-- The value of a decimal digit. -/
def decDigit (b : Byte) : Option ℕ :=
  if 48 ≤ b.toNat ∧ b.toNat ≤ 57 then some (b.toNat - 48) else none

/-- The digit for a value. -/
def decSymbol (d : ℕ) : Byte := BitVec.ofNat 8 (48 + d)

theorem decDigit_decSymbol : ∀ d < 10, decDigit (decSymbol d) = some d := by decide

/-- Decimal numerals. -/
def decNumerals : Numerals Byte where
  base := 10
  digit := decDigit
  minus := 45
  digit_minus := by decide

theorem decNumerals_nulFree : NulFree decNumerals := ⟨by decide, by decide⟩

/-- `BN_dec2bn`: the number of characters that were read, and the integer. -/
def bnDec2bn (s : List Byte) : ℕ × ℤ := decNumerals.parsePrefix s

/-- `BN_bn2dec`: no leading zeros. -/
def bnBn2dec (z : ℤ) : List Byte :=
  if z = 0 then [48]
  else (if z < 0 then [decNumerals.minus] else []) ++
    Numerals.write (fun d => [decSymbol d]) (Nat.digits 10 z.natAbs).reverse

/-- What `BN_bn2dec` writes is a numeral for the number. -/
theorem denotes_bnBn2dec (z : ℤ) : decNumerals.Denotes (bnBn2dec z) z := by
  have hvalue : ∀ d < 10, decNumerals.value [decSymbol d] = d := by decide
  have hunsigned : ∀ d < 10, decNumerals.IsUnsigned [decSymbol d] := by
    refine fun d hd => ⟨List.cons_ne_nil _ _, fun c hc => ?_⟩
    rw [List.mem_singleton.mp hc]
    show (decDigit (decSymbol d)).isSome = true
    rw [decDigit_decSymbol d hd]
    rfl
  by_cases hz : z = 0
  · -- zero has a digit, and no sign
    subst hz
    exact Or.inl ⟨hunsigned 0 (by decide), rfl⟩
  · rw [bnBn2dec, if_neg hz]
    exact Numerals.denotes_write (k := 1) (by decide) (fun _ _ => rfl) hvalue hunsigned hz

/-! ## Strings -/

/-- `bn-error`. -/
inductive BnError
  | parseFailed
  | divByZero
  | notInvertible
  | outOfRange
  | internal (code : BitVec 32)
  deriving DecidableEq, Repr

/-- `bn.from-dec`. -/
def bnFromDec (s : List Byte) : Except BnError ℤ :=
  -- `rc` is the number of characters that were read, and there is no `BIGNUM` if it is 0
  let (rc, bn) := bnDec2bn (cString (s ++ [0]))
  if rc = 0 then .error .parseFailed else .ok bn

/-- `bn.from-hex`. -/
def bnFromHex (s : List Byte) : Except BnError ℤ :=
  let (rc, bn) := bnHex2bn (cString (s ++ [0]))
  if rc = 0 then .error .parseFailed else .ok bn

/-- `bn.to-dec`. -/
def bnToDec (bn : ℤ) : List Byte := bnBn2dec bn

/-- `bn.to-hex`. -/
def bnToHex (bn : ℤ) : List Byte := bnBn2hex bn

/-- The string is read as the integer that it denotes as a whole, and refused if it denotes none. -/
def ReadsWhole (N : Numerals Byte) (fromString : List Byte → Except BnError ℤ) (s : List Byte) :
    Prop :=
  ∀ z, fromString s = .ok z ↔ N.Denotes s z

theorem bnFromDec_eq (s : List Byte) :
    bnFromDec s = orError (decNumerals.readFront (cString s)) .parseFailed := by
  rw [bnFromDec, cString_append_nul, Numerals.readFront, bnDec2bn]
  by_cases h : (decNumerals.parsePrefix (cString s)).1 = 0 <;> simp [h, orError]

theorem bnFromHex_eq (s : List Byte) :
    bnFromHex s = orError (hexNumerals.readFront (cString s)) .parseFailed := by
  rw [bnFromHex, cString_append_nul, Numerals.readFront, bnHex2bn]
  by_cases h : (hexNumerals.parsePrefix (cString s)).1 = 0 <;> simp [h, orError]

theorem readsWhole_dec_iff (s : List Byte) :
    ReadsWhole decNumerals bnFromDec s ↔
      (∃ z, decNumerals.Denotes s z) ∨ ¬decNumerals.AtFront s := by
  simp only [ReadsWhole, bnFromDec_eq, orError_eq_ok]
  exact readFront_cString_whole_iff decNumerals_nulFree

theorem readsWhole_hex_iff (s : List Byte) :
    ReadsWhole hexNumerals bnFromHex s ↔
      (∃ z, hexNumerals.Denotes s z) ∨ ¬hexNumerals.AtFront s := by
  simp only [ReadsWhole, bnFromHex_eq, orError_eq_ok]
  exact readFront_cString_whole_iff hexNumerals_nulFree

/-- A numeral is read as the number it denotes. -/
theorem bnFromDec_of_denotes {s : List Byte} {z : ℤ} (h : decNumerals.Denotes s z) :
    bnFromDec s = .ok z := by
  rw [bnFromDec_eq, decNumerals_nulFree.cString_eq h, Numerals.readFront_of_denotes h, orError]

theorem bnFromHex_of_denotes {s : List Byte} {z : ℤ} (h : hexNumerals.Denotes s z) :
    bnFromHex s = .ok z := by
  rw [bnFromHex_eq, hexNumerals_nulFree.cString_eq h, Numerals.readFront_of_denotes h, orError]

/-- A string is read as it should exactly if as a whole it is an integer, or has none at the front.
What is printed is read back as the same number. -/
theorem readsWhole_iff (s : List Byte) (z : ℤ) :
    (ReadsWhole decNumerals bnFromDec s ↔
        (∃ y, decNumerals.Denotes s y) ∨ ¬decNumerals.AtFront s) ∧
      (ReadsWhole hexNumerals bnFromHex s ↔
        (∃ y, hexNumerals.Denotes s y) ∨ ¬hexNumerals.AtFront s) ∧
      bnFromDec (bnToDec z) = .ok z ∧ bnFromHex (bnToHex z) = .ok z :=
  ⟨readsWhole_dec_iff s, readsWhole_hex_iff s, bnFromDec_of_denotes (denotes_bnBn2dec z),
    bnFromHex_of_denotes (denotes_bnBn2hex z)⟩

/-- `12x` is read as 12, and `0x10` as 0. -/
theorem not_readsWhole_junk :
    ¬ReadsWhole decNumerals bnFromDec (ascii "12x") ∧
      ¬ReadsWhole hexNumerals bnFromHex (ascii "0x10") := by
  -- the letter is no part of a numeral
  constructor
  · intro h
    rcases ((h 12).mp (by decide)).mem (c := 120) (by decide) with hc | hc
    · exact absurd hc (by decide)
    · exact absurd hc (by decide)
  · intro h
    rcases ((h 0).mp (by decide)).mem (c := 120) (by decide) with hc | hc
    · exact absurd hc (by decide)
    · exact absurd hc (by decide)

end OpenSSLWasm.Bignum
