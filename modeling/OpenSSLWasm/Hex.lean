import OpenSSLWasm.Lib.Numeral
import OpenSSLWasm.Support

/-!
# Hexadecimal BIGNUMs

The conversions between `BIGNUM`s and hexadecimal strings that libcrypto offers, on strings of
bytes.

## Main definitions

* `NulFree`: the numerals have no NUL, so that they can be C strings;
* `hexNumerals`: the digits of base sixteen, of either case;
* `bnHex2bn` and `bnBn2hex`: `BN_hex2bn` and `BN_bn2hex`.

## Main results

* `readFront_cString_whole_iff`: which copied strings are read as the number that they denote;
* `denotes_bnBn2hex`: what `BN_bn2hex` writes is a numeral for the number.
-/

namespace OpenSSLWasm

/-! ## Numerals in C strings -/

section

variable {N : Numerals Byte} {s : List Byte} {z : ℤ}

/-- NUL is neither a digit nor the sign. -/
structure NulFree (N : Numerals Byte) : Prop where
  isDigit_nul : N.isDigit 0 = false
  minus_ne : N.minus ≠ 0

theorem NulFree.not_mem (hN : NulFree N) (h : N.Denotes s z) : 0 ∉ s := by
  intro hmem
  rcases h.mem hmem with h0 | h0
  · exact hN.minus_ne h0.symm
  · rw [hN.isDigit_nul] at h0
    cases h0

/-- Ending a copy with a NUL keeps a numeral. -/
theorem NulFree.cString_eq (hN : NulFree N) (h : N.Denotes s z) : cString s = s :=
  cString_of_not_mem (hN.not_mem h)

/-- A numeral at the front comes before any NUL. -/
theorem NulFree.atFront_cString (hN : NulFree N) : N.AtFront (cString s) ↔ N.AtFront s := by
  constructor
  · rintro ⟨n, z, hz⟩
    have htake : cString s = s.take (cString s).length :=
      List.prefix_iff_eq_take.mp (List.takeWhile_prefix _)
    rw [htake, List.take_take] at hz
    exact ⟨_, z, hz⟩
  · rintro ⟨n, z, hz⟩
    have hfront : ∀ b ∈ s.take n, decide (b ≠ 0) = true := by
      rintro b hb
      rw [decide_eq_true_eq]
      rintro rfl
      exact hN.not_mem hz hb
    have hcut : cString s = s.take n ++ cString (s.drop n) := by
      conv_lhs => rw [cString, ← List.take_append_drop n s]
      exact List.takeWhile_append_of_pos hfront
    refine ⟨(s.take n).length, z, ?_⟩
    rwa [hcut, List.take_left]

/-- A copy that ends with a NUL is read as the number that the string denotes as a whole, or not at
all, exactly if the string is a numeral or has none at the front. -/
theorem readFront_cString_whole_iff (hN : NulFree N) :
    (∀ z, N.readFront (cString s) = some z ↔ N.Denotes s z) ↔
      (∃ z, N.Denotes s z) ∨ ¬N.AtFront s := by
  constructor
  · intro h
    cases hs : N.readFront (cString s) with
    | none => exact Or.inr (hN.atFront_cString.not.mp (Numerals.readFront_eq_none_iff.mp hs))
    | some z => exact Or.inl ⟨z, (h z).mp hs⟩
  · rintro (⟨y, hy⟩ | hfront)
    · rw [hN.cString_eq hy]
      exact Numerals.readFront_whole_iff.mpr (Or.inl ⟨y, hy⟩)
    · intro z
      rw [Numerals.readFront_eq_none_iff.mpr (hN.atFront_cString.not.mpr hfront)]
      constructor
      · intro h
        cases h
      · exact fun hz => absurd hz.atFront hfront

end

/-! ## Hexadecimal numerals -/

/-- The value of a hexadecimal digit. -/
def hexDigit (b : Byte) : Option ℕ :=
  let n := b.toNat
  -- `0` to `9`, `A` to `F`, `a` to `f`
  if 48 ≤ n ∧ n ≤ 57 then some (n - 48)
  else if 65 ≤ n ∧ n ≤ 70 then some (n - 55)
  else if 97 ≤ n ∧ n ≤ 102 then some (n - 87)
  else none

/-- The digit that libcrypto writes for a value. -/
def hexSymbol (d : ℕ) : Byte := BitVec.ofNat 8 (if d < 10 then 48 + d else 55 + d)

theorem hexDigit_hexSymbol : ∀ d < 16, hexDigit (hexSymbol d) = some d := by decide

/-- Hexadecimal numerals: base sixteen, digits of either case, and the minus sign. -/
def hexNumerals : Numerals Byte where
  base := 16
  digit := hexDigit
  minus := 45
  digit_minus := by decide

theorem hexNumerals_nulFree : NulFree hexNumerals := ⟨by decide, by decide⟩

/-- `BN_hex2bn`: the number of characters that were read, and the integer. -/
def bnHex2bn (s : List Byte) : ℕ × ℤ := hexNumerals.parsePrefix s

/-- The two digits of a byte. -/
def hexPair (d : ℕ) : List Byte := [hexSymbol (d / 16), hexSymbol (d % 16)]

/-- `BN_bn2hex`: two digits for each byte, the most significant first. -/
def bnBn2hex (z : ℤ) : List Byte :=
  if z = 0 then [48]
  else (if z < 0 then [hexNumerals.minus] else []) ++
    Numerals.write hexPair (Nat.digits 256 z.natAbs).reverse

theorem value_hexPair {d : ℕ} (hd : d < 256) : hexNumerals.value (hexPair d) = d := by
  have hhigh : hexDigit (hexSymbol (d / 16)) = some (d / 16) := hexDigit_hexSymbol _ (by omega)
  have hlow : hexDigit (hexSymbol (d % 16)) = some (d % 16) := hexDigit_hexSymbol _ (by omega)
  simp only [Numerals.value, hexPair, List.foldl_cons, List.foldl_nil, hexNumerals, hhigh, hlow,
    Option.getD_some]
  omega

theorem isUnsigned_hexPair {d : ℕ} (hd : d < 256) : hexNumerals.IsUnsigned (hexPair d) where
  ne_nil := List.cons_ne_nil _ _
  digits c hc := by
    have hdigit : ∀ e < 16, hexNumerals.isDigit (hexSymbol e) = true := by
      intro e he
      show (hexDigit (hexSymbol e)).isSome = true
      rw [hexDigit_hexSymbol e he]
      rfl
    rcases List.mem_cons.mp hc with rfl | hc
    · exact hdigit _ (by omega)
    · rw [List.mem_singleton.mp hc]
      exact hdigit _ (by omega)

/-- What `BN_bn2hex` writes is a numeral for the number. -/
theorem denotes_bnBn2hex (z : ℤ) : hexNumerals.Denotes (bnBn2hex z) z := by
  by_cases hz : z = 0
  · subst hz
    refine Or.inl ⟨⟨by decide, ?_⟩, rfl⟩
    decide
  · rw [bnBn2hex, if_neg hz]
    -- libcrypto writes whole bytes, so the digits are those of base 256
    exact Numerals.denotes_write (k := 2) (by decide) (fun _ _ => rfl) (fun _ => value_hexPair)
      (fun _ => isUnsigned_hexPair) hz

end OpenSSLWasm
