import OpenSSLWasm.Hex

/-!
# Revocation lists

`crl.info` reports the serial numbers of a CRL in hexadecimal, `crl.is-revoked` looks one up that
is given in hexadecimal. The functions of `src/x509.c` model these, and this file states how they
should fit together.

## Main definitions

* `Crl`: a revocation list of libcrypto;
* `crlInfo` and `crlIsRevoked`: the calls;
* `LookupFaithful`: a string is looked up as the integer that it denotes as a whole, or not at all.

## Main results

* `crlIsRevoked_eq_true`: what is looked up;
* `lookupFaithful_iff`: the strings that are looked up as they should.
-/

namespace OpenSSLWasm.X509

/-! ## Revocation lists -/

/-- `X509_REVOKED`, over a type `τ` of times. -/
structure Revoked (τ : Type) where
  serialNumber : ℤ
  revocationDate : τ

/-- `X509_CRL`, over types `ν` of names and `τ` of times. -/
structure Crl (ν τ : Type) where
  issuer : ν
  lastUpdate : τ
  nextUpdate : Option τ
  revoked : List (Revoked τ)

/-- `revoked-entry`, whose reason is never reported. -/
structure RevokedEntry where
  serialHex : List Byte
  revocationDate : List Byte
  reason : Option (List Byte)
  deriving DecidableEq

/-- `crl-info`, over a type `β` of lists of name entries. -/
structure CrlInfo (β : Type) where
  issuer : β
  thisUpdate : List Byte
  nextUpdate : Option (List Byte)
  revoked : List RevokedEntry

/-- `crl.info`, given how names and times are rendered. -/
def crlInfo {ν τ β : Type} (nameToList : ν → β) (asn1TimeToIso : τ → List Byte)
    (c : Crl ν τ) : CrlInfo β where
  issuer := nameToList c.issuer
  thisUpdate := asn1TimeToIso c.lastUpdate
  nextUpdate := c.nextUpdate.map asn1TimeToIso
  revoked := c.revoked.map fun r =>
    { serialHex := bnBn2hex r.serialNumber
      revocationDate := asn1TimeToIso r.revocationDate
      reason := none }

/-- The loop of `crl.is-revoked` through the entries. -/
def findSerial {τ : Type} (ai : ℤ) : List (Revoked τ) → Bool
  | [] => false
  | r :: rs => if r.serialNumber = ai then true else findSerial ai rs

/-- `crl.is-revoked`; the string is copied and ended with a NUL. -/
def crlIsRevoked {ν τ : Type} (c : Crl ν τ) (serialHex : List Byte) : Bool :=
  -- `ok` is the number of characters that were read, not a flag
  let (ok, bn) := bnHex2bn (cString serialHex)
  if ok = 0 then false else findSerial bn c.revoked

/-! ## The lookup -/

theorem findSerial_eq_true {τ : Type} {ai : ℤ} {rs : List (Revoked τ)} :
    findSerial ai rs = true ↔ ∃ r ∈ rs, r.serialNumber = ai := by
  induction rs with
  | nil => simp [findSerial]
  | cons r rs ih =>
    by_cases h : r.serialNumber = ai <;> simp [findSerial, h, ih]

section

variable {ν τ β : Type} {c : Crl ν τ} {s : List Byte}

/-- What is looked up: the numeral at the front of the string, up to a NUL. -/
theorem crlIsRevoked_eq_true :
    crlIsRevoked c s = true ↔
      ∃ z, hexNumerals.readFront (cString s) = some z ∧ ∃ r ∈ c.revoked, r.serialNumber = z := by
  show (if (bnHex2bn (cString s)).1 = 0 then false
    else findSerial (bnHex2bn (cString s)).2 c.revoked) = true ↔ _
  rw [Numerals.readFront, ← bnHex2bn]
  by_cases h : (bnHex2bn (cString s)).1 = 0
  · simp [h]
  · rw [if_neg h, if_neg h, findSerial_eq_true]
    simp only [Option.some.injEq, exists_eq_left']

/-- A string is answered for with true only under an integer that a numeral at its front denotes,
and that is the serial number of a revoked entry. -/
theorem exists_denotes_take_of_crlIsRevoked (h : crlIsRevoked c s = true) :
    ∃ n z, hexNumerals.Denotes ((cString s).take n) z ∧ ∃ r ∈ c.revoked, r.serialNumber = z := by
  obtain ⟨z, hz, hr⟩ := crlIsRevoked_eq_true.mp h
  exact ⟨_, z, Numerals.denotes_take_of_readFront hz, hr⟩

/-- The serial number that an entry of `crl.info` denotes is that of the entry in the list. -/
theorem exists_denotes_crlInfo (nameToList : ν → β) (asn1TimeToIso : τ → List Byte) {z : ℤ} :
    (∃ e ∈ (crlInfo nameToList asn1TimeToIso c).revoked, hexNumerals.Denotes e.serialHex z) ↔
      ∃ r ∈ c.revoked, r.serialNumber = z := by
  simp only [crlInfo, List.mem_map]
  constructor
  · rintro ⟨e, ⟨r, hr, rfl⟩, hz⟩
    exact ⟨r, hr, (denotes_bnBn2hex r.serialNumber).unique hz⟩
  · rintro ⟨r, hr, rfl⟩
    exact ⟨_, ⟨r, hr, rfl⟩, denotes_bnBn2hex r.serialNumber⟩

end

/-- Whatever the list, and however names and times are rendered: the string is answered for with
true exactly if as a whole it denotes a serial number that `crl.info` reports. -/
def LookupFaithful (s : List Byte) : Prop :=
  ∀ (ν τ β : Type) (nameToList : ν → β) (asn1TimeToIso : τ → List Byte) (c : Crl ν τ),
    crlIsRevoked c s = true ↔
      ∃ z, hexNumerals.Denotes s z ∧
        ∃ e ∈ (crlInfo nameToList asn1TimeToIso c).revoked, hexNumerals.Denotes e.serialHex z

/-- The lookup is faithful if the front of the string is read as the string as a whole. -/
theorem lookupFaithful_iff_readFront {s : List Byte} :
    LookupFaithful s ↔
      ∀ z, hexNumerals.readFront (cString s) = some z ↔ hexNumerals.Denotes s z := by
  constructor
  · intro h z
    -- a list with just that serial number
    have hz := h Unit Unit Unit id (fun _ => [])
      { issuer := ()
        lastUpdate := ()
        nextUpdate := none
        revoked := [{ serialNumber := z, revocationDate := () }] }
    simpa only [crlIsRevoked_eq_true, exists_denotes_crlInfo, List.mem_singleton, exists_eq_left,
      exists_eq_right'] using hz
  · intro h ν τ β nameToList asn1TimeToIso c
    simp only [crlIsRevoked_eq_true, exists_denotes_crlInfo, h]

/-- A string is looked up as it should exactly if as a whole it is a hexadecimal integer, or has
none at the front, up to a NUL. -/
theorem lookupFaithful_iff (s : List Byte) :
    LookupFaithful s ↔
      (∃ z, hexNumerals.Denotes s z) ∨ (bnHex2bn (cString s)).1 = 0 := by
  rw [lookupFaithful_iff_readFront, readFront_cString_whole_iff hexNumerals_nulFree,
    ← hexNumerals_nulFree.atFront_cString, ← Numerals.parsePrefix_fst_eq_zero_iff]
  rfl

/-- The serial number 10 written as `0A:FF`: it is looked up as the integer 10. -/
theorem not_lookupFaithful_separator : ¬LookupFaithful [48, 65, 58, 70, 70] := by
  intro h
  obtain ⟨z, hz, -⟩ := (h Unit Unit Unit id (fun _ => [])
    { issuer := ()
      lastUpdate := ()
      nextUpdate := none
      revoked := [{ serialNumber := 10, revocationDate := () }] }).mp (by decide)
  -- the colon is no part of a numeral
  rcases hz.mem (c := 58) (by decide) with hc | hc
  · exact absurd hc (by decide)
  · exact absurd hc (by decide)

end OpenSSLWasm.X509
