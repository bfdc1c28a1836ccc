import OpenSSLWasm.X509.VerifyChain

/-!
# PKCS#12 bundles

`pkcs12-build` in `src/x509_build.c` and `pkcs12-parse` in `src/x509.c`. Both copy the passphrase,
add a NUL, and hand it to libcrypto as a C string.

## Main definitions

* `Pkcs12Lib` and `Pkcs12Lib.Documented`: the calls of libcrypto, and what they promise;
* `pkcs12Build` and `pkcs12Parse`: the calls of the interface.

## Main results

* `pkcs12Parse_of_build`: what another passphrase finds in a bundle;
* `opensOnlyWith_iff`: a bundle tells two passphrases apart exactly if they differ before their
  first NUL.
-/

namespace OpenSSLWasm.X509

/-- `pkcs12-build-input`, over types of keys and certificates. -/
structure Pkcs12BuildInput (κ C : Type) where
  friendlyName : Option (List Byte) := none
  key : κ
  cert : C
  extraCerts : List C := []
  passphrase : ListU8

/-- `pkcs12-contents`. -/
structure Pkcs12Contents (κ C : Type) where
  key : Option κ
  cert : Option C
  extraCerts : List C
  deriving DecidableEq

/-- What was put into a bundle. -/
def Pkcs12BuildInput.contents {κ C : Type} (input : Pkcs12BuildInput κ C) : Pkcs12Contents κ C where
  key := some input.key
  cert := some input.cert
  extraCerts := input.extraCerts

/-- The calls of libcrypto, over a type of `PKCS12` objects. Strings are given without their NUL. -/
structure Pkcs12Lib (P κ C : Type) where
  /-- `PKCS12_create`, with the default algorithms and iterations. -/
  create : List Byte → Option (List Byte) → κ → C → List C → Option P
  /-- `i2d_PKCS12_bio` into a BIO of its own. -/
  i2d : P → Option (List Byte)
  /-- `d2i_PKCS12_bio`. -/
  d2i : List Byte → Option P
  /-- `PKCS12_parse`. -/
  parse : P → List Byte → Option (Pkcs12Contents κ C)

/-- A bundle is read back as it was encoded, and is opened with the string that it was created with
and no other. What a BIO in memory holds has less than `2 ^ 31` bytes. -/
structure Pkcs12Lib.Documented {P κ C : Type} (L : Pkcs12Lib P κ C) : Prop where
  d2i_i2d : ∀ {p12 der}, L.i2d p12 = some der → L.d2i der = some p12
  length_i2d : ∀ {p12 der}, L.i2d p12 = some der → der.length < 2 ^ 31
  parse_create : ∀ {pass name key cert ca p12}, L.create pass name key cert ca = some p12 →
    ∀ pass', L.parse p12 pass' =
      if pass' = pass then some { key := some key, cert := some cert, extraCerts := ca } else none

section

variable {P κ C : Type} (L : Pkcs12Lib P κ C)

/-- `pkcs12-build`. -/
def pkcs12Build (input : Pkcs12BuildInput κ C) : Except X509Error (List Byte) := do
  -- copies that end with a NUL
  let name := input.friendlyName.map fun s => cString (s ++ [0])
  let pass := cString (input.passphrase.bytes ++ [0])
  let p12 ← orError (L.create pass name input.key input.cert input.extraCerts) .encodingFailed
  orError (L.i2d p12) .encodingFailed

/-- `pkcs12-parse`. -/
def pkcs12Parse (bioNew : Bool) (bytes passphrase : ListU8) :
    Except X509Error (Pkcs12Contents κ C) :=
  if bioNew = false then .error (.internal 0)
  else do
    let p12 ← orError (L.d2i (memBuf bytes)) .parseFailed
    orError (L.parse p12 (cString (passphrase.bytes ++ [0]))) .parseFailed

/-- A bundle gives back what was put into it with the passphrase that it was built with, and is not
opened with `q` if that is another one. -/
structure OpensOnlyWith (input : Pkcs12BuildInput κ C) (bundle q : ListU8) : Prop where
  opens : pkcs12Parse L true bundle input.passphrase = .ok input.contents
  only : q.bytes ≠ input.passphrase.bytes →
    ∀ bioNew contents, pkcs12Parse L bioNew bundle q ≠ .ok contents

variable {L}

/-- A bundle is opened with any list of bytes that is the same C string. -/
theorem pkcs12Parse_of_build (hL : L.Documented) {input : Pkcs12BuildInput κ C} {bundle : ListU8}
    (hbuild : pkcs12Build L input = .ok bundle.bytes) (q : ListU8) :
    pkcs12Parse L true bundle q =
      if cString q.bytes = cString input.passphrase.bytes then .ok input.contents
      else .error .parseFailed := by
  obtain ⟨p12, hcreate, hi2d⟩ := bind_eq_ok.mp hbuild
  rw [orError_eq_ok] at hcreate hi2d
  have hlen : bundle.len < 2 ^ 31 := by
    rw [← bundle.length_bytes]
    exact hL.length_i2d hi2d
  rw [pkcs12Parse, if_neg (by decide), memBuf_of_lt hlen, hL.d2i_i2d hi2d]
  -- what is left is the comparison of the C strings
  change orError (L.parse p12 _) _ = _
  rw [hL.parse_create hcreate, cString_append_nul, cString_append_nul]
  by_cases hq : cString q.bytes = cString input.passphrase.bytes
  · rw [if_pos hq, if_pos hq]
    rfl
  · rw [if_neg hq, if_neg hq]
    rfl

/-- A bundle tells two passphrases apart exactly if they differ before their first NUL. -/
theorem opensOnlyWith_iff (hL : L.Documented) {input : Pkcs12BuildInput κ C} {bundle : ListU8}
    (hbuild : pkcs12Build L input = .ok bundle.bytes) (q : ListU8) :
    OpensOnlyWith L input bundle q ↔
      (cString q.bytes = cString input.passphrase.bytes → q.bytes = input.passphrase.bytes) := by
  have hparse := pkcs12Parse_of_build hL hbuild
  constructor
  · -- the same C string opens the bundle, so it must not be another passphrase
    intro h hstring
    by_contra hne
    refine h.only hne true input.contents ?_
    rw [hparse, if_pos hstring]
  · refine fun h => ⟨by rw [hparse, if_pos rfl], fun hne bioNew contents hok => ?_⟩
    rcases bioNew with _ | _
    · -- without memory for a BIO nothing is opened
      cases hok
    · rw [hparse, if_neg (mt h hne)] at hok
      cases hok

end

/-- A bundle of keys and certificates of one byte, that keeps its passphrase. -/
structure PlainPkcs12 where
  pass : List Byte
  key : Byte
  cert : Byte
  ca : List Byte

/-- An encoding with the number of further certificates in front of them. -/
def PlainPkcs12.encode (p12 : PlainPkcs12) : List Byte :=
  p12.key :: p12.cert :: BitVec.ofNat 8 p12.ca.length :: (p12.ca ++ p12.pass)

def PlainPkcs12.decode : List Byte → Option PlainPkcs12
  | key :: cert :: n :: rest =>
    if n.toNat ≤ rest.length then
      some { pass := rest.drop n.toNat, key, cert, ca := rest.take n.toNat }
    else none
  | _ => none

theorem PlainPkcs12.decode_encode {p12 : PlainPkcs12} (h : p12.ca.length < 2 ^ 8) :
    decode p12.encode = some p12 := by
  have hn : (BitVec.ofNat 8 p12.ca.length).toNat = p12.ca.length := by
    rw [BitVec.toNat_ofNat, Nat.mod_eq_of_lt h]
  rw [encode, decode, hn, if_pos (by simp), List.drop_left, List.take_left]

/-- A libcrypto for these, which leaves out names. -/
def plainPkcs12Lib : Pkcs12Lib PlainPkcs12 Byte Byte where
  create pass _ key cert ca := some { pass, key, cert, ca }
  i2d p12 :=
    if p12.ca.length < 2 ^ 8 ∧ p12.encode.length < 2 ^ 31 then some p12.encode else none
  d2i := PlainPkcs12.decode
  parse p12 pass :=
    if pass = p12.pass then
      some { key := some p12.key, cert := some p12.cert, extraCerts := p12.ca }
    else none

theorem plainPkcs12Lib_documented : plainPkcs12Lib.Documented := by
  have hi2d : ∀ {p12 der}, plainPkcs12Lib.i2d p12 = some der →
      (p12.ca.length < 2 ^ 8 ∧ p12.encode.length < 2 ^ 31) ∧ p12.encode = der := by
    intro p12 der h
    rwa [plainPkcs12Lib, Option.ite_none_right_eq_some, Option.some.injEq] at h
  refine ⟨fun h => ?_, fun h => ?_, fun h pass' => ?_⟩
  · obtain ⟨⟨hca, -⟩, rfl⟩ := hi2d h
    exact PlainPkcs12.decode_encode hca
  · obtain ⟨⟨-, hlen⟩, rfl⟩ := hi2d h
    exact hlen
  · obtain rfl := Option.some.inj h
    rfl

/-- A bundle with one further certificate. -/
def bundleInput (pass : List Byte) (h : pass.length < 2 ^ 32) : Pkcs12BuildInput Byte Byte where
  key := 1
  cert := 2
  extraCerts := [3]
  passphrase := .ofBytes pass h 0

theorem opensOnlyWith_iff_plain :
    OpensOnlyWith plainPkcs12Lib (bundleInput [0x61, 0x62] (by decide))
      (.ofBytes [1, 2, 1, 3, 0x61, 0x62] (by decide) 0) (.ofBytes [0x61] (by decide) 0) :=
  (opensOnlyWith_iff plainPkcs12Lib_documented (by decide) _).mpr (by decide)

/-- A passphrase with a NUL in it and another one with the same beginning open the same bundle, and a
passphrase that starts with a NUL is as good as none. -/
theorem not_opensOnlyWith :
    pkcs12Build plainPkcs12Lib (bundleInput [0x61, 0, 0x62] (by decide)) = .ok [1, 2, 1, 3, 0x61] ∧
      ¬OpensOnlyWith plainPkcs12Lib (bundleInput [0x61, 0, 0x62] (by decide))
        (.ofBytes [1, 2, 1, 3, 0x61] (by decide) 0) (.ofBytes [0x61, 0, 0x63] (by decide) 0) ∧
      pkcs12Build plainPkcs12Lib (bundleInput [0, 0x61] (by decide)) = .ok [1, 2, 1, 3] ∧
      ¬OpensOnlyWith plainPkcs12Lib (bundleInput [0, 0x61] (by decide))
        (.ofBytes [1, 2, 1, 3] (by decide) 0) (.ofBytes [] (by decide) 0) := by
  refine ⟨by decide, fun h => ?_, by decide, fun h => ?_⟩
  · exact h.only (by decide) true ⟨some 1, some 2, [3]⟩ (by decide)
  · exact h.only (by decide) true ⟨some 1, some 2, [3]⟩ (by decide)

end OpenSSLWasm.X509
