import OpenSSLWasm.Hex
import OpenSSLWasm.X509.Reports

/-!
# Serial numbers

`build_and_sign` in `src/x509_build.c` takes the serial number from a hexadecimal string, or draws a
random one, and `certificate.info` in `src/x509.c` prints it. A string that is not a positive
integer should give an error, rather than a certificate with another serial number.

## Main definitions

* `SerialLib` and `serialNumber`: the steps of the builder;
* `infoSerialHex`: what is printed;
* `SerialFaithful`: a certificate has the serial number that the string denotes as a whole.

## Main results

* `serialNumber_none`: the random serial numbers;
* `serialFaithful_iff`: the strings that give the serial number they should, or none.
-/

namespace OpenSSLWasm.X509

/-! ## The builder and the reader -/

/-- The steps of libcrypto that can fail. -/
structure SerialLib where
  asn1IntegerNew : Bool
  /-- `RAND_bytes`, which gives sixteen bytes. -/
  randBytes : Option (Vector Byte 16)
  /-- `BN_bin2bn` succeeds. -/
  bin2bn : Bool
  /-- `BN_to_ASN1_INTEGER` succeeds. -/
  toAsn1Integer : ℤ → Bool
  peekLastError : BitVec 32

/-- `BN_bin2bn`: the number with the given bytes, the most significant first. -/
def bnBin2bn (bs : List Byte) : ℕ := bs.foldl (fun n b => n * 256 + b.toNat) 0

/-- The serial number of a certificate that is built. -/
def serialNumber (R : SerialLib) (serialHex : Option (List Byte)) : Except X509Error ℤ :=
  if R.asn1IntegerNew = false then .error (.internal R.peekLastError)
  else
    match serialHex with
    | some s =>
      -- only whether any character was read is asked
      let (rc, bn) := bnHex2bn (cString (s ++ [0]))
      if rc = 0 ∨ R.toAsn1Integer bn = false then .error .badName else .ok bn
    | none =>
      match R.randBytes with
      | none => .error (.internal R.peekLastError)
      | some rnd =>
        let rnd := rnd.set 0 (rnd[0] &&& 0x7f)
        let bn : ℤ := bnBin2bn rnd.toList
        if R.bin2bn = false ∨ R.toAsn1Integer bn = false then .error (.internal R.peekLastError)
        else .ok bn

/-- The serial number in `certificate.info`. -/
def infoSerialHex {ν τ κ : Type} (c : Certificate ν τ κ) : List Byte := bnBn2hex c.serial

/-- The steps of a builder, with those for the serial number as the source has them. -/
def CertLib.withSerial {Name ν τ κ : Type} (L : CertLib Name ν τ κ) (R : SerialLib) :
    CertLib Name ν τ κ :=
  { L with serialNumber := X509.serialNumber R }

/-! ## Random serial numbers -/

theorem bnBin2bn_lt (bs : List Byte) : bnBin2bn bs < 256 ^ bs.length := by
  induction bs using List.reverseRecOn with
  | nil => exact Nat.one_pos
  | append_singleton bs b ih =>
    have hb := b.isLt
    rw [bnBin2bn, List.foldl_append, List.foldl_cons, List.foldl_nil, ← bnBin2bn,
      List.length_append, List.length_singleton, Nat.pow_succ]
    omega

/-- A number with a first byte, in terms of the bytes that follow. -/
theorem bnBin2bn_cons (b : Byte) (bs : List Byte) :
    bnBin2bn (b :: bs) = b.toNat * 256 ^ bs.length + bnBin2bn bs := by
  induction bs using List.reverseRecOn with
  | nil => simp [bnBin2bn]
  | append_singleton bs c ih =>
    have happend : ∀ cs : List Byte, bnBin2bn (cs ++ [c]) = bnBin2bn cs * 256 + c.toNat := by
      intro cs
      rw [bnBin2bn, List.foldl_append, List.foldl_cons, List.foldl_nil, ← bnBin2bn]
    rw [← List.cons_append, happend, happend, ih, List.length_append, List.length_singleton,
      Nat.pow_succ]
    ring

/-- A random serial number is not negative, and has at most 127 bits; it may be 0. -/
theorem serialNumber_none {R : SerialLib} {z : ℤ} (h : serialNumber R none = .ok z) :
    0 ≤ z ∧ z < 2 ^ 127 := by
  rw [serialNumber, ite_error_eq_ok] at h
  obtain ⟨-, h⟩ := h
  cases hrnd : R.randBytes with
  | none => simp [hrnd] at h
  | some rnd =>
    simp only [hrnd, ite_error_eq_ok] at h
    obtain ⟨-, h⟩ := h
    obtain rfl := Except.ok.inj h
    -- the highest bit of the first byte is cleared
    have hfirst : (rnd[0] &&& 0x7f : Byte).toNat < 128 := by
      rw [BitVec.toNat_and]
      exact Nat.lt_of_le_of_lt Nat.and_le_right (by decide)
    obtain ⟨b, bs, hlist, hlen⟩ : ∃ b bs, rnd.toList = b :: bs ∧ bs.length = 15 := by
      have hlen : rnd.toList.length = 16 := by simp
      rcases hlist : rnd.toList with _ | ⟨b, bs⟩
      · simp [hlist] at hlen
      · exact ⟨b, bs, rfl, by simpa [hlist] using hlen⟩
    have hset : (rnd.set 0 (rnd[0] &&& 0x7f)).toList = (rnd[0] &&& 0x7f) :: bs := by
      rw [Vector.toList_set, hlist, List.set_cons_zero]
    have hrest := bnBin2bn_lt bs
    rw [hset, bnBin2bn_cons]
    rw [hlen] at hrest ⊢
    omega

/-! ## Serial numbers from strings -/

/-- What a successful call has read: the numeral at the front of the string, up to a NUL. -/
theorem serialNumber_some_eq_ok {R : SerialLib} {s : List Byte} {z : ℤ}
    (h : serialNumber R (some s) = .ok z) : hexNumerals.readFront (cString s) = some z := by
  simp only [serialNumber, cString_append_nul, ite_error_eq_ok] at h
  obtain ⟨-, hrc, h⟩ := h
  rw [Numerals.readFront, ← bnHex2bn, if_neg fun h0 => hrc (Or.inl h0)]
  exact congrArg some (Except.ok.inj h)

/-- A certificate that is built with the string has a serial number greater than 0 that the string
denotes as a whole, and prints it so that it denotes the same number. -/
def SerialFaithful (s : List Byte) : Prop :=
  ∀ (Name ν τ κ : Type) (L : CertLib Name ν τ κ) (R : SerialLib) (input : BuilderInput Name κ)
    (signer : κ) (c : Certificate ν τ κ), input.serialHex = some s →
      buildAndSign (L.withSerial R) input signer = .ok c →
        0 < c.serial ∧ hexNumerals.Denotes s c.serial ∧
          hexNumerals.Denotes (infoSerialHex c) c.serial

/-- A libcrypto in which no step fails. -/
def fineSerialLib : SerialLib where
  asn1IntegerNew := true
  randBytes := some (Vector.replicate 16 0)
  bin2bn := true
  toAsn1Integer _ := true
  peekLastError := 0

theorem serialNumber_fine {s : List Byte} {z : ℤ}
    (h : hexNumerals.readFront (cString s) = some z) :
    serialNumber fineSerialLib (some s) = .ok z := by
  rw [Numerals.readFront, ← bnHex2bn] at h
  split_ifs at h with hrc
  simp only [serialNumber, cString_append_nul, ite_error_eq_ok]
  refine ⟨by decide, ?_, congrArg Except.ok (Option.some.inj h)⟩
  rintro (h0 | h0)
  · exact hrc h0
  · cases h0

/-- An input with the serial number given by a string. -/
def serialInput (s : List Byte) : BuilderInput Unit Unit where
  subject := ()
  issuer := ()
  serialHex := some s
  notBefore := []
  notAfter := []
  subjectKey := ()
  signatureHash := .sha256

/-- Where no step fails, there is a certificate for every string with a numeral at the front. -/
theorem exists_buildAndSign_serial {s : List Byte} {z : ℤ}
    (h : hexNumerals.readFront (cString s) = some z) :
    ∃ c, buildAndSign (fineCertLib.withSerial fineSerialLib) (serialInput s) () = .ok c := by
  have hfine : (fineCertLib.withSerial fineSerialLib).Fine :=
    ⟨rfl, fun _ => rfl, rfl, fun _ _ _ => rfl⟩
  have hserial : (fineCertLib.withSerial fineSerialLib).serialNumber (serialInput s).serialHex =
    .ok z := serialNumber_fine h
  exact hfine.exists_buildAndSign hserial rfl rfl rfl rfl ()

/-- Certificates have the serial number that the string denotes exactly if as a whole it is an
integer greater than 0, or has none at the front and gives an error. -/
theorem serialFaithful_iff (s : List Byte) :
    SerialFaithful s ↔
      (∃ z, 0 < z ∧ hexNumerals.Denotes s z) ∨ ¬hexNumerals.AtFront s := by
  constructor
  · intro h
    cases hfront : hexNumerals.readFront (cString s) with
    | none =>
      exact Or.inr (hexNumerals_nulFree.atFront_cString.not.mp
        (Numerals.readFront_eq_none_iff.mp hfront))
    | some z =>
      obtain ⟨c, hc⟩ := exists_buildAndSign_serial hfront
      obtain ⟨hpos, hdenotes, -⟩ := h Unit Unit Unit Unit fineCertLib fineSerialLib _ () c rfl hc
      exact Or.inl ⟨c.serial, hpos, hdenotes⟩
  · intro h Name ν τ κ L R input signer c hinput hc
    have hserial : serialNumber R (some s) = .ok c.serial := by
      rw [← hinput]
      exact (fields_of_buildAndSign hc).serial
    have hfront := serialNumber_some_eq_ok hserial
    rcases h with ⟨z, hpos, hz⟩ | hnone
    · -- the whole string is read
      rw [hexNumerals_nulFree.cString_eq hz, Numerals.readFront_of_denotes hz] at hfront
      obtain rfl := Option.some.inj hfront
      exact ⟨hpos, hz, denotes_bnBn2hex c.serial⟩
    · rw [Numerals.readFront_eq_none_iff.mpr
        (hexNumerals_nulFree.atFront_cString.not.mpr hnone)] at hfront
      cases hfront

/-- With `0x1F`, there is a certificate with the serial number 0. -/
theorem not_serialFaithful_prefixed : ¬SerialFaithful (ascii "0x1F") := by
  intro h
  have hfront : hexNumerals.readFront (cString (ascii "0x1F")) = some 0 := by decide
  obtain ⟨c, hc⟩ := exists_buildAndSign_serial hfront
  obtain ⟨-, hdenotes, -⟩ := h Unit Unit Unit Unit fineCertLib fineSerialLib _ () c rfl hc
  -- the letter is no part of a numeral
  rcases hdenotes.mem (c := 120) (by decide) with hx | hx
  · exact absurd hx (by decide)
  · exact absurd hx (by decide)

end OpenSSLWasm.X509
