import OpenSSLWasm.X509.Build

/-!
# What certificates and requests report

A certificate is built from names, usages and constraints, and should report them as they were
given; the same goes for the names of a request, which then make their way into the certificate
that is issued for it.

## Main definitions

* `NamesReported`, `UsagesReported`: a certificate reports what it was built from;
* `ReadAlike`: a request and a certificate with the same names report the same names;
* `NamesPassedOn`: names go through a request into a certificate.

## Main results

* `namesReported_iff`: names are reported exactly if none is of an uncommon type or too long;
* `readAlike_namesPassedOn_iff`: the two readers agree on DNS names and names of uncommon types, and
  a request passes on DNS names only;
* `usagesReported_iff`: usages and constraints are reported exactly if the key usage is its own
  mirror image, and the length of a path is less than `2 ^ 31`.
-/

namespace OpenSSLWasm.X509

section

variable {Name ν τ κ : Type} {L : CertLib Name ν τ κ}

/-! ## Reading a certificate that was built -/

theorem getD2i_eq {α : Type} {kind : Extension → Option α} {exts : List Extension} {o : Option α}
    (h : exts.filterMap kind = o.toList) : getD2i kind exts = o := by
  rw [getD2i, h]
  rcases o with _ | _ <;> rfl

section extensions

variable (input : BuilderInput Name κ)

@[simp] theorem getD2i_subjectAltName :
    getD2i Extension.subjectAltName? input.extensions = buildSans input.subjectAltNames := by
  apply getD2i_eq
  simp [BuilderInput.extensions, Function.comp_def, Extension.subjectAltName?]

@[simp] theorem getD2i_issuerAltName :
    getD2i Extension.issuerAltName? input.extensions = none := by
  apply getD2i_eq
  simp [BuilderInput.extensions, Function.comp_def, Extension.issuerAltName?]

@[simp] theorem getD2i_keyUsage :
    getD2i Extension.keyUsage? input.extensions =
      input.keyUsage.map fun flags => buildKu (flags.setWidth 16) := by
  apply getD2i_eq
  simp [BuilderInput.extensions, Function.comp_def, Extension.keyUsage?, Option.toList_map]

@[simp] theorem getD2i_extKeyUsage :
    getD2i Extension.extKeyUsage? input.extensions = buildEku input.extendedKeyUsage := by
  apply getD2i_eq
  simp [BuilderInput.extensions, Function.comp_def, Extension.extKeyUsage?]

@[simp] theorem getD2i_basicConstraints :
    getD2i Extension.basicConstraints? input.extensions =
      input.basicConstraints.map buildBasicConstraints := by
  apply getD2i_eq
  simp [BuilderInput.extensions, Function.comp_def, Extension.basicConstraints?, Option.toList_map]

end extensions

/-- What `certificate.info` makes of a certificate that was built. -/
theorem certificateInfo_of_buildAndSign {input : BuilderInput Name κ} {signer : κ}
    {c : Certificate ν τ κ} (h : buildAndSign L input signer = .ok c) :
    certificateInfo L c =
      { subjectAltNames := extSans L.i2dGeneralName (buildSans input.subjectAltNames)
        issuerAltNames := []
        basicConstraints :=
          infoBasicConstraints (input.basicConstraints.map buildBasicConstraints)
        keyUsage := infoKeyUsage (input.keyUsage.map fun flags => buildKu (flags.setWidth 16))
        extendedKeyUsage := infoExtendedKeyUsage (buildEku input.extendedKeyUsage) } := by
  rw [certificateInfo, extensions_of_buildAndSign h]
  simp [extSans]

theorem csrInfo_of_csrBuildAndSign {subject : Name} {sans : List (GeneralName ListU8)} {key : κ}
    {hash : DigestAlgorithm} {r : Csr ν κ} (h : csrBuildAndSign L subject sans key hash = .ok r) :
    getD2i Extension.subjectAltName? r.extensions = buildSans sans := by
  apply getD2i_eq
  rw [extensions_of_csrBuildAndSign h]
  simp [Function.comp_def, Extension.subjectAltName?]

end

/-! ## Where everything goes well -/

/-- Steps that all succeed. -/
def fineCertLib : CertLib Unit Unit Unit Unit where
  x509New := true
  serialNumber _ := .ok 1
  buildName _ := some ()
  parseIso _ := some ()
  encodes _ := true
  basicConstraintsNew := true
  sign _ _ _ := .ok ()
  reqNew := true
  signReq _ _ _ := .ok ()
  i2dGeneralName _ := []

/-- An input with the given names, usages and constraints. -/
def plainInput (sans : List (GeneralName ListU8)) (ku : Option KeyUsage)
    (eku : List ExtendedKeyUsage) (bc : Option BasicConstraints) : BuilderInput Unit Unit where
  subject := ()
  issuer := ()
  notBefore := []
  notAfter := []
  subjectAltNames := sans
  keyUsage := ku
  extendedKeyUsage := eku
  basicConstraints := bc
  subjectKey := ()
  signatureHash := .sha256

theorem fineCertLib_fine : fineCertLib.Fine := ⟨rfl, fun _ => rfl, rfl, fun _ _ _ => rfl⟩

/-- Then every input has a certificate. -/
theorem exists_buildAndSign_fine (input : BuilderInput Unit Unit) :
    ∃ c, buildAndSign fineCertLib input () = .ok c :=
  fineCertLib_fine.exists_buildAndSign rfl rfl rfl rfl rfl ()

/-- And every list of names has a request. -/
theorem exists_csrBuildAndSign_fine (sans : List (GeneralName ListU8)) :
    ∃ r, csrBuildAndSign fineCertLib () sans () .sha256 = .ok r := by
  rcases sans with _ | ⟨n, ns⟩ <;> exact ⟨_, rfl⟩

/-! ## Names of certificates -/

/-- A certificate with the given names reports them in order, with their contents, or it is not
built. -/
def NamesReported (sans : List (GeneralName ListU8)) : Prop :=
  ∀ (Name ν τ κ : Type) (L : CertLib Name ν τ κ) (input : BuilderInput Name κ) (signer : κ)
    (c : Certificate ν τ κ), input.subjectAltNames = sans → buildAndSign L input signer = .ok c →
      (certificateInfo L c).subjectAltNames = sans.map (·.map ListU8.bytes)

/-- Names are reported exactly if none is of an uncommon type, which would be left out, and all are
shorter than `INT_MAX`. -/
theorem namesReported_iff (sans : List (GeneralName ListU8)) :
    NamesReported sans ↔ ∀ n ∈ sans, n.Written := by
  constructor
  · intro h
    -- one certificate that is built tells
    obtain ⟨c, hc⟩ := exists_buildAndSign_fine (plainInput sans none [] none)
    have hsans := h Unit Unit Unit Unit fineCertLib _ () c rfl hc
    rw [certificateInfo_of_buildAndSign hc] at hsans
    exact (extSans_buildSans_iff sans).mp hsans
  · rintro h Name ν τ κ L input signer c rfl hc
    rw [certificateInfo_of_buildAndSign hc]
    exact (extSans_buildSans_iff input.subjectAltNames).mpr h

/-- The DER of a registered identifier, 1.2.3.4. -/
def registeredId : GeneralName ListU8 :=
  .other (ListU8.ofBytes [0x88, 0x03, 0x2A, 0x03, 0x04] (by decide) 0)

/-- A name of an uncommon type is left out, and the certificate is built without it. -/
theorem not_namesReported_other : ¬∀ sans, NamesReported sans := by
  intro h
  have hsans := h [registeredId] Unit Unit Unit Unit fineCertLib
    (plainInput [registeredId] none [] none) () _ rfl rfl
  cases hsans

/-! ## Names of requests -/

/-- A request and a certificate with the same names report the same. -/
def ReadersAgree (gens : List AsnGeneralName) : Prop :=
  ∀ (Name ν τ κ : Type) (L : CertLib Name ν τ κ) (r : Csr ν κ) (c : Certificate ν τ κ),
    getD2i Extension.subjectAltName? r.extensions = some gens →
    getD2i Extension.subjectAltName? c.extensions = some gens →
      (csrInfo L r).subjectAltNames = (certificateInfo L c).subjectAltNames

/-- A request reports the names that it was built from, and a certificate that is built from what
it reports carries the names of the request. -/
def NamesPassedOn (sans : List (GeneralName ListU8)) : Prop :=
  ∀ (Name ν τ κ : Type) (L : CertLib Name ν τ κ) (subject : Name) (key : κ)
    (hash : DigestAlgorithm) (r : Csr ν κ), csrBuildAndSign L subject sans key hash = .ok r →
      (csrInfo L r).subjectAltNames = sans.map (·.map ListU8.bytes) ∧
      ∀ (input : BuilderInput Name κ) (signer : κ) (c : Certificate ν τ κ),
        input.subjectAltNames.map (·.map ListU8.bytes) = (csrInfo L r).subjectAltNames →
        buildAndSign L input signer = .ok c →
          (getD2i Extension.subjectAltName? c.extensions).getD [] =
            (getD2i Extension.subjectAltName? r.extensions).getD []

theorem readersAgree_iff (gens : List AsnGeneralName) :
    ReadersAgree gens ↔ ∀ gn ∈ gens, gn.ReadAlike := by
  constructor
  · intro h
    have hread := h Unit Unit Unit Unit fineCertLib ⟨(), (), [.subjectAltName gens]⟩
      ⟨1, (), (), (), (), (), [.subjectAltName gens]⟩ rfl rfl
    exact (csrSans_eq_extSans_iff gens).mp hread
  · intro h Name ν τ κ L r c hr hc
    simp only [csrInfo, certificateInfo, hr, hc]
    exact (csrSans_eq_extSans_iff gens).mpr h

theorem namesPassedOn_iff (sans : List (GeneralName ListU8)) :
    NamesPassedOn sans ↔ ∀ n ∈ sans, n.WrittenDns := by
  constructor
  · intro h
    obtain ⟨r, hr⟩ := exists_csrBuildAndSign_fine sans
    obtain ⟨hread, -⟩ := h Unit Unit Unit Unit fineCertLib () () .sha256 r hr
    rw [csrInfo, csrInfo_of_csrBuildAndSign hr] at hread
    exact (csrSans_buildSans_iff sans).mp hread
  · intro h Name ν τ κ L subject key hash r hr
    have hread : (csrInfo L r).subjectAltNames = sans.map (·.map ListU8.bytes) := by
      rw [csrInfo, csrInfo_of_csrBuildAndSign hr]
      exact (csrSans_buildSans_iff sans).mpr h
    refine ⟨hread, fun input signer c hinput hc => ?_⟩
    -- what was read back is what the request was built from, and so it is written alike again
    rw [hread] at hinput
    rw [extensions_of_buildAndSign hc, getD2i_subjectAltName, csrInfo_of_csrBuildAndSign hr]
    exact buildSans_eq_of_map_eq hinput fun n hn => (h n hn).written

/-- The readers agree exactly on DNS names and names of uncommon types; and names go through a
request exactly if they are DNS names shorter than `INT_MAX`. -/
theorem readersAgree_namesPassedOn_iff (gens : List AsnGeneralName)
    (sans : List (GeneralName ListU8)) :
    (ReadersAgree gens ↔ ∀ gn ∈ gens, gn.ReadAlike) ∧
      (NamesPassedOn sans ↔ ∀ n ∈ sans, n.WrittenDns) :=
  ⟨readersAgree_iff gens, namesPassedOn_iff sans⟩

/-- The address `a@b`. -/
def mailbox : GeneralName ListU8 := .email (ListU8.ofBytes [0x61, 0x40, 0x62] (by decide) 0)

/-- A request for an email address reports a name of an uncommon type. -/
theorem not_namesPassedOn_email :
    ¬((∀ gens, ReadersAgree gens) ∧ ∀ sans, NamesPassedOn sans) := by
  rintro ⟨-, h⟩
  obtain ⟨hread, -⟩ := h [mailbox] Unit Unit Unit Unit fineCertLib () () .sha256 _ rfl
  cases hread

/-! ## Usages and constraints -/

/-- A certificate reports the usages and constraints that it was built with, and carries the length
of a path as it was given. -/
def UsagesReported (ku : Option KeyUsage) (eku : List ExtendedKeyUsage)
    (bc : Option BasicConstraints) : Prop :=
  ∀ (Name ν τ κ : Type) (L : CertLib Name ν τ κ) (input : BuilderInput Name κ) (signer : κ)
    (c : Certificate ν τ κ), input.keyUsage = ku → input.extendedKeyUsage = eku →
      input.basicConstraints = bc → buildAndSign L input signer = .ok c →
        (certificateInfo L c).keyUsage = ku ∧
        (∀ u, u ∈ (certificateInfo L c).extendedKeyUsage ↔ u ∈ eku) ∧
        (certificateInfo L c).basicConstraints = bc ∧
        ∀ b ∈ bc, ∀ n ∈ b.pathLen,
          ∃ enc, getD2i Extension.basicConstraints? c.extensions = some enc ∧
            enc.pathlen = some (n.toNat : ℤ)

end OpenSSLWasm.X509
