import OpenSSLWasm.Pkey.Basic
import OpenSSLWasm.X509.GeneralNames
import OpenSSLWasm.X509.Usage

/-!
# Building certificates and requests

`build_and_sign` and `csr.build-and-sign` in `src/x509_build.c`, and the readers `certificate.info`
and `csr.info` in `src/x509.c`, as far as the extensions go. An extension is represented by the
value that libcrypto encodes and decodes; the steps that have no part in the extensions are a
parameter of the model.

## Main definitions

* `Extension`, `Certificate` and `Csr`: what is built;
* `CertLib`: the steps around the extensions;
* `buildAndSign` and `csrBuildAndSign`: the builders;
* `certificateInfo` and `csrInfo`: the readers.

## Main results

* `fields_of_buildAndSign`, `extensions_of_buildAndSign` and `extensions_of_csrBuildAndSign`: what a
  successful call carries;
* `CertLib.Fine.exists_buildAndSign`: where the steps for the other fields decide.
-/

namespace OpenSSLWasm.X509

/-! ## What is built -/

/-- The extensions that the component writes or reads. -/
inductive Extension
  | subjectAltName (gens : List AsnGeneralName)
  | issuerAltName (gens : List AsnGeneralName)
  | keyUsage (bits : List ℕ)
  | extKeyUsage (objs : List UsageObject)
  | basicConstraints (bc : AsnBasicConstraints)
  deriving DecidableEq, Repr

/-- A certificate, over types of encoded names, times and keys. -/
structure Certificate (ν τ κ : Type) where
  serial : ℤ
  subject : ν
  issuer : ν
  notBefore : τ
  notAfter : τ
  pubkey : κ
  extensions : List Extension := []

/-- A request; the extensions are in one of its attributes. -/
structure Csr (ν κ : Type) where
  subject : ν
  pubkey : κ
  extensions : List Extension := []

/-- `certificate-builder-input`, over types of names and keys. -/
structure BuilderInput (Name κ : Type) where
  subject : Name
  issuer : Name
  serialHex : Option (List Byte) := none
  notBefore : List Byte
  notAfter : List Byte
  subjectAltNames : List (GeneralName ListU8) := []
  keyUsage : Option KeyUsage := none
  extendedKeyUsage : List ExtendedKeyUsage := []
  basicConstraints : Option BasicConstraints := none
  subjectKey : κ
  signatureHash : DigestAlgorithm

/-- The steps around the extensions. -/
structure CertLib (Name ν τ κ : Type) where
  x509New : Bool
  /-- From hex digits, or else from random bytes. -/
  serialNumber : Option (List Byte) → Except X509Error ℤ
  buildName : Name → Option ν
  parseIso : List Byte → Option τ
  /-- `X509V3_EXT_i2d` encodes an extension, and it can be added. -/
  encodes : Extension → Bool
  basicConstraintsNew : Bool
  sign : Certificate ν τ κ → κ → DigestAlgorithm → Except X509Error Unit
  reqNew : Bool
  signReq : Csr ν κ → κ → DigestAlgorithm → Except X509Error Unit
  /-- `i2d_GENERAL_NAME`, nothing if it fails. -/
  i2dGeneralName : AsnGeneralName → List Byte

section

variable {Name ν τ κ : Type} (L : CertLib Name ν τ κ)

/-! ## Builders -/

def addExtD2i (ex : Extension) (c : Certificate ν τ κ) : Except X509Error (Certificate ν τ κ) :=
  if L.encodes ex = false then .error .badExtension
  else .ok { c with extensions := c.extensions ++ [ex] }

/-- The extension for alternative names in `build_and_sign`. -/
def addSans (sans : List (GeneralName ListU8)) (c : Certificate ν τ κ) :
    Except X509Error (Certificate ν τ κ) :=
  if 0 < sans.length then do
    let gens ← orError (buildSans sans) .badExtension
    addExtD2i L (.subjectAltName gens) c
  else .ok c

/-- The extension for key usage. -/
def addKeyUsage (ku : Option KeyUsage) (c : Certificate ν τ κ) :
    Except X509Error (Certificate ν τ κ) :=
  match ku with
  | none => .ok c
  | some flags => addExtD2i L (.keyUsage (buildKu (flags.setWidth 16))) c

/-- The extension for extended key usage. -/
def addExtendedKeyUsage (eku : List ExtendedKeyUsage) (c : Certificate ν τ κ) :
    Except X509Error (Certificate ν τ κ) :=
  if 0 < eku.length then do
    let ek ← orError (buildEku eku) .badExtension
    addExtD2i L (.extKeyUsage ek) c
  else .ok c

/-- The extension for basic constraints. -/
def addBasicConstraints (bc : Option BasicConstraints) (c : Certificate ν τ κ) :
    Except X509Error (Certificate ν τ κ) :=
  match bc with
  | none => .ok c
  | some bc =>
    if L.basicConstraintsNew = false then .error (.internal 0)
    else addExtD2i L (.basicConstraints (buildBasicConstraints bc)) c

def buildAndSign (input : BuilderInput Name κ) (signer : κ) :
    Except X509Error (Certificate ν τ κ) :=
  if L.x509New = false then .error (.internal 0)
  else do
    let serial ← L.serialNumber input.serialHex
    -- both names are built before either is looked at, and both times parsed
    let subject ← orError (L.buildName input.subject) .badName
    let issuer ← orError (L.buildName input.issuer) .badName
    let notBefore ← orError (L.parseIso input.notBefore) .badName
    let notAfter ← orError (L.parseIso input.notAfter) .badName
    let c ← addSans L input.subjectAltNames
      { serial, subject, issuer, notBefore, notAfter, pubkey := input.subjectKey }
    let c ← addKeyUsage L input.keyUsage c
    let c ← addExtendedKeyUsage L input.extendedKeyUsage c
    let c ← addBasicConstraints L input.basicConstraints c
    L.sign c signer input.signatureHash
    return c

/-- The names of a request in `csr.build-and-sign`. -/
def addReqSans (sans : List (GeneralName ListU8)) (r : Csr ν κ) : Except X509Error (Csr ν κ) :=
  if 0 < sans.length then do
    let gens ← orError (buildSans sans) .badExtension
    if L.encodes (.subjectAltName gens) = false then .error .badExtension
    else .ok { r with extensions := [.subjectAltName gens] }
  else .ok r

def csrBuildAndSign (subject : Name) (sans : List (GeneralName ListU8)) (key : κ)
    (signatureHash : DigestAlgorithm) : Except X509Error (Csr ν κ) :=
  if L.reqNew = false then .error (.internal 0)
  else do
    let subject ← orError (L.buildName subject) .badName
    let r ← addReqSans L sans { subject, pubkey := key }
    L.signReq r key signatureHash
    return r

/-! ## Readers -/

/-- `X509V3_get_d2i`, which gives nothing where there is more than one extension of a kind. -/
def getD2i {α : Type} (kind : Extension → Option α) (exts : List Extension) : Option α :=
  match exts.filterMap kind with
  | [a] => some a
  | _ => none

def Extension.subjectAltName? : Extension → Option (List AsnGeneralName)
  | .subjectAltName gens => some gens
  | _ => none

def Extension.issuerAltName? : Extension → Option (List AsnGeneralName)
  | .issuerAltName gens => some gens
  | _ => none

def Extension.keyUsage? : Extension → Option (List ℕ)
  | .keyUsage bits => some bits
  | _ => none

def Extension.extKeyUsage? : Extension → Option (List UsageObject)
  | .extKeyUsage objs => some objs
  | _ => none

def Extension.basicConstraints? : Extension → Option AsnBasicConstraints
  | .basicConstraints bc => some bc
  | _ => none

/-- `certificate-info`, as far as it comes from extensions. -/
structure CertificateInfo where
  subjectAltNames : List (GeneralName (List Byte))
  issuerAltNames : List (GeneralName (List Byte))
  basicConstraints : Option BasicConstraints
  keyUsage : Option KeyUsage
  extendedKeyUsage : List ExtendedKeyUsage
  deriving DecidableEq, Repr

def certificateInfo (c : Certificate ν τ κ) : CertificateInfo where
  subjectAltNames := extSans L.i2dGeneralName (getD2i Extension.subjectAltName? c.extensions)
  issuerAltNames := extSans L.i2dGeneralName (getD2i Extension.issuerAltName? c.extensions)
  basicConstraints := infoBasicConstraints (getD2i Extension.basicConstraints? c.extensions)
  keyUsage := infoKeyUsage (getD2i Extension.keyUsage? c.extensions)
  extendedKeyUsage := infoExtendedKeyUsage (getD2i Extension.extKeyUsage? c.extensions)

/-- `csr-info`, as far as it comes from extensions. -/
structure CsrInfo where
  subjectAltNames : List (GeneralName (List Byte))
  deriving DecidableEq, Repr

def csrInfo (r : Csr ν κ) : CsrInfo where
  subjectAltNames := csrSans L.i2dGeneralName (getD2i Extension.subjectAltName? r.extensions)

/-! ## What a successful call carries -/

/-- The extensions that an input asks for. -/
def BuilderInput.extensions (input : BuilderInput Name κ) : List Extension :=
  (buildSans input.subjectAltNames).toList.map .subjectAltName ++
    input.keyUsage.toList.map (fun flags => .keyUsage (buildKu (flags.setWidth 16))) ++
    (buildEku input.extendedKeyUsage).toList.map .extKeyUsage ++
    (input.basicConstraints.map buildBasicConstraints).toList.map .basicConstraints

variable {L}

theorem extensions_addExtD2i {ex : Extension} {c c' : Certificate ν τ κ}
    (h : addExtD2i L ex c = .ok c') : c'.extensions = c.extensions ++ [ex] := by
  rw [addExtD2i, ite_error_eq_ok] at h
  obtain ⟨-, h⟩ := h
  cases h
  rfl

theorem extensions_addSans {sans : List (GeneralName ListU8)} {c c' : Certificate ν τ κ}
    (h : addSans L sans c = .ok c') :
    c'.extensions = c.extensions ++ (buildSans sans).toList.map .subjectAltName := by
  rw [addSans] at h
  split at h
  · obtain ⟨gens, hgens, h⟩ := bind_eq_ok.mp h
    rw [extensions_addExtD2i h, orError_eq_ok.mp hgens]
    rfl
  · cases h
    have hlen : sans.length = 0 := by omega
    rw [buildSans, if_pos hlen]
    simp

theorem extensions_addKeyUsage {ku : Option KeyUsage} {c c' : Certificate ν τ κ}
    (h : addKeyUsage L ku c = .ok c') :
    c'.extensions = c.extensions ++
      ku.toList.map fun flags => .keyUsage (buildKu (flags.setWidth 16)) := by
  rcases ku with _ | flags
  · cases h
    simp
  · exact extensions_addExtD2i h

theorem extensions_addExtendedKeyUsage {eku : List ExtendedKeyUsage} {c c' : Certificate ν τ κ}
    (h : addExtendedKeyUsage L eku c = .ok c') :
    c'.extensions = c.extensions ++ (buildEku eku).toList.map .extKeyUsage := by
  rw [addExtendedKeyUsage] at h
  split at h
  · obtain ⟨ek, hek, h⟩ := bind_eq_ok.mp h
    rw [extensions_addExtD2i h, orError_eq_ok.mp hek]
    rfl
  · cases h
    have hlen : eku.length = 0 := by omega
    rw [buildEku, if_pos hlen]
    simp

theorem extensions_addBasicConstraints {bc : Option BasicConstraints} {c c' : Certificate ν τ κ}
    (h : addBasicConstraints L bc c = .ok c') :
    c'.extensions = c.extensions ++
      (bc.map buildBasicConstraints).toList.map .basicConstraints := by
  rcases bc with _ | bc
  · cases h
    simp
  · rw [addBasicConstraints, ite_error_eq_ok] at h
    exact extensions_addExtD2i h.2

/-- A certificate that was built carries the extensions that were asked for. -/
theorem extensions_of_buildAndSign {input : BuilderInput Name κ} {signer : κ}
    {c : Certificate ν τ κ} (h : buildAndSign L input signer = .ok c) :
    c.extensions = input.extensions := by
  rw [buildAndSign, ite_error_eq_ok] at h
  simp only [bind_eq_ok] at h
  -- only the four steps for the extensions touch them; signing comes last
  obtain ⟨-, serial, -, subject, -, issuer, -, notBefore, -, notAfter, -, c₁, h₁, c₂, h₂, c₃, h₃,
    c₄, h₄, -, -, h⟩ := h
  cases h
  rw [extensions_addBasicConstraints h₄, extensions_addExtendedKeyUsage h₃,
    extensions_addKeyUsage h₂, extensions_addSans h₁, List.nil_append, BuilderInput.extensions]

/-- The steps for the extensions touch nothing else. -/
theorem fields_addExtD2i {ex : Extension} {c c' : Certificate ν τ κ}
    (h : addExtD2i L ex c = .ok c') : ∃ exts, c' = { c with extensions := exts } := by
  rw [addExtD2i, ite_error_eq_ok] at h
  exact ⟨_, (Except.ok.inj h.2).symm⟩

theorem fields_addSans {sans : List (GeneralName ListU8)} {c c' : Certificate ν τ κ}
    (h : addSans L sans c = .ok c') : ∃ exts, c' = { c with extensions := exts } := by
  rw [addSans] at h
  split at h
  · obtain ⟨gens, -, h⟩ := bind_eq_ok.mp h
    exact fields_addExtD2i h
  · cases h
    exact ⟨_, rfl⟩

theorem fields_addKeyUsage {ku : Option KeyUsage} {c c' : Certificate ν τ κ}
    (h : addKeyUsage L ku c = .ok c') : ∃ exts, c' = { c with extensions := exts } := by
  rcases ku with _ | flags
  · cases h
    exact ⟨_, rfl⟩
  · exact fields_addExtD2i h

theorem fields_addExtendedKeyUsage {eku : List ExtendedKeyUsage} {c c' : Certificate ν τ κ}
    (h : addExtendedKeyUsage L eku c = .ok c') : ∃ exts, c' = { c with extensions := exts } := by
  rw [addExtendedKeyUsage] at h
  split at h
  · obtain ⟨ek, -, h⟩ := bind_eq_ok.mp h
    exact fields_addExtD2i h
  · cases h
    exact ⟨_, rfl⟩

theorem fields_addBasicConstraints {bc : Option BasicConstraints} {c c' : Certificate ν τ κ}
    (h : addBasicConstraints L bc c = .ok c') : ∃ exts, c' = { c with extensions := exts } := by
  rcases bc with _ | bc
  · cases h
    exact ⟨_, rfl⟩
  · rw [addBasicConstraints, ite_error_eq_ok] at h
    exact fields_addExtD2i h.2

/-- The certificate that the extensions are added to carries the serial number, the names and the
times that the steps before give for the input. -/
structure BuiltFrom (L : CertLib Name ν τ κ) (input : BuilderInput Name κ)
    (c : Certificate ν τ κ) : Prop where
  serial : L.serialNumber input.serialHex = .ok c.serial
  subject : L.buildName input.subject = some c.subject
  issuer : L.buildName input.issuer = some c.issuer
  notBefore : L.parseIso input.notBefore = some c.notBefore
  notAfter : L.parseIso input.notAfter = some c.notAfter

/-- So does the one that is signed in the end. -/
theorem fields_of_buildAndSign {input : BuilderInput Name κ} {signer : κ} {c : Certificate ν τ κ}
    (h : buildAndSign L input signer = .ok c) : BuiltFrom L input c := by
  rw [buildAndSign, ite_error_eq_ok] at h
  simp only [bind_eq_ok] at h
  obtain ⟨-, serial, hserial, subject, hsubject, issuer, hissuer, notBefore, hnb, notAfter, hna,
    c₁, h₁, c₂, h₂, c₃, h₃, c₄, h₄, -, -, h⟩ := h
  cases h
  obtain ⟨exts₁, rfl⟩ := fields_addSans h₁
  obtain ⟨exts₂, rfl⟩ := fields_addKeyUsage h₂
  obtain ⟨exts₃, rfl⟩ := fields_addExtendedKeyUsage h₃
  obtain ⟨exts₄, rfl⟩ := fields_addBasicConstraints h₄
  exact ⟨hserial, orError_eq_ok.mp hsubject, orError_eq_ok.mp hissuer, orError_eq_ok.mp hnb,
    orError_eq_ok.mp hna⟩

/-- A request that was built carries the names that `build_sans` makes. -/
theorem extensions_of_csrBuildAndSign {subject : Name} {sans : List (GeneralName ListU8)} {key : κ}
    {hash : DigestAlgorithm} {r : Csr ν κ} (h : csrBuildAndSign L subject sans key hash = .ok r) :
    r.extensions = (buildSans sans).toList.map .subjectAltName := by
  rw [csrBuildAndSign, ite_error_eq_ok] at h
  simp only [bind_eq_ok] at h
  obtain ⟨-, name, -, r', hr, -, -, h⟩ := h
  cases h
  rw [addReqSans] at hr
  split at hr
  · obtain ⟨gens, hgens, hr⟩ := bind_eq_ok.mp hr
    rw [ite_error_eq_ok] at hr
    obtain ⟨-, hr⟩ := hr
    cases hr
    rw [orError_eq_ok.mp hgens]
    rfl
  · cases hr
    have hlen : sans.length = 0 := by omega
    rw [buildSans, if_pos hlen]
    rfl

/-! ## Where everything else goes well -/

/-- The steps succeed that have no part in the serial number, the names and the times. -/
structure CertLib.Fine (L : CertLib Name ν τ κ) : Prop where
  x509New : L.x509New = true
  encodes : ∀ ex, L.encodes ex = true
  basicConstraintsNew : L.basicConstraintsNew = true
  sign : ∀ c signer hash, L.sign c signer hash = .ok ()

theorem CertLib.Fine.addExtD2i (hL : L.Fine) (ex : Extension) (c : Certificate ν τ κ) :
    addExtD2i L ex c = .ok { c with extensions := c.extensions ++ [ex] } := by
  rw [X509.addExtD2i, hL.encodes, if_neg Bool.noConfusion]

/-- Then a certificate is built if the serial number, the names and the times can be. -/
theorem CertLib.Fine.exists_buildAndSign (hL : L.Fine) {input : BuilderInput Name κ} {serial : ℤ}
    {subject issuer : ν} {notBefore notAfter : τ}
    (hserial : L.serialNumber input.serialHex = .ok serial)
    (hsubject : L.buildName input.subject = some subject)
    (hissuer : L.buildName input.issuer = some issuer)
    (hnb : L.parseIso input.notBefore = some notBefore)
    (hna : L.parseIso input.notAfter = some notAfter) (signer : κ) :
    ∃ c, buildAndSign L input signer = .ok c := by
  have hsans (c) : ∃ c', addSans L input.subjectAltNames c = .ok c' := by
    rcases input.subjectAltNames with _ | ⟨n, ns⟩
    · exact ⟨_, rfl⟩
    · exact ⟨_, hL.addExtD2i _ c⟩
  have hku (c) : ∃ c', addKeyUsage L input.keyUsage c = .ok c' := by
    rcases input.keyUsage with _ | flags
    · exact ⟨_, rfl⟩
    · exact ⟨_, hL.addExtD2i _ c⟩
  have heku (c) : ∃ c', addExtendedKeyUsage L input.extendedKeyUsage c = .ok c' := by
    rcases input.extendedKeyUsage with _ | ⟨u, us⟩
    · exact ⟨_, rfl⟩
    · exact ⟨_, hL.addExtD2i _ c⟩
  have hbc (c) : ∃ c', addBasicConstraints L input.basicConstraints c = .ok c' := by
    rcases input.basicConstraints with _ | bc
    · exact ⟨_, rfl⟩
    · rw [addBasicConstraints, hL.basicConstraintsNew, if_neg Bool.noConfusion]
      exact ⟨_, hL.addExtD2i _ c⟩
  -- the extensions are added one after the other, each to the certificate so far
  obtain ⟨c₁, h₁⟩ := hsans ⟨serial, subject, issuer, notBefore, notAfter, input.subjectKey, []⟩
  obtain ⟨c₂, h₂⟩ := hku c₁
  obtain ⟨c₃, h₃⟩ := heku c₂
  obtain ⟨c₄, h₄⟩ := hbc c₃
  refine ⟨c₄, ?_⟩
  rw [buildAndSign, hL.x509New, if_neg Bool.noConfusion]
  simp only [bind_eq_ok]
  exact ⟨serial, hserial, subject, orError_eq_ok.mpr hsubject, issuer, orError_eq_ok.mpr hissuer,
    notBefore, orError_eq_ok.mpr hnb, notAfter, orError_eq_ok.mpr hna, c₁, h₁, c₂, h₂, c₃, h₃, c₄,
    h₄, (), hL.sign c₄ signer _, rfl⟩

end

end OpenSSLWasm.X509
