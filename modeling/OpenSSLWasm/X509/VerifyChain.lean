import OpenSSLWasm.Support

/-!
# Chain verification

`verify_chain` in `src/x509.c` translates the options of the interface into an `X509_VERIFY_PARAM`
and leaves the rest to libcrypto, which enters the model as a parameter.

## Main definitions

* `VerifyOptions` and `VerifyParam`: the options of the interface, and those of libcrypto;
* `X509Lib` and `X509Lib.Documented`: the verification, and what it checks;
* `verifyChain`: the call;
* `referenceX509`: a verification that behaves as documented.

## Main results

* `verifyChain_eq_ok`: what a successful call has made sure of;
* `referenceX509_documented`.
-/

namespace OpenSSLWasm.X509

/-! ## Options -/

/-- `extended-key-usage`. -/
inductive ExtendedKeyUsage
  | serverAuth
  | clientAuth
  | codeSigning
  | emailProtection
  | timeStamping
  | ocspSigning
  | any
  deriving DecidableEq, Repr

/-- The purposes for which libcrypto validates a certificate. -/
inductive Purpose
  | sslServer
  | sslClient
  | codeSign
  | smimeSign
  | timestampSign
  | ocspHelper
  | any
  deriving DecidableEq, Repr

def purposeMap : ExtendedKeyUsage → Purpose
  | .serverAuth => .sslServer
  | .clientAuth => .sslClient
  | .codeSigning => .codeSign
  | .emailProtection => .smimeSign
  | .timeStamping => .timestampSign
  | .ocspSigning => .ocspHelper
  | .any => .any

/-- `verify-options`; strings are their bytes. -/
structure VerifyOptions where
  hostname : Option (List Byte) := none
  ip : Option (List Byte) := none
  purpose : Option ExtendedKeyUsage := none
  /-- The validation time, which `verify_chain` does not look at. -/
  atTime : Option (List Byte) := none
  partialChain : Bool := false
  crlCheck : Bool := false
  crlCheckAll : Bool := false
  deriving DecidableEq

/-- `X509_VERIFY_PARAM`: what is to be checked. -/
structure VerifyParam where
  host : Option (List Byte) := none
  ip : Option (List Byte) := none
  purpose : Option Purpose := none
  partialChain : Bool := false
  crlCheck : Bool := false
  crlCheckAll : Bool := false
  deriving DecidableEq

/-- What libcrypto makes of the strings that name an identity. -/
structure IdentitySyntax where
  /-- The names that `X509_VERIFY_PARAM_set1_host` installs. -/
  acceptsHost : List Byte → Bool
  /-- The address that a string denotes. -/
  parseIp : List Byte → Option (List Byte)
  /-- An address is written without NUL bytes. -/
  parseIp_of_nul : ∀ s, 0 ∈ s → parseIp s = none

namespace VerifyParam

variable (N : IdentitySyntax)

/-- `X509_VERIFY_PARAM_set1_host`: an empty name clears the check, any other name is installed or
refused. -/
def set1Host (vp : VerifyParam) (name : List Byte) : ℤ × VerifyParam :=
  if name = [] then (1, { vp with host := none })
  else if N.acceptsHost name then (1, { vp with host := some name })
  else (0, vp)

/-- `X509_VERIFY_PARAM_set1_ip_asc`. -/
def set1IpAsc (vp : VerifyParam) (ipasc : List Byte) : ℤ × VerifyParam :=
  match N.parseIp ipasc with
  | some a => (1, { vp with ip := some a })
  | none => (0, vp)

/-- The certificates of a chain that are checked for revocation: none without
`X509_V_FLAG_CRL_CHECK`, and the leaf or, with `X509_V_FLAG_CRL_CHECK_ALL`, all of them with it. -/
def checkedForRevocation {C : Type} (vp : VerifyParam) (chain : List C) : List C :=
  if vp.crlCheck then if vp.crlCheckAll then chain else chain.take 1 else []

end VerifyParam

/-! ## Verification -/

/-- Why `X509_verify_cert` fails, as far as the interface tells. -/
inductive VerifyError
  | certHasExpired
  | certNotYetValid
  | unableToGetIssuerCert
  | unableToGetIssuerCertLocally
  | certRevoked
  | hostnameMismatch
  | other (code : ℕ)
  deriving DecidableEq, Repr

/-- `x509-error`. -/
inductive X509Error
  | parseFailed
  | encodingFailed
  | signFailed
  | verifyFailed
  | badName
  | badExtension
  | keyMismatch
  | expired
  | notYetValid
  | unknownIssuer
  | untrusted
  | revoked
  | chainTooLong
  | selfSignedInChain
  | hostnameMismatch
  | internal (code : BitVec 32)
  deriving DecidableEq, Repr

/-- The verification of libcrypto, over types `κ` of stores and `C` of certificates. -/
structure X509Lib (κ C : Type) where
  identity : IdentitySyntax
  /-- The untrusted certificates that were stashed with a store. -/
  storeGetUntrusted : κ → List C
  /-- `X509_STORE_CTX_init` succeeds. -/
  ctxInit : κ → C → List C → Bool
  /-- `X509_verify_cert` and the chain it leaves, or its error. -/
  verifyCert : κ → C → List C → VerifyParam → Except VerifyError (List C)
  /-- `ERR_peek_last_error`, after a failure to initialise. -/
  peekLastError : BitVec 32
  /-- The chain that is built and validated for a purpose, partial or not, before any of the checks
  below. -/
  path : κ → C → List C → Option Purpose → Bool → Option (List C)
  matchesHost : C → List Byte → Bool
  matchesIp : C → List Byte → Bool
  /-- In this chain the certificate was checked against a CRL, and is not revoked. -/
  notRevoked : κ → List C → C → Bool

/-- The documented behaviour of the verification that the interface relies on: it checks exactly
what is set. -/
structure X509Lib.Documented {κ C : Type} (V : X509Lib κ C) : Prop where
  verifyCert_eq_ok : ∀ {store leaf untrusted vp chain},
    V.verifyCert store leaf untrusted vp = .ok chain ↔
      V.path store leaf untrusted vp.purpose vp.partialChain = some chain ∧
        (∀ h ∈ vp.host, V.matchesHost leaf h = true) ∧
        (∀ a ∈ vp.ip, V.matchesIp leaf a = true) ∧
        ∀ c ∈ vp.checkedForRevocation chain, V.notRevoked store chain c = true
  /-- A chain starts with the leaf. -/
  path_head : ∀ {store leaf untrusted purpose partialChain chain},
    V.path store leaf untrusted purpose partialChain = some chain → chain.head? = some leaf
  /-- A name that cannot be installed is no certificate's name. -/
  acceptsHost_of_matchesHost : ∀ {c h}, V.matchesHost c h = true →
    h ≠ [] ∧ V.identity.acceptsHost h = true

section

variable {κ C : Type} (V : X509Lib κ C)

/-- The parameters that `verify_chain` sets; what the setters return is ignored. -/
def verifyParam (N : IdentitySyntax) (opts : VerifyOptions) : VerifyParam :=
  let vp : VerifyParam := {}
  let vp := match opts.hostname with
    | some hostname => (vp.set1Host N hostname).2
    | none => vp
  -- the copy that is handed over ends at a NUL
  let vp := match opts.ip with
    | some ip => (vp.set1IpAsc N (cString ip)).2
    | none => vp
  let vp := match opts.purpose with
    | some purpose => { vp with purpose := some (purposeMap purpose) }
    | none => vp
  { vp with
    partialChain := opts.partialChain
    crlCheck := opts.crlCheck
    crlCheckAll := opts.crlCheckAll }

/-- The error that is reported for a failed verification. -/
def verifyError : VerifyError → X509Error
  | .certHasExpired => .expired
  | .certNotYetValid => .notYetValid
  | .unableToGetIssuerCert | .unableToGetIssuerCertLocally => .unknownIssuer
  | .certRevoked => .revoked
  | .hostnameMismatch => .hostnameMismatch
  | .other _ => .untrusted

def verifyChain (store : κ) (leaf : C) (extra : List C) (opts : VerifyOptions) :
    Except X509Error (List C) :=
  -- first the certificates stashed with the store, then those of the call
  let untrusted := V.storeGetUntrusted store ++ extra
  if V.ctxInit store leaf untrusted then
    (V.verifyCert store leaf untrusted (verifyParam V.identity opts)).mapError verifyError
  else .error (.internal V.peekLastError)

end

/-! ## What a successful call has made sure of -/

section

variable {N : IdentitySyntax} {opts : VerifyOptions}

/-- The name that is checked: one that was given, is not empty and was not refused. -/
theorem host_verifyParam :
    (verifyParam N opts).host = opts.hostname.filter fun h => h ≠ [] ∧ N.acceptsHost h := by
  have hhost : (match opts.hostname with
      | some hostname => (VerifyParam.set1Host N {} hostname).2
      | none => {}).host = opts.hostname.filter fun h => h ≠ [] ∧ N.acceptsHost h := by
    cases opts.hostname with
    | none => rfl
    | some h =>
      dsimp only [VerifyParam.set1Host]
      by_cases hnil : h = []
      · simp [hnil, Option.filter]
      · by_cases haccepts : N.acceptsHost h = true <;> simp [hnil, haccepts, Option.filter]
  -- the other options write other fields
  rw [← hhost, verifyParam]
  cases opts.ip with
  | none => cases opts.purpose <;> rfl
  | some ip =>
    dsimp only [VerifyParam.set1IpAsc]
    cases N.parseIp (cString ip) <;> cases opts.purpose <;> rfl

/-- The address that is checked: the one that the string denotes up to a NUL. -/
theorem ip_verifyParam :
    (verifyParam N opts).ip = opts.ip.bind fun ip => N.parseIp (cString ip) := by
  have hip : ∀ vp : VerifyParam, vp.ip = none → (match opts.ip with
      | some ip => (vp.set1IpAsc N (cString ip)).2
      | none => vp).ip = opts.ip.bind fun ip => N.parseIp (cString ip) := by
    intro vp hvp
    cases opts.ip with
    | none => exact hvp
    | some ip =>
      dsimp only [VerifyParam.set1IpAsc]
      cases hparse : N.parseIp (cString ip) <;> simp [hvp, hparse]
  rw [verifyParam]
  cases opts.hostname with
  | none =>
    rw [← hip {} rfl]
    cases opts.purpose <;> rfl
  | some h =>
    rw [← hip (VerifyParam.set1Host N {} h).2 (by unfold VerifyParam.set1Host; split_ifs <;> rfl)]
    cases opts.purpose <;> rfl

theorem checkedForRevocation_verifyParam {C : Type} (chain : List C) :
    (verifyParam N opts).checkedForRevocation chain =
      if opts.crlCheck then if opts.crlCheckAll then chain else chain.take 1 else [] :=
  rfl

theorem mapError_eq_ok {α ε ε' : Type} {x : Except ε α} {f : ε → ε'} {a : α} :
    x.mapError f = .ok a ↔ x = .ok a := by
  cases x <;> simp [Except.mapError]

variable {κ C : Type} {V : X509Lib κ C} {store : κ} {leaf : C} {extra chain : List C}

/-- A successful call has built a chain from the leaf, and checked what could be installed of the
options. -/
theorem verifyChain_eq_ok (hV : V.Documented)
    (h : verifyChain V store leaf extra opts = .ok chain) :
    chain.head? = some leaf ∧
      (∀ name ∈ opts.hostname, name ≠ [] → V.identity.acceptsHost name = true →
        V.matchesHost leaf name = true) ∧
      (∀ ip ∈ opts.ip, ∀ a ∈ V.identity.parseIp (cString ip), V.matchesIp leaf a = true) ∧
      ∀ c ∈ (verifyParam V.identity opts).checkedForRevocation chain,
        V.notRevoked store chain c = true := by
  dsimp only [verifyChain] at h
  split at h
  · rw [mapError_eq_ok] at h
    obtain ⟨hpath, hhost, hip, hrevoked⟩ := hV.verifyCert_eq_ok.mp h
    refine ⟨hV.path_head hpath, ?_, ?_, hrevoked⟩
    · intro name hname hnil haccepts
      refine hhost name ?_
      rw [host_verifyParam, Option.mem_def, hname]
      simp [hnil, haccepts, Option.filter]
    · intro ip hmem a ha
      refine hip a ?_
      rw [ip_verifyParam, Option.mem_def, hmem]
      exact ha
  · cases h

end

/-! ## A verification that behaves as documented -/

/-- One certificate, which matches every identity that can be installed, and about whose
revocation a given answer is known. -/
def referenceX509 (N : IdentitySyntax) (notRevoked : Bool) : X509Lib Unit Unit where
  identity := N
  storeGetUntrusted _ := []
  ctxInit _ _ _ := true
  verifyCert _ leaf _ vp :=
    if (∀ h ∈ vp.host, h ≠ [] ∧ N.acceptsHost h = true) ∧
        (vp.checkedForRevocation [leaf] = [] ∨ notRevoked = true) then .ok [leaf]
    else .error .certRevoked
  peekLastError := 0
  path _ leaf _ _ _ := some [leaf]
  matchesHost _ h := h ≠ [] ∧ N.acceptsHost h
  matchesIp _ _ := true
  notRevoked _ _ _ := notRevoked

theorem referenceX509_documented (N : IdentitySyntax) (notRevoked : Bool) :
    (referenceX509 N notRevoked).Documented where
  verifyCert_eq_ok {store leaf untrusted vp chain} := by
    have hchecked : vp.checkedForRevocation [leaf] = [] ∨
        vp.checkedForRevocation [leaf] = [leaf] := by
      unfold VerifyParam.checkedForRevocation
      split_ifs <;> simp
    dsimp only [referenceX509]
    constructor
    · intro h
      split_ifs at h with hcond
      obtain rfl := Except.ok.inj h
      obtain ⟨hhost, hrevoked⟩ := hcond
      refine ⟨rfl, fun name hname => by simpa using hhost name hname, fun _ _ => rfl, ?_⟩
      intro c hc
      rcases hrevoked with hnil | hrevoked
      · rw [hnil] at hc
        cases hc
      · exact hrevoked
    · rintro ⟨hpath, hhost, -, hrevoked⟩
      obtain rfl := Option.some.inj hpath
      refine if_pos ⟨fun name hname => by simpa using hhost name hname, ?_⟩
      rcases hchecked with hnil | hleaf
      · exact Or.inl hnil
      · exact Or.inr (hrevoked leaf (by rw [hleaf]; exact List.mem_singleton_self leaf))
  path_head {store leaf untrusted purpose partialChain chain} h := by
    obtain rfl := Option.some.inj h
    rfl
  acceptsHost_of_matchesHost {c h} hmatch := by
    simpa [referenceX509] using hmatch

/-- It verifies its certificate whatever the options, if the certificate is not revoked or nobody
asks. -/
theorem verifyChain_reference (N : IdentitySyntax) {notRevoked : Bool} {opts : VerifyOptions}
    (h : opts.crlCheck = false ∨ notRevoked = true) :
    verifyChain (referenceX509 N notRevoked) () () [] opts = .ok [()] := by
  have hcond : (∀ name ∈ (verifyParam N opts).host, name ≠ [] ∧ N.acceptsHost name = true) ∧
      ((verifyParam N opts).checkedForRevocation [()] = [] ∨ notRevoked = true) := by
    constructor
    · intro name hname
      rw [host_verifyParam, Option.mem_def, Option.filter_eq_some_iff] at hname
      simpa using hname.2
    · refine h.imp_left fun hcrl => ?_
      rw [checkedForRevocation_verifyParam, hcrl, if_neg Bool.false_ne_true]
  have hverify : (referenceX509 N notRevoked).verifyCert () () [] (verifyParam N opts) =
    .ok [()] := if_pos hcond
  exact mapError_eq_ok.mpr hverify

end OpenSSLWasm.X509
