import OpenSSLWasm.KdfRequests
import OpenSSLWasm.Lib.Ledger
import OpenSSLWasm.Provider.Signature
import OpenSSLWasm.X509.Build

/-!
# Signing certificates and requests

`sign_cert_with_pkey` and `sign_csr_with_pkey` of `src/x509_build.c` sign through the EVP functions
for digests: they write the algorithm into what is signed, encode that, ask for the size of the
signature, make it, and store it.

## Main definitions

* `SignedCert`, `SignedReq` and `BitString`: what has a signature;
* `SignEvp` and `SignsFor`: the EVP functions, and that their signatures verify;
* `sigalgNidFor`, `signTbs`, `signCertWithPkey` and `signCsrWithPkey`: the functions;
* `certificateVerifySignature` and `csrVerifySignature`: the calls that verify.

## Main results

* `built_verifies`: what is built verifies, a certificate under the key of its signer and a request
  under its own;
* `signCertWithPkey_bridge`: with a key behind the bridge it has the signature of the provider if
  that has at most 512 bytes;
* `settle_sign`: nothing is left of a signature that fails.
-/

namespace OpenSSLWasm.X509

open Kdf Ledger Provider SizeProbe

/-! ## Signatures -/

/-- The number of an algorithm. -/
abbrev Nid := ℕ

/-- `NID_ED25519`, which is also `EVP_PKEY_ED25519`. -/
def nidEd25519 : Nid := 1087

def nidEd448 : Nid := 1088

/-- `ASN1_BIT_STRING`. -/
structure BitString where
  bytes : List Byte := []
  flags : BitVec 32 := 0

/-- `ASN1_STRING_FLAG_BITS_LEFT`: the low three bits of the flags are the unused bits. -/
def flagBitsLeft : BitVec 32 := 0x08

/-- `ASN1_BIT_STRING_set`, and the flags that are set after it. -/
def BitString.setSignature (s : BitString) (sig : List Byte) : BitString :=
  -- the length is an `int`, and with a negative one a C string is read
  let bytes := if cInt sig.length < 0 then cString sig else sig
  let flags := s.flags &&& ~~~(flagBitsLeft ||| 0x07)
  { bytes, flags := flags ||| flagBitsLeft }

/-- A certificate with the algorithm that is signed with it, and the one beside its signature. -/
structure SignedCert (β : Type) where
  body : β
  tbsAlg : Nid
  alg : Nid
  signature : BitString

structure SignedReq (β : Type) where
  body : β
  alg : Nid
  signature : BitString

/-! ## Signing -/

/-- The functions for signatures, with keys `κ` and contexts `σ`. -/
structure SignEvp (κ σ : Type) where
  build : Digest.Build
  /-- `EVP_PKEY_get_base_id`. -/
  baseId : κ → Nid
  /-- `OBJ_find_sigid_by_algs`, for a digest and a kind of key. -/
  findSigidByAlgs : DigestAlgorithm → Nid → Option Nid
  /-- `X509_ALGOR_new`. -/
  algorNew : Bool
  /-- `OBJ_nid2obj`, `X509_ALGOR_set0` and `X509_REQ_set1_signature_algo`. -/
  algorSet : Nid → Bool
  /-- `EVP_MD_CTX_new`. -/
  mdCtxNew : Bool
  /-- `EVP_DigestSignInit_ex`, with the name of a digest. -/
  digestSignInit : κ → Option (List Byte) → Option σ
  /-- `EVP_DigestSign`, with a buffer of a size or without one. -/
  digestSign : σ → List Byte → Option ℕ → Answer Byte × σ
  malloc : ℕ → Bool
  /-- `ASN1_BIT_STRING_new`. -/
  bitStringNew : Bool
  /-- `ASN1_BIT_STRING_set`. -/
  bitStringSet : Bool

/-- What is allocated while something is signed. -/
inductive SignResource
  | algor
  | tbs
  | mdctx
  | sig
  | bitString
  deriving DecidableEq

section

variable {β κ σ : Type} (E : SignEvp κ σ)

def isEdwards (sid : Nid) : Bool := sid = nidEd25519 || sid = nidEd448

/-- `mdname`. -/
def signMdname (signer : κ) (hash : DigestAlgorithm) : Option (List Byte) :=
  if isEdwards (E.baseId signer) then none else witDigestName hash

def sigalgNidFor (pkey : κ) (hash : DigestAlgorithm) : Option Nid :=
  let sid := E.baseId pkey
  if sid = nidEd25519 then some nidEd25519
  else if sid = nidEd448 then some nidEd448
  else
    match witDigestMd E.build hash with
    | none => none
    | some md => E.findSigidByAlgs md sid

/-- The steps that both functions have from the encoded bytes to the signature, which is left in its
buffer. -/
def signTbs (signer : κ) (mdname : Option (List Byte)) (tbs : Option (List Byte)) :
    Acct SignResource (Except X509Error (List Byte)) :=
  match tbs with
  | none => pure (.error .encodingFailed)
  | some der => do
    acquire .tbs
    if E.mdCtxNew = false then do
      release .tbs
      pure (.error .signFailed)
    else do
      acquire .mdctx
      match E.digestSignInit signer mdname with
      | none => do
        releaseAll [.mdctx, .tbs]
        pure (.error .signFailed)
      | some c =>
        match E.digestSign c der none with
        | (.size (n + 1), c) =>
          if E.malloc (n + 1) = false then do
            releaseAll [.mdctx, .tbs]
            pure (.error (.internal 0))
          else do
            acquire .sig
            match E.digestSign c der (some (n + 1)) with
            | (.result out, _) => do
              releaseAll [.mdctx, .tbs]
              pure (.ok out)
            | _ => do
              releaseAll [.mdctx, .tbs, .sig]
              pure (.error .signFailed)
        -- a size of 0 is no size
        | _ => do
          releaseAll [.mdctx, .tbs]
          pure (.error .signFailed)

/-- `i2dTbs` is `i2d_re_X509_tbs`, for what is signed and the algorithm in it. -/
def signCertWithPkey (i2dTbs : β → Nid → Option (List Byte)) (body : β) (signer : κ)
    (hash : DigestAlgorithm) : Acct SignResource (Except X509Error (SignedCert β)) :=
  let mdname := signMdname E signer hash
  match sigalgNidFor E signer hash with
  | none => pure (.error .signFailed)
  | some signid =>
    if E.algorSet signid = false then pure (.error (.internal 0))
    else do
      -- both algorithms are set before anything is encoded
      match ← signTbs E signer mdname (i2dTbs body signid) with
      | .error e => pure (.error e)
      | .ok sig => do
        release .sig
        if E.bitStringSet = false then pure (.error .encodingFailed)
        else
          pure (.ok { body, tbsAlg := signid, alg := signid,
                      signature := BitString.setSignature {} sig })

/-- `i2dTbs` is `i2d_re_X509_REQ_tbs`. -/
def signCsrWithPkey (i2dTbs : β → Option (List Byte)) (body : β) (signer : κ)
    (hash : DigestAlgorithm) : Acct SignResource (Except X509Error (SignedReq β)) :=
  let mdname := signMdname E signer hash
  match sigalgNidFor E signer hash with
  | none => pure (.error .signFailed)
  | some signid =>
    if E.algorNew = false then pure (.error (.internal 0))
    else do
      acquire .algor
      release .algor
      if E.algorSet signid = false then pure (.error (.internal 0))
      else do
        match ← signTbs E signer mdname (i2dTbs body) with
        | .error e => pure (.error e)
        | .ok sig =>
          if E.bitStringNew = false then do
            release .sig
            pure (.error .encodingFailed)
          else do
            acquire .bitString
            release .sig
            if E.bitStringSet = false then do
              release .bitString
              pure (.error .encodingFailed)
            else
              -- the string belongs to the request now
              pure (.ok { body, alg := signid, signature := BitString.setSignature {} sig })

/-! ## Verifying -/

variable {π : Type} (verify : π → Nid → List Byte → List Byte → Bool)

/-- What `ASN1_item_verify` answers about encoded bytes: a signature must have no unused bits. -/
def asn1ItemVerify (alg : Nid) (signature : BitString) (tbs : Option (List Byte)) (k : π) : ℤ :=
  match tbs with
  | none => -1
  | some tbs =>
    if signature.flags &&& 0x07 ≠ 0 then -1
    else if verify k alg tbs signature.bytes then 1 else 0

/-- `X509_verify`, which compares the two algorithms first. -/
def x509Verify (i2dTbs : β → Nid → Option (List Byte)) (s : SignedCert β) (k : π) : ℤ :=
  if s.tbsAlg ≠ s.alg then 0
  else asn1ItemVerify verify s.alg s.signature (i2dTbs s.body s.tbsAlg) k

/-- `X509_REQ_verify`. -/
def x509ReqVerify (i2dTbs : β → Option (List Byte)) (s : SignedReq β) (k : π) : ℤ :=
  asn1ItemVerify verify s.alg s.signature (i2dTbs s.body) k

/-- `certificate.verify-signature`. -/
def certificateVerifySignature (i2dTbs : β → Nid → Option (List Byte)) (s : SignedCert β)
    (issuer : π) : Except X509Error Bool :=
  let rc := x509Verify verify i2dTbs s issuer
  if rc < 0 then .error .verifyFailed else .ok (rc = 1)

/-- `csr.verify-signature`, with what `X509_REQ_get_pubkey` finds in the request. -/
def csrVerifySignature (i2dTbs : β → Option (List Byte)) (pubkey : β → Option π)
    (s : SignedReq β) : Except X509Error Bool :=
  match pubkey s.body with
  | none => .error .verifyFailed
  | some pk =>
    let rc := x509ReqVerify verify i2dTbs s pk
    if rc < 0 then .error .verifyFailed else .ok (rc = 1)

end

/-! ## What is signed -/

section

variable {β κ σ π : Type} {E : SignEvp κ σ}

theorem signTbs_eq_ok_iff {signer : κ} {mdname : Option (List Byte)} {tbs : Option (List Byte)}
    {out : List Byte} :
    (signTbs E signer mdname tbs).result = .ok out ↔
      ∃ der c n c', tbs = some der ∧ E.mdCtxNew = true ∧ E.digestSignInit signer mdname = some c ∧
        E.digestSign c der none = (.size (n + 1), c') ∧ E.malloc (n + 1) = true ∧
        (E.digestSign c' der (some (n + 1))).1 = .result out := by
  unfold signTbs
  rcases tbs with _ | der
  · simp
  rcases hnew : E.mdCtxNew with _ | _
  · simp
  rcases hinit : E.digestSignInit signer mdname with _ | c
  · simp
  rcases hprobe : E.digestSign c der none with ⟨_ | (_ | n) | r, c'⟩
  · simp [hprobe]
  · simp [hprobe]
  · rcases hmalloc : E.malloc (n + 1) with _ | _
    · simp [hprobe, hmalloc]
    · rcases hcall : E.digestSign c' der (some (n + 1)) with ⟨_ | _ | r, c''⟩ <;>
        simp [hprobe, hmalloc, hcall]
  · simp [hprobe]

/-- The signature is what a call gives that has been asked for its size. -/
theorem signTbs_eq_ok {signer : κ} {mdname : Option (List Byte)} {tbs : Option (List Byte)}
    {out : List Byte} (h : (signTbs E signer mdname tbs).result = .ok out) :
    ∃ der c, tbs = some der ∧ E.digestSignInit signer mdname = some c ∧
      probeThenCall (E.digestSign · der) 0 c = some out := by
  obtain ⟨der, c, n, c', hder, -, hinit, hprobe, -, hcall⟩ := signTbs_eq_ok_iff.mp h
  refine ⟨der, c, hder, hinit, ?_⟩
  simp only [probeThenCall, hprobe, hcall, Answer.result?]

/-- The name of the digest, and its algorithm, for which `digestSign` gives a signature. -/
structure SignsFor (E : SignEvp κ σ) (publicKey : κ → π)
    (verify : π → Nid → List Byte → List Byte → Bool) : Prop where
  verifies : ∀ signer hash alg c der sig, sigalgNidFor E signer hash = some alg →
    E.digestSignInit signer (signMdname E signer hash) = some c →
    probeThenCall (E.digestSign · der) 0 c = some sig → verify (publicKey signer) alg der sig = true
  length_lt : ∀ c der sig, probeThenCall (E.digestSign · der) 0 c = some sig → sig.length < 2 ^ 31

theorem signCertWithPkey_eq_ok_iff {i2dTbs : β → Nid → Option (List Byte)} {body : β} {signer : κ}
    {hash : DigestAlgorithm} {s : SignedCert β} :
    (signCertWithPkey E i2dTbs body signer hash).result = .ok s ↔
      ∃ alg sig, sigalgNidFor E signer hash = some alg ∧ E.algorSet alg = true ∧
        (signTbs E signer (signMdname E signer hash) (i2dTbs body alg)).result = .ok sig ∧
        E.bitStringSet = true ∧ s = ⟨body, alg, alg, BitString.setSignature {} sig⟩ := by
  unfold signCertWithPkey
  rcases sigalgNidFor E signer hash with _ | alg
  · simp
  rcases hset : E.algorSet alg with _ | _
  · simp [hset]
  rcases hsig : (signTbs E signer (signMdname E signer hash) (i2dTbs body alg)).result with e | sig
  · simp [hset, hsig]
  · rcases hstring : E.bitStringSet with _ | _
    · simp [hset, hsig]
    · simp [hset, hsig]
      exact eq_comm

theorem signCsrWithPkey_eq_ok_iff {i2dTbs : β → Option (List Byte)} {body : β} {signer : κ}
    {hash : DigestAlgorithm} {s : SignedReq β} :
    (signCsrWithPkey E i2dTbs body signer hash).result = .ok s ↔
      ∃ alg sig, sigalgNidFor E signer hash = some alg ∧
        (E.algorNew = true ∧ E.algorSet alg = true) ∧
        (signTbs E signer (signMdname E signer hash) (i2dTbs body)).result = .ok sig ∧
        (E.bitStringNew = true ∧ E.bitStringSet = true) ∧
        s = ⟨body, alg, BitString.setSignature {} sig⟩ := by
  unfold signCsrWithPkey
  rcases sigalgNidFor E signer hash with _ | alg
  · simp
  rcases hnew : E.algorNew with _ | _
  · simp
  rcases hset : E.algorSet alg with _ | _
  · simp [hset]
  rcases hsig : (signTbs E signer (signMdname E signer hash) (i2dTbs body)).result with e | sig
  · simp [hset, hsig]
  · rcases hstring : E.bitStringNew with _ | _
    · simp [hset, hsig]
    · rcases hstring' : E.bitStringSet with _ | _
      · simp [hset, hsig]
      · simp [hset, hsig]
        exact eq_comm

/-- The flags that are set hide what was there before. -/
theorem and_flags_setSignature (s : BitString) (sig : List Byte) {m : BitVec 32}
    (hm : ~~~(flagBitsLeft ||| 0x07) &&& m = 0#32) :
    (s.setSignature sig).flags &&& m = flagBitsLeft &&& m := by
  show (s.flags &&& ~~~(flagBitsLeft ||| 0x07) ||| flagBitsLeft) &&& m = _
  rw [BitVec.and_or_distrib_right, BitVec.and_assoc, hm, BitVec.and_zero, BitVec.zero_or]

/-- The string that is stored for a signature has all its bytes, and no unused bits. -/
theorem setSignature_of_lt {sig : List Byte} (h : sig.length < 2 ^ 31) (s : BitString) :
    (s.setSignature sig).bytes = sig ∧ (s.setSignature sig).flags &&& flagBitsLeft ≠ 0 ∧
      (s.setSignature sig).flags &&& 0x07 = 0 := by
  have hlen : ¬cInt sig.length < 0 := by
    rw [cInt_of_lt h]
    omega
  refine ⟨if_neg hlen, ?_, ?_⟩
  · rw [and_flags_setSignature s sig (by decide)]
    decide
  · rw [and_flags_setSignature s sig (by decide)]
    decide

theorem asn1ItemVerify_setSignature {verify : π → Nid → List Byte → List Byte → Bool} {alg : Nid}
    {der sig : List Byte} (h : sig.length < 2 ^ 31) (k : π) :
    asn1ItemVerify verify alg (BitString.setSignature {} sig) (some der) k =
      if verify k alg der sig then 1 else 0 := by
  obtain ⟨hbytes, -, hunused⟩ := setSignature_of_lt h {}
  simp only [asn1ItemVerify, hunused, hbytes]
  rfl

/-! ## What is built -/

variable {Name ν τ : Type}

/-- The builders, with the steps for signatures. -/
def CertLib.withSigning (L : CertLib Name ν τ κ) (E : SignEvp κ σ)
    (i2dTbs : Certificate ν τ κ → Nid → Option (List Byte))
    (i2dReqTbs : Csr ν κ → Option (List Byte)) : CertLib Name ν τ κ :=
  { L with
    sign := fun c signer hash => (signCertWithPkey E i2dTbs c signer hash).result.map fun _ => ()
    signReq := fun r signer hash => (signCsrWithPkey E i2dReqTbs r signer hash).result.map fun _ => () }

theorem sign_of_buildAndSign {L : CertLib Name ν τ κ} {input : BuilderInput Name κ} {signer : κ}
    {c : Certificate ν τ κ} (h : buildAndSign L input signer = .ok c) :
    L.sign c signer input.signatureHash = .ok () := by
  rw [buildAndSign, ite_error_eq_ok] at h
  simp only [bind_eq_ok] at h
  obtain ⟨-, _, -, _, -, _, -, _, -, _, -, _, -, _, -, _, -, c', -, _, hsign, h⟩ := h
  cases h
  exact hsign

theorem signReq_of_csrBuildAndSign {L : CertLib Name ν τ κ} {subject : Name}
    {sans : List (GeneralName ListU8)} {key : κ} {hash : DigestAlgorithm} {r : Csr ν κ}
    (h : csrBuildAndSign L subject sans key hash = .ok r) :
    L.signReq r key hash = .ok () ∧ r.pubkey = key := by
  rw [csrBuildAndSign, ite_error_eq_ok] at h
  simp only [bind_eq_ok] at h
  obtain ⟨-, name, -, r', hr, _, hsign, h⟩ := h
  cases h
  refine ⟨hsign, ?_⟩
  rw [addReqSans] at hr
  split at hr
  · obtain ⟨gens, -, hr⟩ := bind_eq_ok.mp hr
    rw [ite_error_eq_ok] at hr
    rw [← Except.ok.inj hr.2]
  · rw [← Except.ok.inj hr]

theorem map_eq_ok {ε α γ : Type} {x : Except ε α} {f : α → γ} {y : γ} :
    x.map f = .ok y ↔ ∃ a, x = .ok a ∧ f a = y := by
  rcases x with e | a <;> simp [Except.map]

/-- A certificate that is built is signed with the algorithm that is written into it, for the digest
and the key, and the signature is kept with all its bits. To verify it with a key is to verify the
signature of the encoded bytes, and succeeds with the key of the signer; a request verifies with its
own. -/
theorem built_verifies {publicKey : κ → π} {verify : π → Nid → List Byte → List Byte → Bool}
    (hE : SignsFor E publicKey verify) (L : CertLib Name ν τ κ)
    (i2dTbs : Certificate ν τ κ → Nid → Option (List Byte))
    (i2dReqTbs : Csr ν κ → Option (List Byte)) :
    (∀ input signer c,
      buildAndSign (L.withSigning E i2dTbs i2dReqTbs) input signer = .ok c →
      ∃ s, (signCertWithPkey E i2dTbs c signer input.signatureHash).result = .ok s ∧ s.body = c ∧
        sigalgNidFor E signer input.signatureHash = some s.alg ∧ s.tbsAlg = s.alg ∧
        s.signature.flags &&& flagBitsLeft ≠ 0 ∧ s.signature.flags &&& 0x07 = 0 ∧
        (∃ der, i2dTbs c s.alg = some der ∧ ∀ k,
          certificateVerifySignature verify i2dTbs s k =
            .ok (verify k s.alg der s.signature.bytes)) ∧
        certificateVerifySignature verify i2dTbs s (publicKey signer) = .ok true) ∧
    ∀ subject sans key hash r,
      csrBuildAndSign (L.withSigning E i2dTbs i2dReqTbs) subject sans key hash = .ok r →
      ∃ s, (signCsrWithPkey E i2dReqTbs r key hash).result = .ok s ∧ s.body = r ∧
        sigalgNidFor E key hash = some s.alg ∧
        csrVerifySignature verify i2dReqTbs (fun r => some (publicKey r.pubkey)) s = .ok true := by
  constructor
  · intro input signer c h
    obtain ⟨s, hs, -⟩ := map_eq_ok.mp (sign_of_buildAndSign h)
    obtain ⟨alg, sig, halg, -, hsig, -, rfl⟩ := signCertWithPkey_eq_ok_iff.mp hs
    obtain ⟨der, ctx, hder, hinit, hprobe⟩ := signTbs_eq_ok hsig
    have hlt := hE.length_lt ctx der sig hprobe
    obtain ⟨hbytes, hleft, hunused⟩ := setSignature_of_lt hlt {}
    have hverify (k : π) : certificateVerifySignature verify i2dTbs
        ⟨c, alg, alg, BitString.setSignature {} sig⟩ k = .ok (verify k alg der sig) := by
      simp only [certificateVerifySignature, x509Verify, hder, asn1ItemVerify_setSignature hlt]
      rcases verify k alg der sig with _ | _ <;> simp
    refine ⟨_, hs, rfl, halg, rfl, hleft, hunused, ⟨der, hder, fun k => ?_⟩, ?_⟩
    · rw [hverify, hbytes]
    · rw [hverify, hE.verifies signer _ alg ctx der sig halg hinit hprobe]
  · intro subject sans key hash r h
    obtain ⟨hsign, hkey⟩ := signReq_of_csrBuildAndSign h
    obtain ⟨s, hs, -⟩ := map_eq_ok.mp hsign
    obtain ⟨alg, sig, halg, -, hsig, -, rfl⟩ := signCsrWithPkey_eq_ok_iff.mp hs
    obtain ⟨der, ctx, hder, hinit, hprobe⟩ := signTbs_eq_ok hsig
    have hlt := hE.length_lt ctx der sig hprobe
    refine ⟨_, hs, rfl, halg, ?_⟩
    simp only [csrVerifySignature, x509ReqVerify, hder, asn1ItemVerify_setSignature hlt, hkey,
      hE.verifies key _ alg ctx der sig halg hinit hprobe]
    rfl

/-! ## Keys behind the bridge -/

/-- The functions where the key is of the provider that is composed in. -/
def SignEvp.bridge (E : SignEvp κ σ) (B : SignatureBackend σ) : SignEvp κ σ :=
  { E with digestSign := fun c der sig => witSignatureDigestSign B der c sig }

theorem probeThenCall_bridge (E : SignEvp κ σ) (B : SignatureBackend σ) (c : σ)
    (der : List Byte) :
    probeThenCall ((E.bridge B).digestSign · der) 0 c =
      (B.digestSign c der).1.filter (·.length ≤ 512) := by
  have hprobe : (E.bridge B).digestSign c der none = (.size 512, c) := rfl
  rw [probeThenCall_of_size hprobe]
  exact result?_copySignature 512 _

/-- With room for the 512 bytes that are announced, the steps give the signature of the provider
if it has no more. -/
theorem signTbs_bridge (E : SignEvp κ σ) (B : SignatureBackend σ) (signer : κ)
    (mdname tbs : Option (List Byte)) (sig : List Byte) :
    (signTbs (E.bridge B) signer mdname tbs).result = .ok sig ↔
      ∃ der c, tbs = some der ∧ E.mdCtxNew = true ∧ E.digestSignInit signer mdname = some c ∧
        E.malloc 512 = true ∧ (B.digestSign c der).1 = some sig ∧ sig.length ≤ 512 := by
  rw [signTbs_eq_ok_iff]
  constructor
  · rintro ⟨der, c, n, c', rfl, hnew, hinit, hprobe, hmalloc, hcall⟩
    have hpair : (.size 512, c) = (Answer.size (n + 1), c') := hprobe
    obtain ⟨hsize, rfl⟩ := Prod.mk.inj hpair
    obtain rfl : n = 511 := by
      have := Answer.size.inj hsize
      omega
    have hsig : (copySignature 512 (B.digestSign c der)).1.result? = some sig :=
      congrArg Answer.result? hcall
    rw [result?_copySignature, Option.filter_eq_some_iff] at hsig
    exact ⟨der, c, rfl, hnew, hinit, hmalloc, hsig.1, of_decide_eq_true hsig.2⟩
  · rintro ⟨der, c, rfl, hnew, hinit, hmalloc, hsig, hle⟩
    refine ⟨der, c, 511, c, rfl, hnew, hinit, rfl, hmalloc, ?_⟩
    show (copySignature 512 (B.digestSign c der)).1 = _
    rcases hB : B.digestSign c der with ⟨o, c'⟩
    rw [hB] at hsig
    obtain rfl : o = some sig := hsig
    rw [copySignature, if_neg (Nat.not_lt.mpr hle)]

/-- With a key behind the bridge, a certificate is signed exactly if the provider makes a signature
of at most 512 bytes and nothing around it fails, and then it has that signature. If the signatures
of the provider verify, so do the certificates and the requests. -/
theorem signCertWithPkey_bridge (E : SignEvp κ σ) (B : SignatureBackend σ)
    (i2dTbs : β → Nid → Option (List Byte)) (body : β) (signer : κ) (hash : DigestAlgorithm) :
    (∀ s, (signCertWithPkey (E.bridge B) i2dTbs body signer hash).result = .ok s ↔
      ∃ alg der c sig, sigalgNidFor E signer hash = some alg ∧ E.algorSet alg = true ∧
        i2dTbs body alg = some der ∧ E.mdCtxNew = true ∧
        E.digestSignInit signer (signMdname E signer hash) = some c ∧ E.malloc 512 = true ∧
        (B.digestSign c der).1 = some sig ∧ sig.length ≤ 512 ∧ E.bitStringSet = true ∧
        s = ⟨body, alg, alg, ⟨sig, flagBitsLeft⟩⟩) ∧
    ∀ (publicKey : κ → π) (verify : π → Nid → List Byte → List Byte → Bool),
      (∀ signer hash alg c der sig, sigalgNidFor E signer hash = some alg →
        E.digestSignInit signer (signMdname E signer hash) = some c →
        (B.digestSign c der).1 = some sig → verify (publicKey signer) alg der sig = true) →
      SignsFor (E.bridge B) publicKey verify := by
  constructor
  · intro s
    have hstring {sig : List Byte} (h : sig.length ≤ 512) :
        BitString.setSignature {} sig = ⟨sig, flagBitsLeft⟩ := by
      have hlen : ¬cInt sig.length < 0 := by
        rw [cInt_of_lt (by omega)]
        omega
      rw [BitString.setSignature, if_neg hlen]
      rfl
    rw [signCertWithPkey_eq_ok_iff]
    constructor
    · rintro ⟨alg, sig, halg, hset, hsig, hbits, rfl⟩
      obtain ⟨der, c, hder, hnew, hinit, hmalloc, hsig, hle⟩ := (signTbs_bridge E B _ _ _ _).mp hsig
      exact ⟨alg, der, c, sig, halg, hset, hder, hnew, hinit, hmalloc, hsig, hle, hbits,
        congrArg _ (hstring hle)⟩
    · rintro ⟨alg, der, c, sig, halg, hset, hder, hnew, hinit, hmalloc, hsig, hle, hbits, rfl⟩
      exact ⟨alg, sig, halg, hset,
        (signTbs_bridge E B _ _ _ _).mpr ⟨der, c, hder, hnew, hinit, hmalloc, hsig, hle⟩, hbits,
        congrArg _ (hstring hle).symm⟩
  · intro publicKey verify hB
    refine ⟨fun signer hash alg c der sig halg hinit hprobe => ?_, fun c der sig hprobe => ?_⟩
    · rw [probeThenCall_bridge, Option.filter_eq_some_iff] at hprobe
      exact hB signer hash alg c der sig halg hinit hprobe.1
    · rw [probeThenCall_bridge, Option.filter_eq_some_iff] at hprobe
      have := of_decide_eq_true hprobe.2
      omega

/-! ## What is left -/

/-- The steps leave the buffer of a signature. -/
theorem triple_signTbs (signer : κ) (mdname tbs : Option (List Byte)) :
    Triple 0 (signTbs E signer mdname tbs) fun r => (given r.isOk .sig : List SignResource) := by
  have hheld : ({.sig} + ({.mdctx} + ({.tbs} + 0)) : Multiset SignResource) =
      ([.mdctx, .tbs] : List SignResource) + ([.sig] : List SignResource) := by decide
  unfold signTbs
  split
  · exact Triple.pure rfl
  · refine Triple.acquire_then (Triple.ite (fun _ => ?_) fun _ => ?_)
    · exact Triple.release_then 0 rfl (Triple.pure rfl)
    · refine Triple.acquire_then ?_
      split
      · exact Triple.exit rfl
      · split
        · refine Triple.ite (fun _ => Triple.exit rfl) fun _ => Triple.acquire_then ?_
          split
          · exact Triple.exit hheld
          · exact Triple.exit (by decide)
        · exact Triple.exit rfl

/-- Whatever fails, a certificate keeps nothing that was allocated for its signature, and a request
just the string that belongs to it. -/
theorem settle_sign (E : SignEvp κ σ) (signer : κ) (hash : DigestAlgorithm) :
    (∀ (i2dTbs : β → Nid → Option (List Byte)) (body : β),
      settle 0 (signCertWithPkey E i2dTbs body signer hash).entries = some 0) ∧
    ∀ (i2dTbs : β → Option (List Byte)) (body : β),
      let a := signCsrWithPkey E i2dTbs body signer hash
      settle 0 a.entries = some (given a.result.isOk .bitString : List SignResource) := by
  constructor
  · intro i2dTbs body
    show Triple 0 (signCertWithPkey E i2dTbs body signer hash) fun _ => 0
    unfold signCertWithPkey
    split
    · exact Triple.pure rfl
    · refine Triple.ite (fun _ => Triple.pure rfl) fun _ => ?_
      refine Triple.bind (triple_signTbs signer _ _) ?_
      rcases (signTbs E signer (signMdname E signer hash) _).result with e | sig
      · exact Triple.pure rfl
      · exact Triple.release_then 0 rfl
          (Triple.ite (fun _ => Triple.pure rfl) fun _ => Triple.pure rfl)
  · intro i2dTbs body
    show Triple 0 (signCsrWithPkey E i2dTbs body signer hash) fun r =>
      (given r.isOk .bitString : List SignResource)
    unfold signCsrWithPkey
    split
    · exact Triple.pure rfl
    · refine Triple.ite (fun _ => Triple.pure rfl) fun _ => ?_
      refine Triple.acquire_then (Triple.release_then 0 rfl ?_)
      refine Triple.ite (fun _ => Triple.pure rfl) fun _ => ?_
      refine Triple.bind (triple_signTbs signer _ _) ?_
      rcases (signTbs E signer (signMdname E signer hash) _).result with e | sig
      · exact Triple.pure rfl
      · refine Triple.ite (fun _ => Triple.release_then 0 rfl (Triple.pure rfl)) fun _ => ?_
        refine Triple.acquire_then (Triple.release_then {.bitString} (add_comm _ _) ?_)
        refine Triple.ite (fun _ => ?_) fun _ => Triple.pure rfl
        exact Triple.release_then 0 rfl (Triple.pure rfl)

end

/-! ## Plain signatures -/

/-- A signature is the key, which is a byte, and the length of what is signed. -/
def plainVerify (k : Byte) (_ : Nid) (der sig : List Byte) : Bool :=
  sig = [k, BitVec.ofNat 8 der.length]

/-- ECDSA keys. -/
def plainSignEvp : SignEvp Byte Byte where
  build := ⟨false, false, false⟩
  baseId _ := 408
  findSigidByAlgs md _ := if md = .sha256 then some 794 else none
  algorNew := true
  algorSet _ := true
  mdCtxNew := true
  digestSignInit k _ := some k
  digestSign c der
    | none => (.size 2, c)
    | some _ => (.result [c, BitVec.ofNat 8 der.length], c)
  malloc _ := true
  bitStringNew := true
  bitStringSet := true

theorem signsFor_plainSignEvp : SignsFor plainSignEvp id plainVerify where
  verifies signer hash alg c der sig _ hinit hprobe := by
    obtain rfl := Option.some.inj hinit
    obtain rfl := Option.some.inj hprobe
    exact decide_eq_true rfl
  length_lt c der sig hprobe := by
    obtain rfl := Option.some.inj hprobe
    simp

/-- Steps around the signature that all succeed. -/
def plainSteps : CertLib Unit Unit Unit Byte where
  x509New := true
  serialNumber _ := .ok 1
  buildName := some
  parseIso _ := some ()
  encodes _ := true
  basicConstraintsNew := true
  sign _ _ _ := .ok ()
  reqNew := true
  signReq _ _ _ := .ok ()
  i2dGeneralName _ := []

def plainTbs (_ : Certificate Unit Unit Byte) (alg : Nid) : Option (List Byte) :=
  some (List.replicate (alg % 4) 1)

/-- A certificate that is signed with the key 7 verifies under it, and not under 8. -/
theorem built_verifies_plain :
    ∃ s, certificateVerifySignature plainVerify plainTbs s 7 = .ok true ∧
      certificateVerifySignature plainVerify plainTbs s 8 = .ok false ∧
      s.signature.bytes = [7, 2] := by
  obtain ⟨s, hs, -, -, -, -, -, ⟨der, -, hverify⟩, hown⟩ :=
    (built_verifies signsFor_plainSignEvp plainSteps plainTbs fun _ => none).1
      { subject := (), issuer := (), notBefore := [], notAfter := [], subjectKey := 3,
        signatureHash := .sha256 } 7 _ rfl
  have hsig : s = ⟨s.body, 794, 794, ⟨[7, 2], flagBitsLeft⟩⟩ := by
    rw [← Except.ok.inj hs]
    rfl
  have hother : plainVerify 8 s.alg der s.signature.bytes = false := by
    rw [hsig]
    simp [plainVerify]
  exact ⟨s, hown, (hverify 8).trans (congrArg _ hother), by rw [hsig]⟩

end OpenSSLWasm.X509
