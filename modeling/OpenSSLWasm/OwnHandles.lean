import OpenSSLWasm.Tls.Lifetime
import OpenSSLWasm.X509.Build
import OpenSSLWasm.X509.Pkcs12

/-!
# Own handles in arguments

An own handle that is passed to the component belongs to the function that gets it, and its resource
lives on until that function drops it. Handles come in the configurations of the four TLS
constructors and in the inputs of `build-and-sign` and `pkcs12-build`.

## Main definitions

* `buildAndSign`, `pkcs12Build`: the builders, with their ledgers;
* `Operation`: a call with handles in its arguments, what it is passed and what becomes of it;
* `step`: handles that are made, dropped and passed;
* `State.Accounted`: what is alive is what callers hold.

## Main results

* `triple_buildAndSign`, `triple_pkcs12Build`: what the builders hold in the end;
* `releases_connect` and its companions: no operation drops a handle;
* `Operation.drops_iff_bare`: which calls drop what they are passed;
* `dropped_accounted_iff`: in which runs nothing but what callers hold is alive.
-/

namespace OpenSSLWasm.OwnHandles

open Ledger Transcript X509
open Tls (Setting)
open Tls.Lifetime (Handle clientHandles serverHandles)

/-! ## Builders -/

/-- What a builder acquires, and the handles that it is given. -/
inductive Resource
  | handle (h : Handle)
  /-- The `X509` that is built. -/
  | cert
  | subject
  | issuer
  | notBefore
  | notAfter
  /-- The copies of strings. -/
  | name
  | pass
  /-- A reference on an object. -/
  | ref (object : ℕ)
  | p12
  | bio
  deriving DecidableEq, Repr

/-- Two values that are built before either is looked at; each is freed if it is there. -/
def both {α β : Type} (a b : Resource) (x : Option α) (y : Option β) :
    Acct Resource (Option (α × β)) := do
  acquireAll (given x.isSome a ++ given y.isSome b)
  releaseAll (given x.isSome a ++ given y.isSome b)
  pure (x.bind fun x => y.map fun y => (x, y))

section

variable {Name ν τ P : Type}

/-- The rest of `build-and-sign`, once the certificate has its key: the extensions, and signing. -/
def complete (L : CertLib Name ν τ Handle) (input : BuilderInput Name Handle) (signer : Handle)
    (c : Certificate ν τ Handle) : Except X509Error (Certificate ν τ Handle) := do
  let c ← addSans L input.subjectAltNames c
  let c ← addKeyUsage L input.keyUsage c
  let c ← addExtendedKeyUsage L input.extendedKeyUsage c
  let c ← addBasicConstraints L input.basicConstraints c
  L.sign c signer input.signatureHash
  return c

/-- `build-and-sign`. -/
def buildAndSign (L : CertLib Name ν τ Handle) (input : BuilderInput Name Handle)
    (signer : Handle) : Acct Resource (Except X509Error (Certificate ν τ Handle)) :=
  if L.x509New = false then pure (.error (.internal 0))
  else do
    acquire .cert
    match L.serialNumber input.serialHex with
    | .error err => do
      release .cert
      pure (.error err)
    | .ok serial => do
      let names ← both .subject .issuer (L.buildName input.subject) (L.buildName input.issuer)
      match names with
      | none => do
        release .cert
        pure (.error .badName)
      | some (subject, issuer) => do
        let times ← both .notBefore .notAfter (L.parseIso input.notBefore)
          (L.parseIso input.notAfter)
        match times with
        | none => do
          release .cert
          pure (.error .badName)
        | some (notBefore, notAfter) => do
          -- `X509_set_pubkey`
          use (.handle input.subjectKey)
          match complete L input signer
            { serial, subject, issuer, notBefore, notAfter, pubkey := input.subjectKey } with
          | .error err => do
            release .cert
            pure (.error err)
          | .ok c => pure (.ok c)

/-- The loop of `pkcs12_build` over the further certificates. -/
def pushAll : List Handle → Acct Resource Unit
  | [] => pure ()
  | h :: hs => do
    use (.handle h)
    acquire (.ref h.object)
    pushAll hs

/-- `pkcs12-build`, given which of the further certificates can be pushed. -/
def pkcs12Build (L : Pkcs12Lib P Handle Handle) (pushed : Handle → Bool)
    (input : Pkcs12BuildInput Handle Handle) : Acct Resource (Except X509Error (List Byte)) := do
  let copies := given input.friendlyName.isSome .name ++ [.pass]
  acquireAll copies
  let name := input.friendlyName.map fun s => cString (s ++ [0])
  let pass := cString (input.passphrase.bytes ++ [0])
  pushAll input.extraCerts
  let ca := input.extraCerts.filter pushed
  useAll [.handle input.key, .handle input.cert]
  let p12 := L.create pass name input.key input.cert ca
  acquireAll (given p12.isSome .p12)
  releaseAll (ca.map fun h => .ref h.object)
  releaseAll copies
  match p12 with
  | none => pure (.error .encodingFailed)
  | some p12 => do
    acquire .bio
    let der := L.i2d p12
    release .p12
    release .bio
    pure (orError der .encodingFailed)

/-! The builders return what they return without ledgers. -/

theorem buildAndSign_result (L : CertLib Name ν τ Handle) (input : BuilderInput Name Handle)
    (signer : Handle) :
    (buildAndSign L input signer).result = X509.buildAndSign L input signer := by
  unfold buildAndSign X509.buildAndSign
  rw [Acct.result_ite]
  refine if_congr Iff.rfl rfl ?_
  rw [Acct.result_bind]
  cases L.serialNumber input.serialHex with
  | error err => rfl
  | ok serial =>
    cases L.buildName input.subject with
    | none => rfl
    | some subject =>
      cases L.buildName input.issuer with
      | none => rfl
      | some issuer =>
        cases L.parseIso input.notBefore with
        | none => rfl
        | some notBefore =>
          cases L.parseIso input.notAfter with
          | none => rfl
          | some notAfter =>
            -- what is left is the same in both
            change _ = complete L input signer _
            simp only [both, Acct.result_bind, Acct.result_pure, Option.bind_some, Option.map_some]
            cases complete L input signer _ with
            | error err => rfl
            | ok c => rfl

theorem pkcs12Build_result (L : Pkcs12Lib P Handle Handle) {pushed : Handle → Bool}
    {input : Pkcs12BuildInput Handle Handle} (h : ∀ c ∈ input.extraCerts, pushed c = true) :
    (pkcs12Build L pushed input).result = X509.pkcs12Build L input := by
  unfold pkcs12Build X509.pkcs12Build
  simp only [Acct.result_bind, List.filter_eq_self.mpr h]
  cases L.create _ _ input.key input.cert input.extraCerts with
  | none => rfl
  | some p12 => rfl

/-! ## What the builders hold in the end -/

variable {H m : Multiset Resource}

theorem triple_both {α β : Type} {a b : Resource} (x : Option α) (y : Option β) :
    Triple m (both a b x y) fun _ => m :=
  .acquireAll_then (.exit rfl)

/-- What goes to a new resource. -/
def built {α : Type} : Except X509Error α → List Resource
  | .ok _ => [.cert]
  | .error _ => []

/-- A certificate that was built goes to its resource; otherwise nothing is left. -/
theorem triple_buildAndSign (L : CertLib Name ν τ Handle) (input : BuilderInput Name Handle)
    (signer : Handle) (hkey : .handle input.subjectKey ∈ H) :
    Triple H (buildAndSign L input signer) fun r => (built r : Multiset Resource) + H := by
  have hfail : ∀ err : X509Error,
      Triple ({.cert} + H) (do
        release .cert
        pure (.error err) : Acct Resource (Except X509Error (Certificate ν τ Handle)))
        fun r => (built r : Multiset Resource) + H :=
    fun err => .release_then H rfl (.pure (zero_add H).symm)
  refine .ite (fun _ => .pure (zero_add H).symm) fun _ => .acquire_then ?_
  cases L.serialNumber input.serialHex with
  | error err => exact hfail err
  | ok serial =>
    refine .bind (triple_both _ _) ?_
    cases (both _ _ (L.buildName input.subject) (L.buildName input.issuer)).result with
    | none => exact hfail .badName
    | some names =>
      refine .bind (triple_both _ _) ?_
      cases (both _ _ (L.parseIso input.notBefore) (L.parseIso input.notAfter)).result with
      | none => exact hfail .badName
      | some times =>
        -- the key is only looked at, whatever comes of the rest
        refine .use_then (Multiset.mem_add.mpr (Or.inr hkey)) ?_
        cases complete L input signer _ with
        | error err => exact hfail err
        | ok c => exact .pure rfl

theorem triple_pushAll {hs : List Handle} (hH : ∀ h ∈ hs, .handle h ∈ m) :
    Triple m (pushAll hs) fun _ => ↑(hs.map fun h => Resource.ref h.object) + m := by
  induction hs generalizing m with
  | nil => exact .pure (zero_add m).symm
  | cons h hs ih =>
    refine .use_then (hH h List.mem_cons_self) (.acquire_then ?_)
    have hrest : ∀ x ∈ hs, .handle x ∈ {.ref h.object} + m := fun x hx =>
      Multiset.mem_add.mpr (Or.inr (hH x (List.mem_cons_of_mem h hx)))
    have heq : ↑(hs.map fun h => Resource.ref h.object) + ({.ref h.object} + m) =
        ↑((h :: hs).map fun h => Resource.ref h.object) + m := by
      rw [List.map_cons, coe_cons]
      abel
    exact heq ▸ ih hrest

/-- Of the references on the further certificates those are left whose certificate could not be
pushed. -/
theorem triple_pkcs12Build (L : Pkcs12Lib P Handle Handle) (pushed : Handle → Bool)
    (input : Pkcs12BuildInput Handle Handle)
    (hH : ∀ h ∈ input.key :: input.cert :: input.extraCerts, .handle h ∈ H) :
    Triple H (pkcs12Build L pushed input) fun _ =>
      ↑((input.extraCerts.filter (!pushed ·)).map fun h => Resource.ref h.object) + H := by
  set copies : List Resource := given input.friendlyName.isSome .name ++ [.pass]
  have hcerts : ∀ h ∈ input.extraCerts, .handle h ∈ (copies : Multiset Resource) + H :=
    fun h hh => Multiset.mem_add.mpr
      (Or.inr (hH h (List.mem_cons_of_mem _ (List.mem_cons_of_mem _ hh))))
  -- a reference is in the stack or lost
  have hrefs : ((input.extraCerts.map fun h => Resource.ref h.object : List Resource) :
      Multiset Resource) = ↑((input.extraCerts.filter pushed).map fun h => Resource.ref h.object) +
        ↑((input.extraCerts.filter (!pushed ·)).map fun h => Resource.ref h.object) := by
    rw [← coe_append, ← List.map_append]
    exact Multiset.coe_eq_coe.mpr ((List.filter_append_perm pushed _).symm.map _)
  refine .acquireAll_then (.bind (triple_pushAll hcerts) (.useAll_then ?_ (.acquireAll_then ?_)))
  · intro r hr
    refine Multiset.mem_add.mpr (Or.inr (Multiset.mem_add.mpr (Or.inr ?_)))
    rcases List.mem_pair.mp hr with rfl | rfl
    · exact hH _ List.mem_cons_self
    · exact hH _ (List.mem_cons_of_mem _ List.mem_cons_self)
  · -- the stack gives back the references that it has, whether or not there is a bundle
    generalize L.create _ _ input.key input.cert _ = p12
    rw [hrefs]
    generalize (((input.extraCerts.filter (!pushed ·)).map fun h => Resource.ref h.object :
      List Resource) : Multiset Resource) = lost
    refine .releaseAll_then (copies + (↑(given p12.isSome Resource.p12) + (lost + H))) ?_
      (.releaseAll_then (↑(given p12.isSome Resource.p12) + (lost + H)) rfl ?_)
    · abel
    cases p12 with
    | none => exact .pure (zero_add _)
    | some p12 =>
      refine .acquire_then (.release_then ({.bio} + (lost + H)) ?_ (.release_then _ rfl (.pure rfl)))
      exact add_left_comm _ _ _

end

/-! ## Handles in the ledgers -/

def Resource.handle? : Resource → Option Handle
  | .handle h => some h
  | _ => none

/-- The same for what TLS endpoints acquire. -/
def endpointHandle? : Tls.Lifetime.Resource → Option Handle
  | .handle h => some h
  | _ => none

section

variable {accepts : Tls.Lifetime.Settings → Setting Handle Handle Handle → Bool} {e : ℕ}
  {env : Tls.Lifetime.Env}

/-- The resources of an endpoint that are not handles that it was given. -/
def NoHandle (r : Tls.Lifetime.Resource) : Prop := ∀ h, r ≠ .handle h

theorem endpointHandle?_eq_none_iff {r : Tls.Lifetime.Resource} :
    endpointHandle? r = none ↔ NoHandle r := by
  cases r <;> simp [endpointHandle?, NoHandle]

theorem releases_connectTcp (as : Option (List Tls.Lifetime.Attempt)) :
    (Tls.Lifetime.connectTcp e as).Releases NoHandle :=
  (Tls.Lifetime.within_connectTcp (P := NoHandle) (fun _ => nofun) nofun as).releases

theorem releases_alpnList (alpn : Option Tls.AlpnOffer) :
    (Tls.Lifetime.alpnList e alpn).Releases NoHandle :=
  (Tls.Lifetime.within_alpnList (P := NoHandle) nofun alpn).releases

theorem releases_clientAlpn (alpn : Option Tls.AlpnOffer) :
    (Tls.Lifetime.clientAlpn e alpn).Releases NoHandle := by
  simp [Tls.Lifetime.clientAlpn, releases_alpnList, forall_mem_given, NoHandle]

theorem releases_serverAlpn (alpn : Option Tls.AlpnOffer) :
    (Tls.Lifetime.serverAlpn e alpn).Releases NoHandle := by
  simp [Tls.Lifetime.serverAlpn, releases_alpnList, forall_mem_given, NoHandle]

theorem releases_connect (host : List Byte) (port : BitVec 16) (cfg : Tls.Lifetime.ClientConfig) :
    (Tls.Lifetime.connect accepts e host port cfg env).Releases NoHandle := by
  unfold Tls.Lifetime.connect
  simp only [Acct.releases_ite, Acct.releases_bind]
  cases (Tls.Lifetime.connectTcp e _).result <;>
  simp [releases_clientAlpn, releases_connectTcp, Tls.Lifetime.Ssl.owned, forall_mem_given, or_imp,
    forall_and, NoHandle]

theorem releases_bind (host : List Byte) (port : BitVec 16) (cfg : Tls.Lifetime.ServerConfig) :
    (Tls.Lifetime.bind accepts e host port cfg env).Releases NoHandle := by
  unfold Tls.Lifetime.bind Tls.Lifetime.bindTcp
  simp only [Acct.releases_ite, Acct.releases_bind]
  cases (Tls.Lifetime.connectTcp e _).result <;>
  simp [releases_serverAlpn, releases_connectTcp, NoHandle]

theorem releases_memBioClientNew (cfg : Tls.Lifetime.ClientConfig) :
    (Tls.Lifetime.memBioClientNew accepts e cfg env).Releases NoHandle := by
  unfold Tls.Lifetime.memBioClientNew
  simp [releases_clientAlpn, Tls.Lifetime.Ssl.owned, forall_mem_given, or_imp, forall_and, NoHandle]

theorem releases_memBioServerNew (cfg : Tls.Lifetime.ServerConfig) :
    (Tls.Lifetime.memBioServerNew accepts e cfg env).Releases NoHandle := by
  unfold Tls.Lifetime.memBioServerNew
  simp [releases_serverAlpn, Tls.Lifetime.Ssl.owned, forall_mem_given, or_imp, forall_and, NoHandle]

end

section

variable {Name ν τ P : Type}

theorem releases_both {α β : Type} {a b : Resource} (ha : a.handle? = none)
    (hb : b.handle? = none) (x : Option α) (y : Option β) :
    (both a b x y).Releases fun r => r.handle? = none := by
  simp [both, forall_mem_given, ha, hb, or_imp, forall_and]

theorem releases_buildAndSign (L : CertLib Name ν τ Handle) (input : BuilderInput Name Handle)
    (signer : Handle) : (buildAndSign L input signer).Releases fun r => r.handle? = none := by
  have hfail : ∀ err : X509Error, (do
      release .cert
      pure (.error err) : Acct Resource (Except X509Error (Certificate ν τ Handle))).Releases
        fun r => r.handle? = none :=
    fun err => Acct.releases_bind.mpr ⟨Acct.releases_release.mpr rfl, Acct.releases_pure _⟩
  refine Acct.releases_ite.mpr ⟨fun _ => Acct.releases_pure _, fun _ => ?_⟩
  refine Acct.releases_bind.mpr ⟨Acct.releases_acquire, ?_⟩
  cases L.serialNumber input.serialHex with
  | error err => exact hfail err
  | ok serial =>
    refine Acct.releases_bind.mpr ⟨releases_both rfl rfl _ _, ?_⟩
    cases (both _ _ (L.buildName input.subject) (L.buildName input.issuer)).result with
    | none => exact hfail .badName
    | some names =>
      refine Acct.releases_bind.mpr ⟨releases_both rfl rfl _ _, ?_⟩
      cases (both _ _ (L.parseIso input.notBefore) (L.parseIso input.notAfter)).result with
      | none => exact hfail .badName
      | some times =>
        refine Acct.releases_bind.mpr ⟨Acct.releases_use, ?_⟩
        cases complete L input signer _ with
        | error err => exact hfail err
        | ok c => exact Acct.releases_pure _

theorem releases_pushAll {Q : Resource → Prop} (hs : List Handle) : (pushAll hs).Releases Q := by
  induction hs with
  | nil => exact Acct.releases_pure _
  | cons h hs ih => simp [pushAll, ih]

theorem releases_pkcs12Build (L : Pkcs12Lib P Handle Handle) (pushed : Handle → Bool)
    (input : Pkcs12BuildInput Handle Handle) :
    (pkcs12Build L pushed input).Releases fun r => r.handle? = none := by
  have hrefs : ∀ hs : List Handle,
      ∀ r ∈ hs.map fun h => Resource.ref h.object, r.handle? = none :=
    fun hs => List.forall_mem_map.mpr fun _ _ => rfl
  have hcopies : ∀ r ∈ given input.friendlyName.isSome Resource.name ++ [Resource.pass],
      r.handle? = none := by
    simp [forall_mem_given, Resource.handle?, or_imp, forall_and]
  refine Acct.releases_bind.mpr ⟨Acct.releases_acquireAll, ?_⟩
  refine Acct.releases_bind.mpr ⟨releases_pushAll _, ?_⟩
  refine Acct.releases_bind.mpr ⟨Acct.releases_useAll, ?_⟩
  refine Acct.releases_bind.mpr ⟨Acct.releases_acquireAll, ?_⟩
  refine Acct.releases_bind.mpr ⟨Acct.releases_releaseAll.mpr (hrefs _), ?_⟩
  refine Acct.releases_bind.mpr ⟨Acct.releases_releaseAll.mpr hcopies, ?_⟩
  cases L.create _ _ input.key input.cert _ with
  | none => exact Acct.releases_pure _
  | some p12 => simp [Resource.handle?]

end

/-! ## Operations -/

/-- A call with own handles in its arguments, with how everything in it turns out. -/
inductive Operation (Name ν τ P : Type)
  | connect (e : ℕ) (host : List Byte) (port : BitVec 16) (cfg : Tls.Lifetime.ClientConfig)
    (env : Tls.Lifetime.Env)
  /-- The handles in `sni-hosts`, which nobody looks at, are given apart. -/
  | bind (e : ℕ) (host : List Byte) (port : BitVec 16) (cfg : Tls.Lifetime.ServerConfig)
    (sniHosts : List Handle) (env : Tls.Lifetime.Env)
  | memBioClientNew (e : ℕ) (cfg : Tls.Lifetime.ClientConfig) (env : Tls.Lifetime.Env)
  | memBioServerNew (e : ℕ) (cfg : Tls.Lifetime.ServerConfig) (sniHosts : List Handle)
    (env : Tls.Lifetime.Env)
  | buildAndSign (L : CertLib Name ν τ Handle) (input : BuilderInput Name Handle) (signer : Handle)
  | pkcs12Build (L : Pkcs12Lib P Handle Handle) (pushed : Handle → Bool)
    (input : Pkcs12BuildInput Handle Handle)

namespace Operation

variable {Name ν τ P : Type} (op : Operation Name ν τ P)

/-- The handles that are passed. -/
def passed : Operation Name ν τ P → List Handle
  | connect _ _ _ cfg _ | memBioClientNew _ cfg _ => clientHandles cfg
  | bind _ _ _ cfg sniHosts _ | memBioServerNew _ cfg sniHosts _ => serverHandles cfg ++ sniHosts
  | buildAndSign _ input _ => [input.subjectKey]
  | pkcs12Build _ _ input => input.key :: input.cert :: input.extraCerts

variable (accepts : Tls.Lifetime.Settings → Setting Handle Handle Handle → Bool)

/-- What the call does with handles. -/
def entries : Operation Name ν τ P → List (Entry Handle)
  | connect e host port cfg env =>
    project endpointHandle? (Tls.Lifetime.connect accepts e host port cfg env).entries
  | bind e host port cfg _ env =>
    project endpointHandle? (Tls.Lifetime.bind accepts e host port cfg env).entries
  | memBioClientNew e cfg env =>
    project endpointHandle? (Tls.Lifetime.memBioClientNew accepts e cfg env).entries
  | memBioServerNew e cfg _ env =>
    project endpointHandle? (Tls.Lifetime.memBioServerNew accepts e cfg env).entries
  | buildAndSign L input signer =>
    project Resource.handle? (OwnHandles.buildAndSign L input signer).entries
  | pkcs12Build L pushed input =>
    project Resource.handle? (OwnHandles.pkcs12Build L pushed input).entries

/-- Each handle that was passed is dropped once. -/
def Drops : Prop := ∀ h ∈ op.passed, (op.entries accepts).count (.release h) = 1

/-- The handles that are not dropped. -/
def undropped : List Handle := op.passed.filter fun h => .release h ∉ op.entries accepts

/-- Nothing is passed: a configuration of a client without trust, certificate and key. All other
arguments have a key in them. -/
def Bare : Operation Name ν τ P → Prop
  | connect _ _ _ cfg _ | memBioClientNew _ cfg _ =>
    cfg.trust = none ∧ cfg.clientCert = none ∧ cfg.clientKey = none
  | _ => False

theorem passed_eq_nil_iff : op.passed = [] ↔ op.Bare := by
  cases op <;> simp [passed, Bare, clientHandles, serverHandles]

variable {op accepts}

/-- No operation drops a handle. -/
theorem release_not_mem_entries (h : Handle) : .release h ∉ op.entries accepts := by
  -- nothing that a constructor gives back is a handle
  have hendpoint : ∀ {α : Type} {p : Acct Tls.Lifetime.Resource α}, p.Releases NoHandle →
      .release h ∉ project endpointHandle? p.entries :=
    fun hp => Acct.Releases.release_not_mem_project
      (fun r hr => endpointHandle?_eq_none_iff.mpr (hp r hr)) h
  cases op with
  | connect e host port cfg env => exact hendpoint (releases_connect host port cfg)
  | bind e host port cfg sniHosts env => exact hendpoint (releases_bind host port cfg)
  | memBioClientNew e cfg env => exact hendpoint (releases_memBioClientNew cfg)
  | memBioServerNew e cfg sniHosts env => exact hendpoint (releases_memBioServerNew cfg)
  | buildAndSign L input signer =>
    exact (releases_buildAndSign L input signer).release_not_mem_project h
  | pkcs12Build L pushed input =>
    exact (releases_pkcs12Build L pushed input).release_not_mem_project h

theorem undropped_eq : op.undropped accepts = op.passed :=
  List.filter_eq_self.mpr fun h _ => decide_eq_true (release_not_mem_entries h)

/-- A call drops what it is passed exactly if it is passed nothing. -/
theorem drops_iff_bare : op.Drops accepts ↔ op.Bare := by
  rw [← passed_eq_nil_iff]
  constructor
  · -- a handle that was passed would have to be dropped
    intro hdrops
    refine List.eq_nil_iff_forall_not_mem.mpr fun h hh => ?_
    have hcount := hdrops h hh
    rw [List.count_eq_zero.mpr (release_not_mem_entries h)] at hcount
    exact absurd hcount (by decide)
  · intro hnil h hh
    rw [hnil] at hh
    cases hh

end Operation

/-! ## Runs -/

/-- The live handles: those of the callers, and those that were passed and not dropped. -/
structure State where
  callers : List Handle := []
  kept : List Handle := []

inductive Event (Name ν τ P : Type)
  /-- Some call makes a resource, or one more for an object, and returns its handle. -/
  | create (h : Handle)
  /-- A caller drops a handle, and the destructor runs. -/
  | drop (h : Handle)
  | call (op : Operation Name ν τ P)

namespace State

variable (s : State)

def live : List Handle := s.callers ++ s.kept

/-- The references on an object: one for each live handle, and those of OpenSSL's objects. -/
def refs (uses : ℕ → ℕ) (o : ℕ) : ℕ := s.live.countP (·.object = o) + uses o

/-- There are as many live handles as callers hold, and an object is destroyed once no caller has a
handle for it and OpenSSL does not use it. -/
structure Accounted : Prop where
  length : s.live.length = s.callers.length
  destroyed : ∀ (uses : ℕ → ℕ) (o : ℕ),
    (∀ h ∈ s.callers, h.object ≠ o) → uses o = 0 → s.refs uses o = 0

end State

section

variable {Name ν τ P : Type} (accepts : Tls.Lifetime.Settings → Setting Handle Handle Handle → Bool)

/-- Callers pass handles that they hold, each once. -/
def Operation.Possible (op : Operation Name ν τ P) (s : State) : Prop :=
  op.passed.Nodup ∧ ∀ h ∈ op.passed, h ∈ s.callers

instance (op : Operation Name ν τ P) (s : State) : Decidable (op.Possible s) :=
  inferInstanceAs (Decidable (_ ∧ _))

/-- One event, and whether it is possible; live handles have different indices. -/
def step (s : State) : Event Name ν τ P → Bool × State
  | .create h =>
    if h.index ∈ s.live.map (·.index) then (false, s)
    else (true, { s with callers := h :: s.callers })
  | .drop h =>
    if h ∈ s.callers then (true, { s with callers := s.callers.erase h }) else (false, s)
  | .call op =>
    if op.Possible s then
      (true, {
        callers := s.callers.filter (· ∉ op.passed)
        kept := op.undropped accepts ++ s.kept })
    else (false, s)

variable {accepts}

theorem State.accounted_iff {s : State} : s.Accounted ↔ s.kept = [] := by
  constructor
  · intro h
    have hlen := h.length
    rw [live, List.length_append] at hlen
    exact List.length_eq_zero_iff.mp (by omega)
  · intro hkept
    have hlive : s.live = s.callers := by rw [live, hkept, List.append_nil]
    refine ⟨by rw [hlive], fun uses o ho huses => ?_⟩
    rw [refs, hlive, huses, add_zero, List.countP_eq_zero]
    exact fun h hh => by simpa using ho h hh

/-- What an event must not do: pass a handle. -/
def Event.Bare (s : State) : Event Name ν τ P → Prop
  | .call op => op.Possible s → op.Bare
  | _ => True

/-- An event leaves alive what callers hold exactly if it is not a call that is passed a handle. -/
theorem accounted_step {s : State} (h : s.Accounted) (ev : Event Name ν τ P) :
    (step accepts s ev).2.Accounted ↔ ev.Bare s := by
  have hkept := State.accounted_iff.mp h
  rw [State.accounted_iff]
  cases ev with
  | create h' =>
    rw [step]
    split_ifs <;> exact iff_of_true hkept trivial
  | drop h' =>
    rw [step]
    split_ifs <;> exact iff_of_true hkept trivial
  | call op =>
    rw [step, Event.Bare]
    split_ifs with hpossible
    · -- what was passed is kept
      dsimp only
      rw [Operation.undropped_eq, hkept, List.append_nil, Operation.passed_eq_nil_iff]
      exact ⟨fun h _ => h, fun h => h hpossible⟩
    · exact iff_of_true hkept fun hp => absurd hp hpossible

/-- In any order of calls, with everything in them turning out well or badly: each call drops what it
is passed, and nothing but what callers hold is alive, exactly if no call is passed a handle. -/
theorem dropped_accounted_iff (events : List (Event Name ν τ P)) :
    ((∀ before op after, events = before ++ .call op :: after →
        op.Possible (run (step accepts) {} before).2 → op.Drops accepts) ∧
      ∀ before after, events = before ++ after →
        (run (step accepts) {} before).2.Accounted) ↔
      ∀ before op after, events = before ++ .call op :: after →
        op.Possible (run (step accepts) {} before).2 → op.Bare := by
  have hstep : ∀ (s : State) (ev : Event Name ν τ P), s.Accounted →
      ((step accepts s ev).2.Accounted ↔ ev.Bare s) :=
    fun s ev h => accounted_step h ev
  have hinit : State.Accounted {} := State.accounted_iff.mpr rfl
  have hbare : (∀ before after, events = before ++ after →
      (run (step accepts) {} before).2.Accounted) ↔
        ∀ before op after, events = before ++ .call op :: after →
          op.Possible (run (step accepts) {} before).2 → op.Bare := by
    rw [forall_prefix_iff hstep hinit events]
    constructor
    · exact fun h before op after hev => h before (.call op) after hev
    · intro h before ev after hev
      cases ev with
      | create h' => trivial
      | drop h' => trivial
      | call op => exact h before op after hev
  rw [hbare, and_iff_right_iff_imp]
  exact fun h before op after hev hp => Operation.drops_iff_bare.mpr (h before op after hev hp)

end

/-- A connection with a trust store of its own. -/
def passTrust : List (Event Unit Unit Unit Unit) :=
  [.create ⟨0, 0⟩, .call (.connect 0 [] 443
    { protocols := ⟨.tls12, .tls13⟩, verify := .required, trust := some ⟨0, 0⟩ }
    Tls.Lifetime.goodEnv)]

/-- The store is alive when nobody has a handle for it any more. -/
theorem not_accounted_passTrust :
    ¬((∀ before op after, passTrust = before ++ .call op :: after →
        op.Possible (run (step fun _ _ => true) {} before).2 → op.Drops fun _ _ => true) ∧
      ∀ before after, passTrust = before ++ after →
        (run (step fun _ _ => true) {} before).2.Accounted) := by
  rintro ⟨-, h⟩
  have hlength := (h passTrust [] (List.append_nil _).symm).length
  revert hlength
  decide

end OpenSSLWasm.OwnHandles
