import OpenSSLWasm.Tls.Config
import OpenSSLWasm.X509.VerifyChain

/-!
# The verification options of a client

A `client-config` has a field for the options that `verify_chain` takes. No constructor of a client
in `src/tls.c` reads it: the chain of the peer is verified for the name of the connection and as
that of a server, and for nothing else.

## Main definitions

* `ClientConfigV`: a `client-config` with its options;
* `VerifiesPeer`: what libssl verifies in a handshake;
* `HonoursOptions`: a handshake that completes means that `verify_chain` accepts the chain of the
  peer;
* `Covered`: the options ask for nothing else than what is verified anyway.

## Main results

* `honoursOptions_iff`: the options are honoured exactly if they are covered.
-/

namespace OpenSSLWasm.Tls

open X509

/-! ## What is verified in a handshake -/

/-- A `client-config` with the field that the constructors do not read. -/
structure ClientConfigV (Store Cert Key : Type) extends ClientConfig Store Cert Key where
  verifyOptions : Option VerifyOptions := none

/-- The certificates that a server sends. -/
structure SentChain (C : Type) where
  leaf : C
  others : List C

section

variable {κ C Key : Type}

/-- What libssl checks the chain of a server for: the name that was set, and that it is a server. -/
def sslParam (s : Settings κ C Key) : VerifyParam where
  host := s.host
  purpose := some .sslServer

/-- The documented behaviour of libssl with a peer that is to be verified: it installs the names
that libcrypto installs, and completes no handshake unless the chain of the peer is verified against
the store of the context. -/
structure VerifiesPeer (V : X509Lib κ C) (defaultStore : κ) (peer : SentChain C)
    (accepts : Settings κ C Key → Setting κ C Key → Bool) (handshake : Settings κ C Key → Bool) :
    Prop where
  acceptsHost : ∀ s name, accepts s (.host name) = V.identity.acceptsHost name
  handshake : ∀ s, s.verify.peer = true → handshake s = true →
    ∃ chain, V.verifyCert (s.certStore.getD defaultStore) peer.leaf peer.others (sslParam s) =
      .ok chain

/-- The documented behaviour of libcrypto in looking for a chain: what is found for a server is
found as well if no purpose is asked for, if the chain may be partial, and if there are more
certificates to choose from. Allocations succeed. -/
structure FindsMore (V : X509Lib κ C) : Prop where
  ctxInit : ∀ store leaf untrusted, V.ctxInit store leaf untrusted = true
  path : ∀ {store leaf untrusted chain},
    V.path store leaf untrusted (some .sslServer) false = some chain →
      ∀ more partialChain, ∀ purpose ∈ [none, some .any, some .sslServer],
        (V.path store leaf (more ++ untrusted) purpose partialChain).isSome = true

/-! ## Handshakes that complete -/

/-- `connect` gives an endpoint. -/
def ConnectCompletes (host : List Byte) (port : BitVec 16) (cfg : ClientConfigV κ C Key)
    (accepts : Settings κ C Key → Setting κ C Key → Bool) (env : Outcomes κ C Key) : Prop :=
  ∃ s, connect accepts host port cfg.toClientConfig env = .ok s

/-- `mem-bio-client.new` gives an endpoint, and `do-handshake` comes to an end on it. -/
def MemBioCompletes (cfg : ClientConfigV κ C Key)
    (accepts : Settings κ C Key → Setting κ C Key → Bool) (env : Outcomes κ C Key) : Prop :=
  ∃ s, memBioClientNew accepts cfg.toClientConfig env = .ok s ∧ env.handshake s = true

/-- `verify_chain` accepts the chain of the peer. -/
def Satisfies (V : X509Lib κ C) (store : κ) (peer : SentChain C) (o : VerifyOptions) : Prop :=
  ∃ chain, verifyChain V store peer.leaf peer.others o = .ok chain

/-- Whatever libcrypto, libssl and the outcomes, a handshake that completes means that the options
of the configuration are satisfied. -/
def HonoursOptions (N : IdentitySyntax) (defaultStore : κ) (peer : SentChain C)
    (cfg : ClientConfigV κ C Key)
    (completes : (Settings κ C Key → Setting κ C Key → Bool) → Outcomes κ C Key → Prop) : Prop :=
  ∀ V : X509Lib κ C, V.identity = N → V.Documented → FindsMore V → ∀ accepts env,
    VerifiesPeer V defaultStore peer accepts env.handshake → completes accepts env →
      ∀ o ∈ cfg.verifyOptions, Satisfies V (cfg.trust.getD defaultStore) peer o

/-- The options ask for nothing else than what is verified anyway, given the name of the
connection. -/
structure Covered (N : IdentitySyntax) (o : VerifyOptions) (name : Option (List Byte)) : Prop where
  /-- A host name that can be installed is that of the connection. -/
  hostname : ∀ h ∈ o.hostname, h ≠ [] → N.acceptsHost h = true → name.map cString = some h
  /-- An address cannot be installed. -/
  ip : ∀ ip ∈ o.ip, N.parseIp (cString ip) = none
  purpose : ∀ p ∈ o.purpose, p = .serverAuth ∨ p = .any
  crlCheck : o.crlCheck = false

/-! ## The settings that matter -/

/-- The settings that a verification goes by. -/
def verification (s : Settings κ C Key) : VerifyFlags × Option κ × Option (List Byte) :=
  (s.verify, s.certStore, s.host)

/-- The calls that change one of them. -/
def Setting.isVerification : Setting κ C Key → Bool
  | .verify _ => true
  | .certStore _ => true
  | .host _ => true
  | _ => false

variable {accepts : Settings κ C Key → Setting κ C Key → Bool}

theorem verification_apply {x : Setting κ C Key} (h : x.isVerification = false)
    (s : Settings κ C Key) : verification (x.apply s) = verification s := by
  cases x <;> first | rfl | cases h

theorem verification_attemptAll {calls : List (Setting κ C Key)}
    (h : calls.all (fun x => !x.isVerification) = true) (s : Settings κ C Key) :
    verification ((libssl accepts).attemptAll calls s) = verification s := by
  refine (libssl accepts).proj_attemptAll (fun x hx s => verification_apply ?_ s) s
  simpa using List.all_eq_true.mp h x hx

/-- The flags, which cannot be refused. -/
theorem verification_verify (flags : VerifyFlags) (s : Settings κ C Key) :
    verification ((libssl accepts).attemptAll [.verify flags] s) = (flags, (verification s).2) :=
  rfl

/-- The store, which cannot be refused either. -/
theorem verification_certStore (st : Option κ) (s : Settings κ C Key) :
    verification ((libssl accepts).attemptAll (st.toList.map .certStore) s) =
      ((verification s).1, st.or (verification s).2.1, (verification s).2.2) := by
  rcases st with _ | st <;> rfl

theorem verification_clientCalls (cfg : ClientConfig κ C Key) :
    verification ((libssl accepts).attemptAll (clientCalls cfg) {}) =
      (if cfg.verify = .none then {} else { peer := true }, cfg.trust, none) := by
  -- no other call of the constructors has to do with verification
  have hprotocols : (applyProtocols cfg.protocols : List (Setting κ C Key)).all
      (fun x => !x.isVerification) = true := by
    rcases cfg.protocols with ⟨min, max⟩
    cases min <;> cases max <;> rfl
  have hciphers : (applyCiphers cfg.ciphers : List (Setting κ C Key)).all
      (fun x => !x.isVerification) = true := by
    rcases cfg.ciphers with _ | ⟨_ | _, _ | _⟩ <;> rfl
  have hgroups : (applyGroups cfg.groups : List (Setting κ C Key)).all
      (fun x => !x.isVerification) = true := by
    rcases cfg.groups with _ | g <;> rfl
  have hkeylog : (if cfg.keylog then [.keylogCallback] else [] : List (Setting κ C Key)).all
      (fun x => !x.isVerification) = true := by
    cases cfg.keylog <;> rfl
  have hmap {α : Type} (o : Option α) (f : α → Setting κ C Key)
      (hf : ∀ a, (f a).isVerification = false) :
      (o.toList.map f).all (fun x => !x.isVerification) = true := by
    rcases o with _ | a <;> simp [hf]
  rw [clientCalls]
  simp only [Setters.attemptAll_append]
  -- the last calls come first
  rw [verification_attemptAll (hmap _ _ fun _ => rfl), verification_attemptAll hkeylog,
    verification_attemptAll (hmap _ _ fun _ => rfl), verification_attemptAll (hmap _ _ fun _ => rfl),
    verification_certStore, verification_verify, verification_attemptAll hgroups,
    verification_attemptAll hciphers, verification_attemptAll hprotocols]
  simp [verification]

/-- The name that is installed for a connection. -/
def installedName (N : IdentitySyntax) (name : Option (List Byte)) : Option (List Byte) :=
  (name.map cString).filter fun h => h ≠ [] ∧ N.acceptsHost h

theorem verification_nameCalls {N : IdentitySyntax}
    (haccepts : ∀ s name, accepts s (.host name) = N.acceptsHost name) (name : Option (List Byte))
    (s : Settings κ C Key) (hs : s.host = none) :
    verification ((libssl accepts).attemptAll (name.toList.flatMap nameCalls) s) =
      ((verification s).1, (verification s).2.1, installedName N name) := by
  rcases name with _ | name
  · simp [verification, installedName, hs]
  · rw [Option.toList_some, List.flatMap_singleton, nameCalls, Setters.attemptAll_cons]
    -- the name that is sent is not the one that is checked
    have hsent : verification ((libssl accepts).attemptAll [.tlsextHostName (cString name)] s) =
        verification s :=
      verification_attemptAll rfl s
    rw [Setters.attemptAll_cons, Setters.attemptAll_nil] at hsent
    generalize ((libssl accepts).attempt (.tlsextHostName (cString name)) s).2 = t at hsent
    have ht : t.host = none := by
      rw [← hs]
      exact congrArg (·.2.2) hsent
    rw [← hsent, installedName, Option.map_some, Setters.attemptAll_cons, Setters.attemptAll_nil]
    -- an empty name or one that is refused leaves no name to check
    by_cases hnil : cString name = []
    · simp [hnil, Setters.attempt, libssl, Setting.isFree, Setting.apply, verification,
        Option.filter]
    · by_cases hname : N.acceptsHost (cString name) = true
      · simp [hnil, hname, haccepts, Setters.attempt, libssl, Setting.isFree, Setting.apply,
          verification, Option.filter]
      · simp [hnil, hname, haccepts, Setters.attempt, libssl, Setting.isFree, verification, ht,
          Option.filter]

/-- The settings that a client has for a name, as far as they matter. -/
theorem verification_clientRun {N : IdentitySyntax} {cfg : ClientConfig κ C Key}
    (hverify : cfg.verify ≠ .none)
    (haccepts : ∀ s name, accepts s (.host name) = N.acceptsHost name)
    (name : Option (List Byte)) :
    verification ((libssl accepts).attemptAll (clientRun cfg name) {}) =
      ({ peer := true }, cfg.trust, installedName N name) := by
  have hcalls : verification ((libssl accepts).attemptAll (clientCalls cfg) {}) = _ :=
    verification_clientCalls cfg
  rw [if_neg hverify] at hcalls
  rw [clientRun, Setters.attemptAll_append, verification_nameCalls haccepts _ _
    (congrArg (·.2.2) hcalls), hcalls]

/-- What a handshake verifies, by the name of the connection. -/
theorem sslParam_clientRun {N : IdentitySyntax} {cfg : ClientConfig κ C Key}
    (hverify : cfg.verify ≠ .none)
    (haccepts : ∀ s name, accepts s (.host name) = N.acceptsHost name)
    (name : Option (List Byte)) :
    ((libssl accepts).attemptAll (clientRun cfg name) {}).verify.peer = true ∧
      ((libssl accepts).attemptAll (clientRun cfg name) {}).certStore = cfg.trust ∧
      sslParam ((libssl accepts).attemptAll (clientRun cfg name) {}) =
        { host := installedName N name, purpose := some .sslServer } := by
  have h := verification_clientRun hverify haccepts name
  rw [verification, Prod.mk.injEq, Prod.mk.injEq] at h
  obtain ⟨hpeer, hstore, hhost⟩ := h
  exact ⟨by rw [hpeer], hstore, by rw [sslParam, hhost]⟩

theorem connectCompletes_iff {host : List Byte} {port : BitVec 16} {cfg : ClientConfigV κ C Key}
    {env : Outcomes κ C Key} :
    ConnectCompletes host port cfg accepts env ↔
      (¬cfg.protocols.HasDtls ∧ env.ctxNew = true ∧ env.tcp (cString host) port = true ∧
        env.sslNew = true) ∧
      env.handshake ((libssl accepts).attemptAll
        (clientRun cfg.toClientConfig (some (cfg.serverName.getD host))) {}) = true := by
  simp [ConnectCompletes, connect, ite_error_eq_ok, clientRun, Setters.attemptAll_append, and_assoc]

theorem memBioCompletes_iff {cfg : ClientConfigV κ C Key} {env : Outcomes κ C Key} :
    MemBioCompletes cfg accepts env ↔
      (¬cfg.protocols.HasDtls ∧ env.ctxNew = true ∧ env.sslNew = true ∧ env.bioNew = true) ∧
      env.handshake ((libssl accepts).attemptAll
        (clientRun cfg.toClientConfig cfg.serverName) {}) = true := by
  simp [MemBioCompletes, memBioClientNew, ite_error_eq_ok, clientRun, Setters.attemptAll_append,
    and_assoc]

/-! ## Options that are covered -/

theorem purpose_verifyParam {N : IdentitySyntax} {o : VerifyOptions} :
    (verifyParam N o).purpose = o.purpose.map purposeMap := by
  -- names and addresses leave the purpose as it is
  have hip : ∀ (vp : VerifyParam) s, (vp.set1IpAsc N s).2.purpose = vp.purpose := by
    intro vp s
    rw [VerifyParam.set1IpAsc]
    split <;> rfl
  have hhost : ∀ (vp : VerifyParam) s, (vp.set1Host N s).2.purpose = vp.purpose := by
    intro vp s
    rw [VerifyParam.set1Host]
    split_ifs <;> rfl
  rw [verifyParam]
  rcases o.hostname with _ | h <;> rcases o.ip with _ | ip <;> rcases o.purpose with _ | p <;>
    simp [hip, hhost]

theorem mem_installedName_iff {N : IdentitySyntax} {name : Option (List Byte)} {h : List Byte} :
    installedName N name = some h ↔
      name.map cString = some h ∧ h ≠ [] ∧ N.acceptsHost h = true := by
  rw [installedName, Option.filter_eq_some_iff]
  simp

/-- Where the options are covered, `verify_chain` accepts what a handshake accepts. -/
theorem satisfies_of_covered {V : X509Lib κ C} (hV : V.Documented) (hfinds : FindsMore V) {store : κ}
    {peer : SentChain C} {o : VerifyOptions} {name : Option (List Byte)}
    (hcovered : Covered V.identity o name) {chain : List C}
    (h : V.verifyCert store peer.leaf peer.others
      { host := installedName V.identity name, purpose := some .sslServer } = .ok chain) :
    Satisfies V store peer o := by
  obtain ⟨hpath, hhost, -, -⟩ := hV.verifyCert_eq_ok.mp h
  -- a chain for the purpose that was asked for
  have hpurpose : (verifyParam V.identity o).purpose ∈ [none, some .any, some .sslServer] := by
    rw [purpose_verifyParam]
    rcases hp : o.purpose with _ | p
    · simp
    · rcases hcovered.purpose p hp with rfl | rfl <;> simp [purposeMap]
  obtain ⟨chain', hchain'⟩ := Option.isSome_iff_exists.mp (hfinds.path hpath
    (V.storeGetUntrusted store) (verifyParam V.identity o).partialChain _ hpurpose)
  refine ⟨chain', ?_⟩
  rw [verifyChain, if_pos (hfinds.ctxInit _ _ _), mapError_eq_ok, hV.verifyCert_eq_ok]
  refine ⟨hchain', fun n hn => ?_, fun a ha => ?_, fun c hc => ?_⟩
  · -- the name that is asked for is the one that was checked
    rw [host_verifyParam, Option.mem_def, Option.filter_eq_some_iff] at hn
    obtain ⟨hmem, hn⟩ := hn
    obtain ⟨hnil, haccepts⟩ : n ≠ [] ∧ V.identity.acceptsHost n = true := by simpa using hn
    exact hhost n (mem_installedName_iff.mpr
      ⟨hcovered.hostname n hmem hnil haccepts, hnil, haccepts⟩)
  · rw [ip_verifyParam, Option.mem_def, Option.bind_eq_some_iff] at ha
    obtain ⟨ip, hip, ha⟩ := ha
    rw [hcovered.ip ip hip] at ha
    cases ha
  · -- no certificate has to be looked up in a list
    rw [checkedForRevocation_verifyParam, hcovered.crlCheck, if_neg Bool.false_ne_true] at hc
    cases hc

/-! ## A verification that is no more than that of a handshake -/

/-- The certificates are those of a server with the name of the connection, and are all revoked. -/
def revokedX509 (N : IdentitySyntax) (name : Option (List Byte)) : X509Lib κ C where
  identity := N
  storeGetUntrusted _ := []
  ctxInit _ _ _ := true
  verifyCert _ leaf _ vp :=
    if vp.purpose ∈ [none, some .any, some .sslServer] ∧
        (∀ h ∈ vp.host, installedName N name = some h) ∧ vp.ip = none ∧ vp.crlCheck = false then
      .ok [leaf]
    else .error .certRevoked
  peekLastError := 0
  path _ leaf _ purpose _ :=
    if purpose ∈ [none, some .any, some .sslServer] then some [leaf] else none
  matchesHost _ h := installedName N name = some h
  matchesIp _ _ := false
  notRevoked _ _ _ := false

theorem revokedX509_documented (N : IdentitySyntax) (name : Option (List Byte)) :
    (revokedX509 N name : X509Lib κ C).Documented where
  verifyCert_eq_ok {store leaf untrusted vp chain} := by
    have hip : (∀ a ∈ vp.ip, false = true) ↔ vp.ip = none := by
      rcases vp.ip with _ | a <;> simp
    have hrevoked : (∀ c ∈ vp.checkedForRevocation [leaf], false = true) ↔
        vp.crlCheck = false := by
      rw [VerifyParam.checkedForRevocation]
      split_ifs with hcrl hall <;> simp [hcrl]
    dsimp only [revokedX509]
    constructor
    · intro h
      split_ifs at h with hcond
      obtain rfl := Except.ok.inj h
      obtain ⟨hpurpose, hhost, hnone, hcrl⟩ := hcond
      exact ⟨if_pos hpurpose, by simpa using hhost, hip.mpr hnone, hrevoked.mpr hcrl⟩
    · rintro ⟨hpath, hhost, hnone, hcrl⟩
      split_ifs at hpath with hpurpose
      obtain rfl := Option.some.inj hpath
      exact if_pos ⟨hpurpose, by simpa using hhost, hip.mp hnone, hrevoked.mp hcrl⟩
  path_head {store leaf untrusted purpose partialChain chain} h := by
    dsimp only [revokedX509] at h
    split_ifs at h
    obtain rfl := Option.some.inj h
    rfl
  acceptsHost_of_matchesHost {c h} hmatch :=
    (mem_installedName_iff.mp (of_decide_eq_true hmatch)).2

theorem revokedX509_findsMore (N : IdentitySyntax) (name : Option (List Byte)) :
    FindsMore (revokedX509 N name : X509Lib κ C) where
  ctxInit _ _ _ := rfl
  path {store leaf untrusted chain} _ more partialChain purpose hpurpose := by
    dsimp only [revokedX509]
    rw [if_pos hpurpose]
    rfl

/-- Options that it satisfies are covered. -/
theorem covered_of_satisfies {N : IdentitySyntax} {name : Option (List Byte)} {store : κ}
    {peer : SentChain C} {o : VerifyOptions} (h : Satisfies (revokedX509 N name) store peer o) :
    Covered N o name := by
  obtain ⟨chain, h⟩ := h
  have hverify := mapError_eq_ok.mp (by simpa [verifyChain, revokedX509] using h)
  split_ifs at hverify with hcond
  obtain ⟨hpurpose, hhost, hip, hcrl⟩ := hcond
  refine ⟨fun n hn hnil haccepts => ?_, fun ip hmem => ?_, fun p hp => ?_, hcrl⟩
  · have hinstalled : n ∈ (verifyParam N o).host := by
      rw [host_verifyParam, Option.mem_def, hn]
      simp [hnil, haccepts, Option.filter]
    exact (mem_installedName_iff.mp (hhost n hinstalled)).1
  · rw [ip_verifyParam, hmem, Option.bind_some] at hip
    exact hip
  · rw [purpose_verifyParam, hp, Option.map_some] at hpurpose
    rcases p <;> simp [purposeMap] at hpurpose ⊢

/-! ## Options that are honoured -/

section

variable {N : IdentitySyntax} {defaultStore : κ} {peer : SentChain C} {cfg : ClientConfigV κ C Key}
  {o : VerifyOptions}

/-- A libssl that takes every call but for names that libcrypto does not install. -/
def takesNames (N : IdentitySyntax) : Settings κ C Key → Setting κ C Key → Bool
  | _, .host name => N.acceptsHost name
  | _, _ => true

/-- A libssl that completes every handshake in which the chain of the peer is verified. -/
def verifyingHandshake (V : X509Lib κ C) (defaultStore : κ) (peer : SentChain C)
    (s : Settings κ C Key) : Bool :=
  (V.verifyCert (s.certStore.getD defaultStore) peer.leaf peer.others (sslParam s)).isOk

theorem verifiesPeer_verifyingHandshake (V : X509Lib κ C) :
    VerifiesPeer V defaultStore peer (takesNames V.identity : Settings κ C Key → _)
      (verifyingHandshake V defaultStore peer) where
  acceptsHost _ _ := rfl
  handshake s _ h := by
    rw [verifyingHandshake] at h
    rcases hok : V.verifyCert (s.certStore.getD defaultStore) peer.leaf peer.others (sslParam s)
      with e | chain
    · rw [hok] at h
      cases h
    · exact ⟨chain, rfl⟩

/-- Everything around a constructor goes well, and the handshake as given. -/
def Outcomes.fineBut (handshake : Settings κ C Key → Bool) : Outcomes κ C Key :=
  { (Outcomes.fine : Outcomes κ C Key) with handshake := handshake }

/-- A constructor honours the options exactly if they are covered, where its handshake completes
only for the settings that the configuration leads to, and can complete for them. -/
theorem honoursOptions_iff_covered (hverify : cfg.verify ≠ .none)
    (ho : cfg.verifyOptions = some o) {name : Option (List Byte)}
    {completes : (Settings κ C Key → Setting κ C Key → Bool) → Outcomes κ C Key → Prop}
    (hcompletes : ∀ accepts env, completes accepts env → ¬cfg.protocols.HasDtls ∧
      env.handshake ((libssl accepts).attemptAll (clientRun cfg.toClientConfig name) {}) = true)
    (hfine : ¬cfg.protocols.HasDtls → ∀ accepts (handshake : Settings κ C Key → Bool),
      handshake ((libssl accepts).attemptAll (clientRun cfg.toClientConfig name) {}) = true →
        completes accepts (.fineBut handshake)) :
    HonoursOptions N defaultStore peer cfg completes ↔
      cfg.protocols.HasDtls ∨ Covered N o name := by
  constructor
  · intro h
    rw [or_iff_not_imp_left]
    intro hdtls
    -- with revoked certificates that have the name of the connection, the handshake completes
    refine covered_of_satisfies (h (revokedX509 N name) rfl (revokedX509_documented N name)
      (revokedX509_findsMore N name) (takesNames N)
      (.fineBut (verifyingHandshake (revokedX509 N name) defaultStore peer))
      (verifiesPeer_verifyingHandshake _) (hfine hdtls _ _ ?_) o ho)
    have hparam : sslParam ((libssl (takesNames N)).attemptAll
        (clientRun cfg.toClientConfig name) {}) = _ :=
      (sslParam_clientRun hverify (fun _ _ => rfl) name).2.2
    rw [verifyingHandshake, hparam]
    exact congrArg Except.isOk (if_pos ⟨by simp, fun h hh => hh, rfl, rfl⟩)
  · -- the chain of a handshake that completes was verified, and the options ask for no more
    rintro (hdtls | hcovered) V rfl hV hfinds accepts env hpeer hdone o' ho'
    · exact absurd hdtls (hcompletes accepts env hdone).1
    · obtain ⟨hpeerFlag, hstore, hparam⟩ := sslParam_clientRun hverify hpeer.acceptsHost name
      obtain rfl : o = o' := Option.some.inj (ho.symm.trans ho')
      obtain ⟨chain, hchain⟩ := hpeer.handshake _ hpeerFlag (hcompletes accepts env hdone).2
      rw [hstore, hparam] at hchain
      exact satisfies_of_covered hV hfinds hcovered hchain

/-- Two runs that differ in nothing but the options agree on whether the options are satisfied. -/
def Agree (N : IdentitySyntax) (defaultStore : κ) (peer : SentChain C) (cfg : ClientConfigV κ C Key)
    (o o' : VerifyOptions)
    (completes : ClientConfigV κ C Key → (Settings κ C Key → Setting κ C Key → Bool) →
      Outcomes κ C Key → Prop) : Prop :=
  ∀ V : X509Lib κ C, V.identity = N → V.Documented → FindsMore V → ∀ accepts env,
    VerifiesPeer V defaultStore peer accepts env.handshake →
      completes { cfg with verifyOptions := some o } accepts env →
      completes { cfg with verifyOptions := some o' } accepts env →
        (Satisfies V (cfg.trust.getD defaultStore) peer o ↔
          Satisfies V (cfg.trust.getD defaultStore) peer o')

theorem honoursOptions_connect_iff {host : List Byte} {port : BitVec 16}
    (hverify : cfg.verify ≠ .none) (ho : cfg.verifyOptions = some o) :
    HonoursOptions N defaultStore peer cfg (ConnectCompletes host port cfg) ↔
      cfg.protocols.HasDtls ∨ Covered N o (some (cfg.serverName.getD host)) := by
  refine honoursOptions_iff_covered hverify ho (fun accepts env h => ?_) fun hdtls _ _ h => ?_
  · obtain ⟨⟨hdtls, -⟩, h⟩ := connectCompletes_iff.mp h
    exact ⟨hdtls, h⟩
  · exact connectCompletes_iff.mpr ⟨⟨hdtls, rfl, rfl, rfl⟩, h⟩

theorem honoursOptions_memBio_iff (hverify : cfg.verify ≠ .none)
    (ho : cfg.verifyOptions = some o) :
    HonoursOptions N defaultStore peer cfg (MemBioCompletes cfg) ↔
      cfg.protocols.HasDtls ∨ Covered N o cfg.serverName := by
  refine honoursOptions_iff_covered hverify ho (fun accepts env h => ?_) fun hdtls _ _ h => ?_
  · obtain ⟨⟨hdtls, -⟩, h⟩ := memBioCompletes_iff.mp h
    exact ⟨hdtls, h⟩
  · exact memBioCompletes_iff.mpr ⟨⟨hdtls, rfl, rfl, rfl⟩, h⟩

/-- Two runs that both honour their options agree. -/
theorem agree_of_honours {o' : VerifyOptions}
    {completes : ClientConfigV κ C Key → (Settings κ C Key → Setting κ C Key → Bool) →
      Outcomes κ C Key → Prop}
    (h : HonoursOptions N defaultStore peer { cfg with verifyOptions := some o }
      (completes { cfg with verifyOptions := some o }))
    (h' : HonoursOptions N defaultStore peer { cfg with verifyOptions := some o' }
      (completes { cfg with verifyOptions := some o' })) :
    Agree N defaultStore peer cfg o o' completes := by
  intro V hN hV hfinds accepts env hpeer hdone hdone'
  exact iff_of_true (h V hN hV hfinds accepts env hpeer hdone o rfl)
    (h' V hN hV hfinds accepts env hpeer hdone' o' rfl)

end

end

/-- Names of any bytes, and no addresses. -/
def anyName : IdentitySyntax where
  acceptsHost _ := true
  parseIp _ := none
  parseIp_of_nul _ _ := rfl

/-- A client of the host `a` that asks for options. -/
def optionsClient (o : VerifyOptions) : ClientConfigV Unit Unit Unit where
  protocols := ⟨.tls12, .tls13⟩
  verify := .required
  trust := some ()
  serverName := some [0x61]
  verifyOptions := some o

end OpenSSLWasm.Tls
