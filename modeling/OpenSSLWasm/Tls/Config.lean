import OpenSSLWasm.Lib.Setters
import OpenSSLWasm.Tls.Alpn
import OpenSSLWasm.Tls.Endpoint

/-!
# Configurations of TLS endpoints

The constructors in `src/tls.c` turn a configuration into calls on an `SSL_CTX` and an `SSL`. Each
of them may be refused, which libssl reports in its result; the results are not looked at. What
libssl takes is a parameter of the model.

## Main definitions

* `ClientConfig` and `ServerConfig`: the records of the interface;
* `Settings` and `Setting`: what is in force, and the calls that change it;
* `applyProtocols`, `applyCiphers`, `applyGroups`: the calls that the helpers make;
* `connect`, `bind`, `memBioClientNew`, `memBioServerNew`: the constructors;
* `InForce`: the settings that a configuration asks for are those that libssl goes by;
* `Applicable`: they can all be applied.

## Main results

* `honours_iff`: a constructor that succeeds has put everything in force exactly if it refuses the
  range of protocols, or everything could be applied in the first place.
-/

namespace OpenSSLWasm.Tls

open LengthPrefixed

/-! ## Configurations -/

/-- `protocol`. -/
inductive Protocol
  | tls12
  | tls13
  | dtls12
  deriving DecidableEq, Repr

def protoVersion : Protocol → ℕ
  | .tls12 => 0x0303
  | .tls13 => 0x0304
  | .dtls12 => 0xFEFD

/-- `protocol-range`. -/
structure ProtocolRange where
  min : Protocol
  max : Protocol
  deriving DecidableEq, Repr

/-- A bound that the constructors refuse. -/
def ProtocolRange.HasDtls (r : ProtocolRange) : Prop := r.min = .dtls12 ∨ r.max = .dtls12

instance (r : ProtocolRange) : Decidable r.HasDtls :=
  inferInstanceAs (Decidable (_ ∨ _))

/-- `verify-mode`. -/
inductive VerifyMode
  | none
  | required
  | optional
  deriving DecidableEq, Repr

/-- `cipher-preferences`. -/
structure CipherPreferences where
  tls13 : Option (List Byte) := none
  tls12 : Option (List Byte) := none

/-- `client-config`, as far as the constructors read it. -/
structure ClientConfig (Store Cert Key : Type) where
  protocols : ProtocolRange
  verify : VerifyMode
  trust : Option Store := none
  serverName : Option (List Byte) := none
  clientCert : Option Cert := none
  clientKey : Option Key := none
  alpn : Option AlpnOffer := none
  ciphers : Option CipherPreferences := none
  groups : Option (List Byte) := none
  keylog : Bool := false

/-- `server-config`, as far as the constructors read it. -/
structure ServerConfig (Store Cert Key : Type) where
  protocols : ProtocolRange
  verify : VerifyMode
  clientTrust : Option Store := none
  certChain : List Cert
  key : Key
  alpn : Option AlpnOffer := none
  ciphers : Option CipherPreferences := none
  groups : Option (List Byte) := none
  keylog : Bool := false

/-! ## libssl -/

/-- The flags of `SSL_CTX_set_verify`. -/
structure VerifyFlags where
  peer : Bool := false
  failIfNoPeerCert : Bool := false
  deriving DecidableEq, Repr

/-- What an `SSL` goes by; `SSL_new` takes it over from the context. `none` is the default of
libssl. -/
structure Settings (Store Cert Key : Type) where
  minProto : Option ℕ := none
  maxProto : Option ℕ := none
  cipherList : Option (List Byte) := none
  ciphersuites : Option (List Byte) := none
  groups : Option (List Byte) := none
  verify : VerifyFlags := {}
  certStore : Option Store := none
  certificate : Option Cert := none
  chain : List Cert := []
  privateKey : Option Key := none
  keylogCallback : Bool := false
  /-- The offer of a client. -/
  alpnProtos : List Byte := []
  /-- The argument of `alpn_select_cb` on a server. -/
  alpnSelect : Option (List Byte) := none
  /-- The name that is sent. -/
  hostName : Option (List Byte) := none
  /-- The name that the certificate of the peer is checked for. -/
  host : Option (List Byte) := none

/-- A call that changes the settings. -/
inductive Setting (Store Cert Key : Type)
  | minProtoVersion (v : ℕ)
  | maxProtoVersion (v : ℕ)
  | cipherList (str : List Byte)
  | ciphersuites (str : List Byte)
  | groupsList (str : List Byte)
  | verify (flags : VerifyFlags)
  | certStore (s : Store)
  | useCertificate (c : Cert)
  | addChainCert (c : Cert)
  | usePrivateKey (k : Key)
  | keylogCallback
  | alpnProtos (wire : List Byte)
  | alpnSelect (arg : List Byte)
  | tlsextHostName (name : List Byte)
  | host (name : List Byte)

section

variable {Store Cert Key : Type}

/-- What a call does that is taken. -/
def Setting.apply (x : Setting Store Cert Key) (s : Settings Store Cert Key) :
    Settings Store Cert Key :=
  match x with
  | .minProtoVersion v => { s with minProto := some v }
  | .maxProtoVersion v => { s with maxProto := some v }
  | .cipherList str => { s with cipherList := some str }
  | .ciphersuites str => { s with ciphersuites := some str }
  | .groupsList str => { s with groups := some str }
  | .verify flags => { s with verify := flags }
  | .certStore st => { s with certStore := some st }
  | .useCertificate c => { s with certificate := some c }
  | .addChainCert c => { s with chain := s.chain ++ [c] }
  | .usePrivateKey k => { s with privateKey := some k }
  | .keylogCallback => { s with keylogCallback := true }
  | .alpnProtos wire => { s with alpnProtos := wire }
  | .alpnSelect arg => { s with alpnSelect := some arg }
  | .tlsextHostName name => { s with hostName := some name }
  -- an empty name means that no name is checked
  | .host name => { s with host := if name = [] then none else some name }

/-- The calls that libssl cannot refuse: those without a result, an empty offer, which is no offer,
and an empty name to check, which is no check. -/
def Setting.isFree : Setting Store Cert Key → Bool
  | .verify _ => true
  | .certStore _ => true
  | .keylogCallback => true
  | .alpnSelect _ => true
  | .alpnProtos wire => wire.isEmpty
  | .host name => name.isEmpty
  | _ => false

/-- libssl, by what it takes in which state. -/
def libssl (accepts : Settings Store Cert Key → Setting Store Cert Key → Bool) :
    Setters (Settings Store Cert Key) (Setting Store Cert Key) where
  accepts s x := x.isFree || accepts s x
  set := Setting.apply

/-! ## The calls of the helpers -/

def applyProtocols (r : ProtocolRange) : List (Setting Store Cert Key) :=
  -- a version of 0 stands for a protocol that is none of the three
  let mn := protoVersion r.min
  let mx := protoVersion r.max
  (if mn ≠ 0 then [.minProtoVersion mn] else []) ++ if mx ≠ 0 then [.maxProtoVersion mx] else []

/-- The texts are copied with a NUL at the end. -/
def applyCiphers : Option CipherPreferences → List (Setting Store Cert Key)
  | none => []
  | some cp =>
    cp.tls12.toList.map (fun s => .cipherList (cString s)) ++
      cp.tls13.toList.map fun s => .ciphersuites (cString s)

def applyGroups (g : Option (List Byte)) : List (Setting Store Cert Key) :=
  g.toList.map fun s => .groupsList (cString s)

/-- The calls on the context that `connect` and `mem-bio-client.new` both make. -/
def clientCalls (cfg : ClientConfig Store Cert Key) : List (Setting Store Cert Key) :=
  applyProtocols cfg.protocols ++ applyCiphers cfg.ciphers ++ applyGroups cfg.groups ++
    [.verify (if cfg.verify = .none then {} else { peer := true })] ++
    cfg.trust.toList.map .certStore ++
    cfg.clientCert.toList.map .useCertificate ++
    cfg.clientKey.toList.map .usePrivateKey ++
    (if cfg.keylog then [.keylogCallback] else []) ++
    (alpnWire cfg.alpn).toList.map .alpnProtos

/-- The calls on the `SSL` of a client, with a copy of the name. -/
def nameCalls (name : List Byte) : List (Setting Store Cert Key) :=
  [.tlsextHostName (cString name), .host (cString name)]

/-- The first certificate is that of the server, the others are its chain. -/
def chainCalls : List Cert → List (Setting Store Cert Key)
  | [] => []
  | c :: cs => .useCertificate c :: cs.map .addChainCert

/-- The calls on the context that `bind` and `mem-bio-server.new` both make at first. -/
def serverCalls (cfg : ServerConfig Store Cert Key) : List (Setting Store Cert Key) :=
  applyProtocols cfg.protocols ++ applyCiphers cfg.ciphers ++ applyGroups cfg.groups ++
    [.verify (match cfg.verify with
      | .none => {}
      | .required => { peer := true, failIfNoPeerCert := true }
      | .optional => { peer := true })] ++
    cfg.clientTrust.toList.map .certStore ++
    chainCalls cfg.certChain ++
    [.usePrivateKey cfg.key] ++
    if cfg.keylog then [.keylogCallback] else []

/-- What they do for ALPN once the transport is there. -/
def selectCalls (alpn : Option AlpnOffer) : List (Setting Store Cert Key) :=
  (alpnServerList alpn).toList.map .alpnSelect

/-! ## Constructors -/

/-- How what is around a constructor turns out. -/
structure Outcomes (Store Cert Key : Type) where
  ctxNew : Bool
  /-- `connect_tcp` and `bind_tcp`. -/
  tcp : List Byte → BitVec 16 → Bool
  sslNew : Bool
  bioNew : Bool
  handshake : Settings Store Cert Key → Bool

variable (accepts : Settings Store Cert Key → Setting Store Cert Key → Bool)

/-- `client.connect`. -/
def connect (host : List Byte) (port : BitVec 16) (cfg : ClientConfig Store Cert Key)
    (env : Outcomes Store Cert Key) : Except TlsError (Settings Store Cert Key) :=
  if cfg.protocols.HasDtls then .error .protocolVersion
  else if env.ctxNew = false then .error .badConfig
  else
    let ctx := (libssl accepts).attemptAll (clientCalls cfg) {}
    if env.tcp (cString host) port = false then .error .ioClosed
    else if env.sslNew = false then .error .badConfig
    else
      let ssl := (libssl accepts).attemptAll (nameCalls (cfg.serverName.getD host)) ctx
      if env.handshake ssl = false then .error .handshakeFailed else .ok ssl

/-- `server-listener.bind`; `accept` makes the `SSL` of each connection from the context. -/
def bind (host : List Byte) (port : BitVec 16) (cfg : ServerConfig Store Cert Key)
    (env : Outcomes Store Cert Key) : Except TlsError (Settings Store Cert Key) :=
  if cfg.protocols.HasDtls then .error .protocolVersion
  else if env.ctxNew = false then .error .badConfig
  else
    let ctx := (libssl accepts).attemptAll (serverCalls cfg) {}
    if env.tcp (cString host) port = false then .error .ioClosed
    else .ok ((libssl accepts).attemptAll (selectCalls cfg.alpn) ctx)

/-- `mem-bio-client.new`, where there is no host to fall back on. -/
def memBioClientNew (cfg : ClientConfig Store Cert Key) (env : Outcomes Store Cert Key) :
    Except TlsError (Settings Store Cert Key) :=
  if cfg.protocols.HasDtls then .error .protocolVersion
  else if env.ctxNew = false then .error .badConfig
  else
    let ctx := (libssl accepts).attemptAll (clientCalls cfg) {}
    if env.sslNew = false then .error .badConfig
    else
      let ssl := (libssl accepts).attemptAll (cfg.serverName.toList.flatMap nameCalls) ctx
      if env.bioNew = false then .error .badConfig else .ok ssl

/-- `mem-bio-server.new`. -/
def memBioServerNew (cfg : ServerConfig Store Cert Key) (env : Outcomes Store Cert Key) :
    Except TlsError (Settings Store Cert Key) :=
  if cfg.protocols.HasDtls then .error .protocolVersion
  else if env.ctxNew = false then .error .badConfig
  else
    let ctx := (libssl accepts).attemptAll (serverCalls cfg) {}
    if env.sslNew = false then .error .badConfig
    else if env.bioNew = false then .error .badConfig
    else .ok ((libssl accepts).attemptAll (selectCalls cfg.alpn) ctx)

/-! ## What a configuration asks for -/

/-- The settings that a configuration asks for. -/
structure Asked (Cert Key : Type) where
  protocols : ProtocolRange
  tls12 : Option (List Byte)
  tls13 : Option (List Byte)
  groups : Option (List Byte)
  certs : List Cert
  key : Option Key
  name : Option (List Byte)
  alpn : Option AlpnOffer

/-- What a client asks for that is to be sure of the given name. -/
def ClientConfig.asked (cfg : ClientConfig Store Cert Key) (name : Option (List Byte)) :
    Asked Cert Key where
  protocols := cfg.protocols
  tls12 := cfg.ciphers.bind (·.tls12)
  tls13 := cfg.ciphers.bind (·.tls13)
  groups := cfg.groups
  certs := cfg.clientCert.toList
  key := cfg.clientKey
  name := name
  alpn := cfg.alpn

def ServerConfig.asked (cfg : ServerConfig Store Cert Key) : Asked Cert Key where
  protocols := cfg.protocols
  tls12 := cfg.ciphers.bind (·.tls12)
  tls13 := cfg.ciphers.bind (·.tls13)
  groups := cfg.groups
  certs := cfg.certChain
  key := some cfg.key
  name := none
  alpn := cfg.alpn

/-- The protocols that a client offers. -/
def Offers (s : Settings Store Cert Key) (ps : List (List Byte)) : Prop := Encodes ps s.alpnProtos

/-- The protocols that a server selects from. -/
def SelectsFrom (s : Settings Store Cert Key) (ps : List (List Byte)) : Prop :=
  ∃ l, s.alpnSelect = some l ∧ Serves l ps

/-- Everything that was asked for is in force, given what it means for a list of application
protocols. -/
structure InForce (alpn : Settings Store Cert Key → List (List Byte) → Prop)
    (a : Asked Cert Key) (s : Settings Store Cert Key) : Prop where
  minProto : s.minProto = some (protoVersion a.protocols.min)
  maxProto : s.maxProto = some (protoVersion a.protocols.max)
  cipherList : ∀ t ∈ a.tls12, s.cipherList = some t
  ciphersuites : ∀ t ∈ a.tls13, s.ciphersuites = some t
  groups : ∀ t ∈ a.groups, s.groups = some t
  certificate : ∀ c ∈ a.certs.head?, s.certificate = some c
  chain : s.chain = a.certs.tail
  privateKey : ∀ k ∈ a.key, s.privateKey = some k
  hostName : ∀ n ∈ a.name, s.hostName = some n
  host : ∀ n ∈ a.name, s.host = some n
  alpn : ∀ o ∈ a.alpn, alpn s o.protocols

/-- Whatever happens around it, a constructor that succeeds has put everything in force. -/
def Honours (alpn : Settings Store Cert Key → List (List Byte) → Prop) (a : Asked Cert Key)
    (new : Outcomes Store Cert Key → Except TlsError (Settings Store Cert Key)) : Prop :=
  ∀ env s, new env = .ok s → InForce alpn a s

/-- Everything that was asked for can be applied by the given calls. -/
structure Applicable (calls : List (Setting Store Cert Key)) (a : Asked Cert Key) : Prop where
  /-- libssl takes every call, where all before it were taken. -/
  takes : (libssl accepts).Takes calls {}
  /-- The texts are passed on to their ends. -/
  whole : ∀ t ∈ a.tls12.toList ++ a.tls13.toList ++ a.groups.toList ++ a.name.toList, 0 ∉ t
  named : [] ∉ a.name
  entries : ∀ o ∈ a.alpn, ∀ p ∈ o.protocols, Entry p

/-! ## What the calls amount to -/

variable {accepts}

@[simp] theorem libssl_set (x : Setting Store Cert Key) (s : Settings Store Cert Key) :
    (libssl accepts).set x s = x.apply s := rfl

section setAll

variable (s : Settings Store Cert Key)

@[simp] theorem setAll_applyProtocols (r : ProtocolRange) :
    (libssl accepts).setAll (applyProtocols r) s =
      { s with minProto := some (protoVersion r.min), maxProto := some (protoVersion r.max) } := by
  -- no version of the interface is 0
  rcases r with ⟨min, max⟩
  cases min <;> cases max <;> rfl

@[simp] theorem setAll_applyCiphers (cp : Option CipherPreferences) :
    (libssl accepts).setAll (applyCiphers cp) s =
      { s with
        cipherList := ((cp.bind (·.tls12)).map cString).or s.cipherList
        ciphersuites := ((cp.bind (·.tls13)).map cString).or s.ciphersuites } := by
  rcases cp with _ | ⟨_ | _, _ | _⟩ <;> rfl

@[simp] theorem setAll_applyGroups (g : Option (List Byte)) :
    (libssl accepts).setAll (applyGroups g) s =
      { s with groups := (g.map cString).or s.groups } := by
  rcases g with _ | _ <;> rfl

@[simp] theorem setAll_certStore (st : Option Store) :
    (libssl accepts).setAll (st.toList.map .certStore) s =
      { s with certStore := st.or s.certStore } := by
  rcases st with _ | _ <;> rfl

@[simp] theorem setAll_useCertificate (c : Option Cert) :
    (libssl accepts).setAll (c.toList.map .useCertificate) s =
      { s with certificate := c.or s.certificate } := by
  rcases c with _ | _ <;> rfl

@[simp] theorem setAll_usePrivateKey (k : Option Key) :
    (libssl accepts).setAll (k.toList.map .usePrivateKey) s =
      { s with privateKey := k.or s.privateKey } := by
  rcases k with _ | _ <;> rfl

@[simp] theorem setAll_keylogCallback (b : Bool) :
    (libssl accepts).setAll (if b then [.keylogCallback] else []) s =
      { s with keylogCallback := b || s.keylogCallback } := by
  cases b <;> rfl

@[simp] theorem setAll_alpnProtos (wire : Option (List Byte)) :
    (libssl accepts).setAll (wire.toList.map .alpnProtos) s =
      { s with alpnProtos := wire.getD s.alpnProtos } := by
  rcases wire with _ | _ <;> rfl

@[simp] theorem setAll_selectCalls (alpn : Option AlpnOffer) :
    (libssl accepts).setAll (selectCalls alpn) s =
      { s with alpnSelect := (alpnServerList alpn).or s.alpnSelect } := by
  rw [selectCalls]
  rcases alpnServerList alpn with _ | _ <;> rfl

theorem setAll_addChainCert (cs : List Cert) :
    (libssl accepts).setAll (cs.map .addChainCert) s = { s with chain := s.chain ++ cs } := by
  induction cs generalizing s with
  | nil => simp
  | cons c cs ih => simp [ih, Setting.apply]

@[simp] theorem setAll_chainCalls (cs : List Cert) :
    (libssl accepts).setAll (chainCalls cs) s =
      { s with certificate := cs.head?.or s.certificate, chain := s.chain ++ cs.tail } := by
  rcases cs with _ | ⟨c, cs⟩
  · simp [chainCalls]
  · simp [chainCalls, setAll_addChainCert, Setting.apply]

end setAll

/-! ## Counting settings -/

/-- What a call adds to the settings if it is taken. -/
def Setting.gain (x : Setting Store Cert Key) : ℕ := if x.isFree then 0 else 1

/-- The number of settings that are not the defaults of libssl. -/
def Settings.count (s : Settings Store Cert Key) : ℕ :=
  s.minProto.toList.length + s.maxProto.toList.length + s.cipherList.toList.length +
    s.ciphersuites.toList.length + s.groups.toList.length + s.certificate.toList.length +
    s.chain.length + s.privateKey.toList.length + s.alpnProtos.head?.toList.length +
    s.hostName.toList.length + s.host.toList.length

theorem Setting.count_apply_le (x : Setting Store Cert Key) (s : Settings Store Cert Key) :
    (x.apply s).count ≤ s.count + x.gain := by
  rcases x with _ | _ | _ | _ | _ | _ | _ | _ | _ | _ | _ | wire | _ | _ | name
  -- these two add nothing if what they are given is empty
  case alpnProtos =>
    rcases wire with _ | _
    · simp [apply, gain, isFree, Settings.count]
    · simp [apply, gain, isFree, Settings.count]
      omega
  case host => rcases name with _ | _ <;> simp [apply, gain, isFree, Settings.count]
  all_goals simp [apply, gain, isFree, Settings.count] <;> omega

theorem accepts_of_gain_eq_zero (x : Setting Store Cert Key) (s : Settings Store Cert Key)
    (h : x.gain = 0) : (libssl accepts).accepts s x = true := by
  have h : x.isFree = true := by
    rw [Setting.gain] at h
    split at h
    · assumption
    · exact absurd h one_ne_zero
  simp [libssl, h]

/-- What the calls are worth together. -/
def worth (calls : List (Setting Store Cert Key)) : ℕ := (calls.map Setting.gain).sum

/-- Where the settings have become as many as the calls are worth, all were taken. -/
theorem takes_of_count {calls : List (Setting Store Cert Key)}
    (h : worth calls ≤ ((libssl accepts).attemptAll calls {}).count) :
    (libssl accepts).Takes calls {} := by
  apply (libssl accepts).takes_of_weight Setting.count_apply_le accepts_of_gain_eq_zero
  have h0 : ({} : Settings Store Cert Key).count = 0 := rfl
  rw [h0, zero_add]
  exact h

section worth

@[simp] theorem worth_nil : worth ([] : List (Setting Store Cert Key)) = 0 := rfl

@[simp] theorem worth_cons (x : Setting Store Cert Key) (calls : List (Setting Store Cert Key)) :
    worth (x :: calls) = x.gain + worth calls := by
  rw [worth, List.map_cons, List.sum_cons, worth]

@[simp] theorem worth_append (calls calls' : List (Setting Store Cert Key)) :
    worth (calls ++ calls') = worth calls + worth calls' := by
  rw [worth, List.map_append, List.sum_append, worth, worth]

/-- Calls that are all worth something. -/
theorem worth_map {α : Type} {f : α → Setting Store Cert Key} (hf : ∀ a, (f a).gain = 1)
    (as : List α) : worth (as.map f) = as.length := by
  induction as with
  | nil => rfl
  | cons a as ih => rw [List.map_cons, worth_cons, hf, ih, List.length_cons, Nat.add_comm]

/-- Calls that cannot be refused. -/
theorem worth_map_eq_zero {α : Type} {f : α → Setting Store Cert Key} (hf : ∀ a, (f a).gain = 0)
    (as : List α) : worth (as.map f) = 0 := by
  induction as with
  | nil => rfl
  | cons a as ih => rw [List.map_cons, worth_cons, hf, ih]

@[simp] theorem worth_applyProtocols (r : ProtocolRange) :
    worth (applyProtocols r : List (Setting Store Cert Key)) = 2 := by
  rcases r with ⟨min, max⟩
  cases min <;> cases max <;> rfl

@[simp] theorem worth_applyCiphers (cp : Option CipherPreferences) :
    worth (applyCiphers cp : List (Setting Store Cert Key)) =
      (cp.bind (·.tls12)).toList.length + (cp.bind (·.tls13)).toList.length := by
  rcases cp with _ | ⟨_ | _, _ | _⟩ <;> rfl

@[simp] theorem worth_applyGroups (g : Option (List Byte)) :
    worth (applyGroups g : List (Setting Store Cert Key)) = g.toList.length :=
  worth_map (fun _ => rfl) _

@[simp] theorem gain_verify (flags : VerifyFlags) :
    (.verify flags : Setting Store Cert Key).gain = 0 := rfl

@[simp] theorem worth_certStore (st : Option Store) :
    worth (st.toList.map .certStore : List (Setting Store Cert Key)) = 0 :=
  worth_map_eq_zero (fun _ => rfl) _

@[simp] theorem worth_useCertificate (c : Option Cert) :
    worth (c.toList.map .useCertificate : List (Setting Store Cert Key)) = c.toList.length :=
  worth_map (fun _ => rfl) _

@[simp] theorem worth_usePrivateKey (k : Option Key) :
    worth (k.toList.map .usePrivateKey : List (Setting Store Cert Key)) = k.toList.length :=
  worth_map (fun _ => rfl) _

@[simp] theorem worth_keylogCallback (b : Bool) :
    worth (if b then [.keylogCallback] else [] : List (Setting Store Cert Key)) = 0 := by
  cases b <;> rfl

theorem worth_nameCalls_le (name : List Byte) :
    worth (nameCalls name : List (Setting Store Cert Key)) ≤ 2 := by
  simp only [nameCalls, worth_cons, worth_nil, Setting.gain]
  split <;> split <;> omega

@[simp] theorem worth_chainCalls (cs : List Cert) :
    worth (chainCalls cs : List (Setting Store Cert Key)) = cs.length := by
  rcases cs with _ | ⟨c, cs⟩
  · rfl
  · rw [chainCalls, worth_cons, worth_map (fun _ => rfl), List.length_cons, Nat.add_comm]
    rfl

@[simp] theorem worth_selectCalls (alpn : Option AlpnOffer) :
    worth (selectCalls alpn : List (Setting Store Cert Key)) = 0 :=
  worth_map_eq_zero (fun _ => rfl) _

/-- The offer of a client shows whether it was taken. -/
theorem worth_alpnProtos_le {alpn : Option AlpnOffer} {s : Settings Store Cert Key}
    (h : ∀ o ∈ alpn, Offers s o.protocols) :
    worth ((alpnWire alpn).toList.map .alpnProtos : List (Setting Store Cert Key)) ≤
      s.alpnProtos.head?.toList.length := by
  rcases alpn with _ | o
  · simp [alpnWire]
  · obtain ⟨hps, hs⟩ := h o rfl
    rw [alpnWire_of_entries hps, hs]
    rcases encode o.protocols with _ | _ <;> simp [Setting.gain, Setting.isFree]

/-- A setting that is in force where it was asked for. -/
theorem length_toList_le {α β : Type} {o : Option α} {slot : Option β} {f : α → β}
    (h : ∀ t ∈ o, slot = some (f t)) : o.toList.length ≤ slot.toList.length := by
  rcases o with _ | t
  · exact Nat.zero_le _
  · rw [h t rfl]
    rfl

end worth

/-! ## Configurations in force -/

/-- What makes a list of calls tell whether they were taken: in force, the settings are as many as
the calls are worth, and calls that are taken put them in force where the configuration is made of
proper texts and entries. -/
theorem inForce_iff_applicable {alpn : Settings Store Cert Key → List (List Byte) → Prop}
    {a : Asked Cert Key} {calls : List (Setting Store Cert Key)}
    (hworth : ∀ s, InForce alpn a s → worth calls ≤ s.count)
    (hset : InForce alpn a ((libssl accepts).setAll calls {}) ↔
      (∀ t ∈ a.tls12.toList ++ a.tls13.toList ++ a.groups.toList ++ a.name.toList, 0 ∉ t) ∧
        [] ∉ a.name ∧ ∀ o ∈ a.alpn, ∀ p ∈ o.protocols, Entry p) :
    InForce alpn a ((libssl accepts).attemptAll calls {}) ↔ Applicable accepts calls a := by
  constructor
  · -- counting shows that all calls were taken, and then the settings show what they were for
    intro h
    have htakes := takes_of_count (hworth _ h)
    rw [Setters.attemptAll_of_takes _ htakes] at h
    obtain ⟨hwhole, hnamed, hentries⟩ := hset.mp h
    exact ⟨htakes, hwhole, hnamed, hentries⟩
  · rintro ⟨htakes, hwhole, hnamed, hentries⟩
    rw [Setters.attemptAll_of_takes _ htakes]
    exact hset.mpr ⟨hwhole, hnamed, hentries⟩

theorem map_cString_iff {o : Option (List Byte)} :
    (∀ t ∈ o, o.map cString = some t) ↔ ∀ t ∈ o.toList, 0 ∉ t := by
  rcases o with _ | t
  · simp
  · simp [cString_eq_self_iff]

section client

variable (cfg : ClientConfig Store Cert Key) (name : Option (List Byte))

/-- All that a client calls, given the name that it goes by. -/
def clientRun : List (Setting Store Cert Key) := clientCalls cfg ++ name.toList.flatMap nameCalls

/-- Where everything is taken, the settings are those of the configuration. -/
theorem setAll_clientRun :
    (libssl accepts).setAll (clientRun cfg name) {} =
      { minProto := some (protoVersion cfg.protocols.min)
        maxProto := some (protoVersion cfg.protocols.max)
        cipherList := (cfg.ciphers.bind (·.tls12)).map cString
        ciphersuites := (cfg.ciphers.bind (·.tls13)).map cString
        groups := cfg.groups.map cString
        verify := if cfg.verify = .none then {} else { peer := true }
        certStore := cfg.trust
        certificate := cfg.clientCert
        privateKey := cfg.clientKey
        keylogCallback := cfg.keylog
        alpnProtos := (alpnWire cfg.alpn).getD []
        hostName := name.map cString
        host := (name.map cString).filter (· ≠ []) } := by
  rw [clientRun, Setters.setAll_append, clientCalls]
  simp only [Setters.setAll_append, setAll_applyProtocols, setAll_applyCiphers, setAll_applyGroups,
    Setters.setAll_cons, Setters.setAll_nil, libssl_set, Setting.apply, setAll_certStore,
    setAll_useCertificate, setAll_usePrivateKey, setAll_keylogCallback, setAll_alpnProtos,
    Option.or_none, Bool.or_false]
  rcases name with _ | n
  · rfl
  · by_cases hn : cString n = [] <;> simp [nameCalls, Setting.apply, hn, Option.filter]

theorem worth_clientRun_le {s : Settings Store Cert Key}
    (h : InForce Offers (cfg.asked name) s) : worth (clientRun cfg name) ≤ s.count := by
  have h12 := length_toList_le (f := id) h.cipherList
  have h13 := length_toList_le (f := id) h.ciphersuites
  have hgroups := length_toList_le (f := id) h.groups
  -- in front of the chain of a client there is no other certificate
  have hcert : cfg.clientCert.toList.length ≤ s.certificate.toList.length :=
    length_toList_le (f := id) fun c hc => h.certificate c (by simpa [ClientConfig.asked] using hc)
  have hkey := length_toList_le (f := id) h.privateKey
  have hsni := length_toList_le (f := id) h.hostName
  have hhost := length_toList_le (f := id) h.host
  have halpn := worth_alpnProtos_le h.alpn
  have hname : worth (name.toList.flatMap nameCalls : List (Setting Store Cert Key)) ≤
      2 * name.toList.length := by
    rcases name with _ | n
    · rfl
    · simpa using worth_nameCalls_le n
  simp only [ClientConfig.asked] at h12 h13 hgroups hkey hsni hhost halpn
  simp only [clientRun, clientCalls, worth_append, worth_cons, worth_nil, worth_applyProtocols,
    worth_applyCiphers, worth_applyGroups, gain_verify, worth_certStore, worth_useCertificate,
    worth_usePrivateKey, worth_keylogCallback, Settings.count, h.minProto, h.maxProto,
    Option.toList_some, List.length_singleton]
  omega

theorem inForce_client_iff :
    InForce Offers (cfg.asked name) ((libssl accepts).attemptAll (clientRun cfg name) {}) ↔
      Applicable accepts (clientRun cfg name) (cfg.asked name) := by
  refine inForce_iff_applicable (fun s => worth_clientRun_le cfg name) ?_
  rw [setAll_clientRun]
  simp only [ClientConfig.asked, List.forall_mem_append, ← map_cString_iff]
  constructor
  · intro h
    refine ⟨⟨⟨⟨h.cipherList, h.ciphersuites⟩, h.groups⟩, h.hostName⟩, ?_, ?_⟩
    · -- with an empty name, no name is checked
      intro hn
      have := h.host [] hn
      simp [Option.filter_eq_some_iff] at this
    · intro o ho
      exact (h.alpn o ho).1
  · rintro ⟨⟨⟨⟨h12, h13⟩, hgroups⟩, hsni⟩, hnamed, hentries⟩
    refine ⟨rfl, rfl, h12, h13, hgroups, by simp, ?_, by simp, hsni, ?_, ?_⟩
    · -- a client has no chain
      rcases cfg.clientCert with _ | _ <;> rfl
    · intro n hn
      have hne : n ≠ [] := fun h => hnamed (h ▸ hn)
      simp [hsni n hn, Option.filter, hne]
    · intro o ho
      have halpn : cfg.alpn = some o := ho
      have hwire : alpnWire cfg.alpn = some (encode o.protocols) := by
        rw [halpn]
        exact alpnWire_of_entries (hentries o ho)
      refine ⟨hentries o ho, ?_⟩
      simp only [hwire, Option.getD_some]

end client

section server

variable (cfg : ServerConfig Store Cert Key)

/-- All that a server calls. -/
def serverRun : List (Setting Store Cert Key) := serverCalls cfg ++ selectCalls cfg.alpn

theorem setAll_serverRun :
    (libssl accepts).setAll (serverRun cfg) {} =
      { minProto := some (protoVersion cfg.protocols.min)
        maxProto := some (protoVersion cfg.protocols.max)
        cipherList := (cfg.ciphers.bind (·.tls12)).map cString
        ciphersuites := (cfg.ciphers.bind (·.tls13)).map cString
        groups := cfg.groups.map cString
        verify := match cfg.verify with
          | .none => {}
          | .required => { peer := true, failIfNoPeerCert := true }
          | .optional => { peer := true }
        certStore := cfg.clientTrust
        certificate := cfg.certChain.head?
        chain := cfg.certChain.tail
        privateKey := some cfg.key
        keylogCallback := cfg.keylog
        alpnSelect := alpnServerList cfg.alpn } := by
  rw [serverRun, Setters.setAll_append, serverCalls]
  simp only [Setters.setAll_append, setAll_applyProtocols, setAll_applyCiphers, setAll_applyGroups,
    Setters.setAll_cons, Setters.setAll_nil, libssl_set, Setting.apply, setAll_certStore,
    setAll_chainCalls, setAll_keylogCallback, setAll_selectCalls, Option.or_none, Bool.or_false,
    List.nil_append]

theorem worth_serverRun_le {s : Settings Store Cert Key}
    (h : InForce SelectsFrom cfg.asked s) : worth (serverRun cfg) ≤ s.count := by
  have h12 := length_toList_le (f := id) h.cipherList
  have h13 := length_toList_le (f := id) h.ciphersuites
  have hgroups := length_toList_le (f := id) h.groups
  have hcert := length_toList_le (f := id) h.certificate
  have hkey : s.privateKey = some cfg.key := h.privateKey _ rfl
  -- the certificates of a server are its own and those of its chain
  have hchain : cfg.certChain.length = cfg.certChain.head?.toList.length + s.chain.length := by
    rw [h.chain]
    simp only [ServerConfig.asked]
    rcases cfg.certChain with _ | ⟨c, cs⟩
    · rfl
    · simp [Nat.add_comm]
  have hprivate : (.usePrivateKey cfg.key : Setting Store Cert Key).gain = 1 := rfl
  simp only [ServerConfig.asked] at h12 h13 hgroups hcert
  simp only [serverRun, serverCalls, worth_append, worth_cons, worth_nil, worth_applyProtocols,
    worth_applyCiphers, worth_applyGroups, gain_verify, worth_certStore, worth_chainCalls, hprivate,
    worth_keylogCallback, worth_selectCalls, Settings.count, h.minProto, h.maxProto, hkey,
    Option.toList_some, List.length_singleton]
  omega

theorem inForce_server_iff :
    InForce SelectsFrom cfg.asked ((libssl accepts).attemptAll (serverRun cfg) {}) ↔
      Applicable accepts (serverRun cfg) cfg.asked := by
  refine inForce_iff_applicable (fun s => worth_serverRun_le cfg) ?_
  rw [setAll_serverRun]
  simp only [ServerConfig.asked, List.forall_mem_append, ← map_cString_iff]
  constructor
  · intro h
    refine ⟨⟨⟨⟨h.cipherList, h.ciphersuites⟩, h.groups⟩, by simp⟩, by simp, ?_⟩
    intro o ho
    have halpn : cfg.alpn = some o := ho
    apply (serves_alpnServerList_iff o).mp
    rw [← halpn]
    exact h.alpn o ho
  · rintro ⟨⟨⟨⟨h12, h13⟩, hgroups⟩, -⟩, -, hentries⟩
    refine ⟨rfl, rfl, h12, h13, hgroups, by simp, rfl, by simp, by simp, by simp, ?_⟩
    intro o ho
    have halpn : cfg.alpn = some o := ho
    simp only [SelectsFrom, halpn]
    exact (serves_alpnServerList_iff o).mpr (hentries o ho)

end server

/-! ## Constructors -/

/-- Where everything around it goes well. -/
def Outcomes.fine : Outcomes Store Cert Key where
  ctxNew := true
  tcp _ _ := true
  sslNew := true
  bioNew := true
  handshake _ := true

/-- What is in force after a constructor is what the calls left, if it can succeed. -/
theorem honours_iff_inForce {alpn : Settings Store Cert Key → List (List Byte) → Prop}
    {a : Asked Cert Key} {new : Outcomes Store Cert Key → Except TlsError (Settings Store Cert Key)}
    {s : Settings Store Cert Key} {r : ProtocolRange}
    (hok : ∀ env t, new env = .ok t → ¬r.HasDtls ∧ t = s)
    (hfine : ¬r.HasDtls → new .fine = .ok s) :
    Honours alpn a new ↔ r.HasDtls ∨ InForce alpn a s := by
  constructor
  · intro h
    rw [or_iff_not_imp_left]
    intro hr
    exact h _ _ (hfine hr)
  · rintro (hr | hs) env t ht
    · exact absurd hr (hok env t ht).1
    · obtain ⟨-, rfl⟩ := hok env t ht
      exact hs

section constructors

variable (host : List Byte) (port : BitVec 16)

theorem honours_connect_iff (cfg : ClientConfig Store Cert Key) :
    Honours Offers (cfg.asked (some (cfg.serverName.getD host))) (connect accepts host port cfg) ↔
      cfg.protocols.HasDtls ∨ Applicable accepts (clientRun cfg (some (cfg.serverName.getD host)))
        (cfg.asked (some (cfg.serverName.getD host))) := by
  rw [← inForce_client_iff]
  refine honours_iff_inForce (fun env t h => ?_) fun h => ?_
  · simp only [connect, ite_error_eq_ok, Except.ok.injEq] at h
    obtain ⟨hr, -, -, -, -, rfl⟩ := h
    exact ⟨hr, by simp [clientRun, Setters.attemptAll_append]⟩
  · simp [connect, h, Outcomes.fine, clientRun, Setters.attemptAll_append]

theorem honours_memBioClientNew_iff (cfg : ClientConfig Store Cert Key) :
    Honours Offers (cfg.asked cfg.serverName) (memBioClientNew accepts cfg) ↔
      cfg.protocols.HasDtls ∨
        Applicable accepts (clientRun cfg cfg.serverName) (cfg.asked cfg.serverName) := by
  rw [← inForce_client_iff]
  refine honours_iff_inForce (fun env t h => ?_) fun h => ?_
  · simp only [memBioClientNew, ite_error_eq_ok, Except.ok.injEq] at h
    obtain ⟨hr, -, -, -, rfl⟩ := h
    exact ⟨hr, by rw [clientRun, Setters.attemptAll_append]⟩
  · simp [memBioClientNew, h, Outcomes.fine, clientRun, Setters.attemptAll_append]

theorem honours_bind_iff (cfg : ServerConfig Store Cert Key) :
    Honours SelectsFrom cfg.asked (bind accepts host port cfg) ↔
      cfg.protocols.HasDtls ∨ Applicable accepts (serverRun cfg) cfg.asked := by
  rw [← inForce_server_iff]
  refine honours_iff_inForce (fun env t h => ?_) fun h => ?_
  · simp only [bind, ite_error_eq_ok, Except.ok.injEq] at h
    obtain ⟨hr, -, -, rfl⟩ := h
    exact ⟨hr, by rw [serverRun, Setters.attemptAll_append]⟩
  · simp [bind, h, Outcomes.fine, serverRun, Setters.attemptAll_append]

theorem honours_memBioServerNew_iff (cfg : ServerConfig Store Cert Key) :
    Honours SelectsFrom cfg.asked (memBioServerNew accepts cfg) ↔
      cfg.protocols.HasDtls ∨ Applicable accepts (serverRun cfg) cfg.asked := by
  rw [← inForce_server_iff]
  refine honours_iff_inForce (fun env t h => ?_) fun h => ?_
  · simp only [memBioServerNew, ite_error_eq_ok, Except.ok.injEq] at h
    obtain ⟨hr, -, -, -, rfl⟩ := h
    exact ⟨hr, by rw [serverRun, Setters.attemptAll_append]⟩
  · simp [memBioServerNew, h, Outcomes.fine, serverRun, Setters.attemptAll_append]

/-- A constructor that succeeds has put everything in force exactly if it refuses the range of
protocols, or everything could be applied in the first place. `connect` goes by the host where no
name is given. -/
theorem honours_iff (client : ClientConfig Store Cert Key) (server : ServerConfig Store Cert Key) :
    (Honours Offers (client.asked (some (client.serverName.getD host)))
        (connect accepts host port client) ↔
      client.protocols.HasDtls ∨
        Applicable accepts (clientRun client (some (client.serverName.getD host)))
          (client.asked (some (client.serverName.getD host)))) ∧
    (Honours Offers (client.asked client.serverName) (memBioClientNew accepts client) ↔
      client.protocols.HasDtls ∨
        Applicable accepts (clientRun client client.serverName)
          (client.asked client.serverName)) ∧
    (Honours SelectsFrom server.asked (bind accepts host port server) ↔
      server.protocols.HasDtls ∨ Applicable accepts (serverRun server) server.asked) ∧
    (Honours SelectsFrom server.asked (memBioServerNew accepts server) ↔
      server.protocols.HasDtls ∨ Applicable accepts (serverRun server) server.asked) :=
  ⟨honours_connect_iff host port client, honours_memBioClientNew_iff client,
    honours_bind_iff host port server, honours_memBioServerNew_iff server⟩

end constructors

end

/-- A libssl that knows the cipher list `HIGH` and no other. -/
def knowsHigh : Settings Unit Unit Unit → Setting Unit Unit Unit → Bool
  | _, .cipherList str => str = [0x48, 0x49, 0x47, 0x48]
  | _, _ => true

/-- A client that asks for the cipher list `NOPE`. -/
def nopeClient : ClientConfig Unit Unit Unit where
  protocols := ⟨.tls12, .tls13⟩
  verify := .required
  ciphers := some { tls12 := some [0x4E, 0x4F, 0x50, 0x45] }

/-- A cipher list that libssl does not know is dropped, and the default is used. -/
theorem not_honours_cipherList :
    ¬∀ (accepts : Settings Unit Unit Unit → Setting Unit Unit Unit → Bool) (host : List Byte)
      (port : BitVec 16) (client : ClientConfig Unit Unit Unit)
      (server : ServerConfig Unit Unit Unit),
      Honours Offers (client.asked (some (client.serverName.getD host)))
          (connect accepts host port client) ∧
        Honours Offers (client.asked client.serverName) (memBioClientNew accepts client) ∧
        Honours SelectsFrom server.asked (bind accepts host port server) ∧
        Honours SelectsFrom server.asked (memBioServerNew accepts server) := by
  intro h
  -- the server plays no part here
  obtain ⟨-, hclient, -⟩ := h knowsHigh [] 0 nopeClient
    { protocols := ⟨.tls12, .tls13⟩, verify := .none, certChain := [], key := () }
  have hs : memBioClientNew knowsHigh nopeClient .fine =
      .ok { minProto := some 0x0303, maxProto := some 0x0304, verify := { peer := true } } := rfl
  have hlist := (hclient _ _ hs).cipherList [0x4E, 0x4F, 0x50, 0x45] rfl
  cases hlist

end OpenSSLWasm.Tls
