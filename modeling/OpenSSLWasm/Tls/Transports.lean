import OpenSSLWasm.Tls.Lifetime

/-!
# One configuration on two transports

`client.connect` and `mem-bio-client.new` carry copies of the same configuration code, and so do
`server-listener.bind` with `accept` and `mem-bio-server.new`.

## Main definitions

* `bindAccept`: a connection of a listener, from its configuration on;
* `Agree`: a constructor with a socket and one with BIOs treat a configuration alike.

## Main results

* `connect_of_transport`, `bindAccept_of_transport`: where the transports can be had, a socket
  constructor does what its mem-bio counterpart does, and then the handshake;
* `transports_agree`: both pairs of constructors agree.
-/

namespace OpenSSLWasm.Tls.Lifetime

open Ledger

section

variable (accepts : Settings → Setting Handle Handle Handle → Bool)

/-- `bind` for the listener `l`, and `accept` from it at some later time. -/
def bindAccept (l e : ℕ) (host : List Byte) (port : BitVec 16) (cfg : ServerConfig)
    (env : Env × Env) : Acct Resource (Except TlsError (Rep × Settings)) := do
  let listener ← bind accepts l host port cfg env.1
  match listener with
  | .error err => pure (.error err)
  | .ok (lr, ctx) => accept e lr ctx env.2

end

/-- The `SSL` of an endpoint gets a buffer for its key log. -/
def LogsKeys (e : ℕ) (p : Acct Resource (Except TlsError (Rep × Settings))) : Prop :=
  .acquire (.preKeylog e) ∈ p.entries

/-- Sockets and BIOs can be had, and an `SSL`. -/
structure Env.Transport (env : Env) (host : List Byte) (port : BitVec 16) : Prop where
  tcp : env.outcomes.tcp (cString host) port = true
  accept : env.accept = true
  sslNew : env.sslNew = true
  bioNew : env.outcomes.bioNew = true

/-- The handshake, which a socket constructor makes itself. -/
def handshaken (env : Env) (r : Except TlsError Settings) : Except TlsError Settings :=
  r.bind fun s => if env.handshake s = false then .error .handshakeFailed else .ok s

/-- A constructor with a socket and one with BIOs, for the endpoints `e` and `e'`, treat a
configuration alike. -/
structure Agree {ε : Type} (e : ℕ) (socket : ε → Acct Resource (Except TlsError (Rep × Settings)))
    (e' : ℕ) (bio : Env → Acct Resource (Except TlsError (Rep × Settings))) : Prop where
  /-- What both make has the same settings, and a key log or none. -/
  settings : ∀ env env' r r', (socket env).result = .ok r → (bio env').result = .ok r' →
    r.2 = r'.2 ∧ (LogsKeys e (socket env) ↔ LogsKeys e' (bio env'))
  /-- Protocol bounds are refused by both, and whatever is around. -/
  protocols : ∀ env env', (socket env).result = .error .protocolVersion ↔
    (bio env').result = .error .protocolVersion
  /-- What one never takes the other never takes. -/
  refuses : (∀ env, ∃ err, (socket env).result = .error err) ↔
    ∀ env', ∃ err, (bio env').result = .error err

/-! ## Clients -/

section Client

variable {accepts : Settings → Setting Handle Handle Handle → Bool} {e e' : ℕ} {host : List Byte}
  {port : BitVec 16} {cfg : ClientConfig} {env env' : Env} {name : List Byte}

/-- Where the transports can be had, `connect` does what `mem-bio-client.new` does, and then the
handshake. -/
theorem connect_of_transport (hname : cfg.serverName = some name)
    (henv : env.Transport host port) :
    (connect accepts e host port cfg env).result.map Prod.snd =
      handshaken env ((memBioClientNew accepts e' cfg env).result.map Prod.snd) := by
  obtain ⟨htcp, -, hssl, hbio⟩ := henv
  have hssl : env.outcomes.sslNew = true := hssl
  rw [connect_result, memBioClientNew_result, Tls.connect, Tls.memBioClientNew, htcp, hssl, hbio,
    hname, handshaken]
  split_ifs <;> simp_all [Except.bind, Env.outcomes]

theorem result_map_of_ok {α β : Type} {x : Except TlsError (α × β)} {r : α × β} (h : x = .ok r) :
    x.map Prod.snd = .ok r.2 := by
  rw [h]
  rfl

/-- The settings of a connection. -/
theorem settings_connect {r : Rep × Settings} (hname : cfg.serverName = some name)
    (h : (connect accepts e host port cfg env).result = .ok r) :
    r.2 = (libssl accepts).attemptAll (nameCalls name)
      ((libssl accepts).attemptAll (clientCalls cfg) {}) := by
  have h := result_map_of_ok h
  simp only [connect_result, Tls.connect, hname, Option.getD_some] at h
  split_ifs at h
  exact (Except.ok.inj h).symm

theorem settings_memBioClientNew {r : Rep × Settings} (hname : cfg.serverName = some name)
    (h : (memBioClientNew accepts e cfg env).result = .ok r) :
    r.2 = (libssl accepts).attemptAll (nameCalls name)
      ((libssl accepts).attemptAll (clientCalls cfg) {}) := by
  have h := result_map_of_ok h
  simp only [memBioClientNew_result, Tls.memBioClientNew, hname, Option.toList_some,
    List.flatMap_singleton] at h
  split_ifs at h
  exact (Except.ok.inj h).symm

theorem logsKeys_connect {r : Rep × Settings}
    (h : (connect accepts e host port cfg env).result = .ok r) :
    LogsKeys e (connect accepts e host port cfg env) ↔ cfg.keylog = true := by
  have hlist : .acquire (.preKeylog e) ∉ (alpnList e cfg.alpn).entries :=
    not_mem_alpnList (by simp) _
  have htcp : .acquire (.preKeylog e) ∉
      (connectTcp e (env.attempts (cString host) port)).entries :=
    not_mem_connectTcp (by simp) (by simp) _
  unfold LogsKeys
  unfold connect at h ⊢
  simp only [Acct.result_ite, Acct.entries_ite, Acct.result_bind, Acct.entries_bind] at h ⊢
  cases hfd : (connectTcp e (env.attempts (cString host) port)).result with
  | none =>
    rw [hfd] at h
    split_ifs at h
  | some n =>
    simp only [hfd, Acct.result_ite, Acct.entries_ite, Acct.result_bind, Acct.entries_bind] at h ⊢
    split_ifs at h ⊢
    simp [mem_given, clientAlpn, hlist, htcp]

theorem logsKeys_memBioClientNew {r : Rep × Settings}
    (h : (memBioClientNew accepts e cfg env).result = .ok r) :
    LogsKeys e (memBioClientNew accepts e cfg env) ↔ cfg.keylog = true := by
  have hlist : .acquire (.preKeylog e) ∉ (alpnList e cfg.alpn).entries :=
    not_mem_alpnList (by simp) _
  unfold LogsKeys
  unfold memBioClientNew at h ⊢
  simp only [Acct.result_ite, Acct.entries_ite, Acct.result_bind, Acct.entries_bind] at h ⊢
  split_ifs at h ⊢
  simp [mem_given, clientAlpn, hlist]

end Client

/-! ## Servers -/

section Server

variable {accepts : Settings → Setting Handle Handle Handle → Bool} {l e e' : ℕ}
  {host : List Byte} {port : BitVec 16} {cfg : ServerConfig} {env : Env}

/-- What a connection has comes of a listener. -/
theorem exists_listener {envs : Env × Env} {r : Rep × Settings}
    (h : (bindAccept accepts l e host port cfg envs).result = .ok r) :
    ∃ lr, (bind accepts l host port cfg envs.1).result = .ok lr ∧
      (accept e lr.1 lr.2 envs.2).result = .ok r := by
  unfold bindAccept at h
  rw [Acct.result_bind] at h
  rcases hlr : (bind accepts l host port cfg envs.1).result with err | lr
  · rw [hlr] at h
    cases h
  · rw [hlr] at h
    exact ⟨lr, rfl, h⟩

/-- The settings of a listener. -/
theorem settings_bind {r : Rep × Settings}
    (h : (bind accepts l host port cfg env).result = .ok r) :
    r.2 = (libssl accepts).attemptAll (selectCalls cfg.alpn)
      ((libssl accepts).attemptAll (serverCalls cfg) {}) := by
  have h := result_map_of_ok h
  rw [bind_result, Tls.bind] at h
  split_ifs at h
  exact (Except.ok.inj h).symm

theorem settings_memBioServerNew {r : Rep × Settings}
    (h : (memBioServerNew accepts e cfg env).result = .ok r) :
    r.2 = (libssl accepts).attemptAll (selectCalls cfg.alpn)
      ((libssl accepts).attemptAll (serverCalls cfg) {}) := by
  have h := result_map_of_ok h
  rw [memBioServerNew_result, Tls.memBioServerNew] at h
  split_ifs at h
  exact (Except.ok.inj h).symm

theorem acquire_preKeylog_not_mem_bind :
    .acquire (.preKeylog e) ∉ (bind accepts l host port cfg env).entries := by
  have hlist : .acquire (.preKeylog e) ∉ (alpnList l cfg.alpn).entries :=
    not_mem_alpnList (by simp) _
  have htcp : .acquire (.preKeylog e) ∉
      (connectTcp l (env.attempts (cString host) port)).entries :=
    not_mem_connectTcp (by simp) (by simp) _
  unfold bind bindTcp
  simp only [Acct.entries_ite, Acct.entries_bind]
  cases (connectTcp l (env.attempts (cString host) port)).result <;> split_ifs <;>
    simp [htcp, serverAlpn, hlist, mem_given]

theorem logsKeys_accept {lr : Rep} {ctx : Settings} {r : Rep × Settings}
    (h : (accept e lr ctx env).result = .ok r) :
    LogsKeys e (accept e lr ctx env) ↔ lr.keylogEnabled = true := by
  unfold LogsKeys
  unfold accept at h ⊢
  simp only [Acct.result_ite, Acct.entries_ite, Acct.result_bind, Acct.entries_bind] at h ⊢
  split_ifs at h ⊢
  simp [mem_given]

theorem logsKeys_bindAccept {envs : Env × Env} {r : Rep × Settings}
    (h : (bindAccept accepts l e host port cfg envs).result = .ok r) :
    LogsKeys e (bindAccept accepts l e host port cfg envs) ↔ cfg.keylog = true := by
  obtain ⟨lr, hbind, haccept⟩ := exists_listener h
  obtain ⟨n, hrep⟩ := rep_bind hbind
  have hno : .acquire (.preKeylog e) ∉ (bind accepts l host port cfg envs.1).entries :=
    acquire_preKeylog_not_mem_bind
  have hlogs := logsKeys_accept haccept
  rw [hrep] at hlogs
  rw [← show (serverListenerRep l n _ cfg.keylog).keylogEnabled = cfg.keylog from rfl, ← hlogs,
    LogsKeys, bindAccept, Acct.entries_bind, hbind, List.mem_append, ← hrep]
  exact or_iff_right hno

theorem logsKeys_memBioServerNew {r : Rep × Settings}
    (h : (memBioServerNew accepts e cfg env).result = .ok r) :
    LogsKeys e (memBioServerNew accepts e cfg env) ↔ cfg.keylog = true := by
  have hlist : .acquire (.preKeylog e) ∉ (alpnList e cfg.alpn).entries :=
    not_mem_alpnList (by simp) _
  unfold LogsKeys
  unfold memBioServerNew at h ⊢
  simp only [Acct.result_ite, Acct.entries_ite, Acct.result_bind, Acct.entries_bind] at h ⊢
  split_ifs at h ⊢
  simp [mem_given, serverAlpn, hlist]

/-- Where the transports can be had, `bind` and `accept` do what `mem-bio-server.new` does, and then
the handshake. -/
theorem bindAccept_of_transport (henv : env.Transport host port) :
    (bindAccept accepts l e host port cfg (env, env)).result.map Prod.snd =
      handshaken env ((memBioServerNew accepts e' cfg env).result.map Prod.snd) := by
  obtain ⟨htcp, haccept, hssl, hbio⟩ := henv
  have hnew : (memBioServerNew accepts e' cfg env).result.map Prod.snd =
      (bind accepts l host port cfg env).result.map Prod.snd := by
    have hssl : env.outcomes.sslNew = true := hssl
    rw [bind_result, memBioServerNew_result, Tls.bind, Tls.memBioServerNew, htcp, hssl, hbio]
    rfl
  rw [hnew, bindAccept, Acct.result_bind]
  rcases (bind accepts l host port cfg env).result with err | ⟨lr, ctx⟩
  · rfl
  · simp only [accept, haccept, hssl, handshaken]
    rw [if_neg (by simp), Acct.result_bind, if_neg (by simp)]
    simp only [Acct.result_bind, Acct.result_ite, Except.map, Except.bind]
    split_ifs <;> rfl

end Server

/-! ## Both pairs -/

section

variable {accepts : Settings → Setting Handle Handle Handle → Bool}

theorem result_eq_error_iff {p : Acct Resource (Except TlsError (Rep × Settings))}
    {x : Except TlsError Settings} (h : p.result.map Prod.snd = x) (err : TlsError) :
    p.result = .error err ↔ x = .error err := by
  rw [← h]
  cases p.result with
  | error err' => exact ⟨fun heq => congrArg (Except.map Prod.snd) heq, fun heq => by cases heq; rfl⟩
  | ok r => exact ⟨nofun, nofun⟩

/-- Whatever is around: what is not refused for its protocol bounds goes through if nothing fails. -/
theorem forall_error_iff {ε : Type} {p : ε → Acct Resource (Except TlsError (Rep × Settings))}
    {P : Prop} (hp : ∀ env, (p env).result = .error .protocolVersion ↔ P) (good : ε)
    (hgood : ¬P → ∃ s, (p good).result.map Prod.snd = .ok s) :
    (∀ env, ∃ err, (p env).result = .error err) ↔ P := by
  constructor
  · intro hall
    by_contra hP
    obtain ⟨err, herr⟩ := hall good
    obtain ⟨s, hs⟩ := hgood hP
    rw [herr] at hs
    cases hs
  · intro hP env
    exact ⟨_, (hp env).mpr hP⟩

theorem transport_goodEnv (host : List Byte) (port : BitVec 16) : goodEnv.Transport host port :=
  ⟨rfl, rfl, rfl, rfl⟩

theorem connect_protocolVersion_iff (e : ℕ) (host : List Byte) (port : BitVec 16)
    (cfg : ClientConfig) (env : Env) :
    (connect accepts e host port cfg env).result = .error .protocolVersion ↔
      cfg.protocols.HasDtls := by
  rw [result_eq_error_iff (connect_result accepts e host port cfg env)]
  simp only [Tls.connect]
  split_ifs <;> simp [*]

theorem memBioClientNew_protocolVersion_iff (e : ℕ) (cfg : ClientConfig) (env : Env) :
    (memBioClientNew accepts e cfg env).result = .error .protocolVersion ↔
      cfg.protocols.HasDtls := by
  rw [result_eq_error_iff (memBioClientNew_result accepts e cfg env), Tls.memBioClientNew]
  split_ifs <;> simp [*]

theorem bindAccept_protocolVersion_iff (l e : ℕ) (host : List Byte) (port : BitVec 16)
    (cfg : ServerConfig) (envs : Env × Env) :
    (bindAccept accepts l e host port cfg envs).result = .error .protocolVersion ↔
      cfg.protocols.HasDtls := by
  have hbind : (bind accepts l host port cfg envs.1).result = .error .protocolVersion ↔
      cfg.protocols.HasDtls := by
    rw [result_eq_error_iff (bind_result accepts l host port cfg envs.1), Tls.bind]
    split_ifs <;> simp [*]
  rw [← hbind, bindAccept, Acct.result_bind]
  rcases (bind accepts l host port cfg envs.1).result with err | ⟨lr, ctx⟩
  · exact ⟨fun h => congrArg _ (Except.error.inj h), fun h => congrArg _ (Except.error.inj h)⟩
  · -- `accept` has other errors
    refine ⟨fun h => ?_, fun h => by cases h⟩
    simp only [accept, Acct.result_ite, Acct.result_bind] at h
    split_ifs at h <;> cases h

theorem memBioServerNew_protocolVersion_iff (e : ℕ) (cfg : ServerConfig) (env : Env) :
    (memBioServerNew accepts e cfg env).result = .error .protocolVersion ↔
      cfg.protocols.HasDtls := by
  rw [result_eq_error_iff (memBioServerNew_result accepts e cfg env), Tls.memBioServerNew]
  split_ifs <;> simp [*]

theorem exists_memBioClientNew (e : ℕ) {cfg : ClientConfig} (h : ¬cfg.protocols.HasDtls) :
    ∃ s, (memBioClientNew accepts e cfg goodEnv).result.map Prod.snd = .ok s := by
  rw [memBioClientNew_result, Tls.memBioClientNew, if_neg h]
  exact ⟨_, rfl⟩

theorem exists_memBioServerNew (e : ℕ) {cfg : ServerConfig} (h : ¬cfg.protocols.HasDtls) :
    ∃ s, (memBioServerNew accepts e cfg goodEnv).result.map Prod.snd = .ok s := by
  rw [memBioServerNew_result, Tls.memBioServerNew, if_neg h]
  exact ⟨_, rfl⟩

theorem agree_client (e e' : ℕ) (host : List Byte) (port : BitVec 16) {cfg : ClientConfig}
    {name : List Byte} (hname : cfg.serverName = some name) :
    Agree e (connect accepts e host port cfg) e' (memBioClientNew accepts e' cfg) where
  settings _ _ _ _ h h' :=
    ⟨(settings_connect hname h).trans (settings_memBioClientNew hname h').symm,
      (logsKeys_connect h).trans (logsKeys_memBioClientNew h').symm⟩
  protocols env env' := (connect_protocolVersion_iff e host port cfg env).trans
    (memBioClientNew_protocolVersion_iff e' cfg env').symm
  refuses := by
    rw [forall_error_iff (connect_protocolVersion_iff e host port cfg) goodEnv,
      forall_error_iff (memBioClientNew_protocolVersion_iff e' cfg) goodEnv]
    · exact exists_memBioClientNew e'
    · intro h
      obtain ⟨s, hs⟩ : ∃ s, (memBioClientNew accepts e' cfg goodEnv).result.map Prod.snd = .ok s :=
        exists_memBioClientNew e' h
      rw [connect_of_transport hname (transport_goodEnv host port), hs]
      exact ⟨s, rfl⟩

theorem agree_server (l e e' : ℕ) (host : List Byte) (port : BitVec 16) (cfg : ServerConfig) :
    Agree e (bindAccept accepts l e host port cfg) e' (memBioServerNew accepts e' cfg) where
  settings envs env' r r' h h' := by
    obtain ⟨lr, hbind, haccept⟩ := exists_listener h
    refine ⟨?_, (logsKeys_bindAccept h).trans (logsKeys_memBioServerNew h').symm⟩
    rw [accept_result e haccept, settings_bind hbind, settings_memBioServerNew h']
  protocols envs env' := (bindAccept_protocolVersion_iff l e host port cfg envs).trans
    (memBioServerNew_protocolVersion_iff e' cfg env').symm
  refuses := by
    rw [forall_error_iff (bindAccept_protocolVersion_iff l e host port cfg) (goodEnv, goodEnv),
      forall_error_iff (memBioServerNew_protocolVersion_iff e' cfg) goodEnv]
    · exact exists_memBioServerNew e'
    · intro h
      obtain ⟨s, hs⟩ : ∃ s, (memBioServerNew accepts e' cfg goodEnv).result.map Prod.snd = .ok s :=
        exists_memBioServerNew e' h
      rw [bindAccept_of_transport (transport_goodEnv host port), hs]
      exact ⟨s, rfl⟩

end

/-- The constructors of clients for a configuration with a server name agree, and so do those of
servers: their `SSL` has the same settings and key log, and they refuse the same configurations.
Where the transports can be had, a socket constructor does exactly what its mem-bio counterpart
does, and then the handshake. -/
theorem transports_agree (accepts : Settings → Setting Handle Handle Handle → Bool) (l e e' : ℕ)
    (host : List Byte) (port : BitVec 16) :
    (∀ (cfg : ClientConfig) (name : List Byte), cfg.serverName = some name →
      Agree e (connect accepts e host port cfg) e' (memBioClientNew accepts e' cfg) ∧
      ∀ env : Env, env.Transport host port →
        (connect accepts e host port cfg env).result.map Prod.snd =
          handshaken env ((memBioClientNew accepts e' cfg env).result.map Prod.snd)) ∧
    ∀ cfg : ServerConfig,
      Agree e (bindAccept accepts l e host port cfg) e' (memBioServerNew accepts e' cfg) ∧
      ∀ env : Env, env.Transport host port →
        (bindAccept accepts l e host port cfg (env, env)).result.map Prod.snd =
          handshaken env ((memBioServerNew accepts e' cfg env).result.map Prod.snd) :=
  ⟨fun _ _ hname => ⟨agree_client e e' host port hname,
      fun _ henv => connect_of_transport hname henv⟩,
    fun cfg => ⟨agree_server l e e' host port cfg, fun _ henv => bindAccept_of_transport henv⟩⟩

/-- A client that names its server. -/
def namedConfig : ClientConfig where
  protocols := ⟨.tls12, .tls13⟩
  verify := .required
  trust := some ⟨0, 0⟩
  serverName := some [97]

theorem transports_agree_namedConfig : ∃ r r',
    (connect (fun _ _ => true) 1 [98] 443 namedConfig goodEnv).result = .ok r ∧
      (memBioClientNew (fun _ _ => true) 2 namedConfig goodEnv).result = .ok r' ∧ r.2 = r'.2 :=
  ⟨_, _, rfl, rfl, (((transports_agree (fun _ _ => true) 0 1 2 [98] 443).1 namedConfig [97]
    rfl).1.settings goodEnv goodEnv _ _ rfl rfl).1⟩

end OpenSSLWasm.Tls.Lifetime
