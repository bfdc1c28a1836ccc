import OpenSSLWasm.Lib.Ledger
import OpenSSLWasm.Tls.Config

/-!
# What TLS endpoints acquire and release

The constructors in `src/tls.c` acquire one resource after another, with an exit after each that may
fail. `close` releases what an endpoint has, clears its record and drops the handle, whereupon the
destructor runs on the cleared record.

## Main definitions

* `Resource`: what an endpoint may acquire, and the handles that it is given;
* `Env`: how the calls of a constructor turn out;
* `connect`, `bind`, `accept`, `memBioClientNew`, `memBioServerNew`: the constructors, with their
  ledgers;
* `Rep`, `Rep.owned`: the record of an endpoint, and what belongs to it;
* `close`, `destructor`: the ends of an endpoint.

## Main results

* `connect_result` and its companions: the constructors are those of the configurations;
* `triple_connect` and its companions: a constructor holds what belongs to the record, or nothing if
  it fails;
* `triple_close`, `triple_destructor`: an end releases what belongs to the record.
-/

namespace OpenSSLWasm.Tls.Lifetime

open Ledger

/-! ## Resources -/

/-- An own handle that is passed to the component, and the object that it stands for. -/
structure Handle where
  index : ℕ
  object : ℕ
  deriving DecidableEq, Repr

/-- What the C code acquires for the endpoint with a number. -/
inductive Resource
  | handle (h : Handle)
  /-- The reference on an `SSL_CTX` that its constructor has. -/
  | ctx (e : ℕ)
  /-- An `SSL`, with its reference on the `SSL_CTX` of `c`. -/
  | ssl (e c : ℕ)
  | addrInfo (e : ℕ)
  /-- The socket of one of the addresses that were tried. -/
  | fd (e n : ℕ)
  | inBio (e : ℕ)
  | outBio (e : ℕ)
  | preKeylog (e : ℕ)
  /-- The memory of the lines in a `keylog_buf`. -/
  | lines (e : ℕ)
  | hostNul (e : ℕ)
  /-- What `alpn_wire` returns. -/
  | alpnList (e : ℕ)
  /-- Its copy with a NUL, the argument of `alpn_select_cb`. -/
  | alpnWire (e : ℕ)
  | rep (e : ℕ)
  deriving DecidableEq, Repr

/-- The configurations, with own handles in them. -/
abbrev ClientConfig := Tls.ClientConfig Handle Handle Handle
abbrev ServerConfig := Tls.ServerConfig Handle Handle Handle
abbrev Settings := Tls.Settings Handle Handle Handle

/-- The handles that go to the component with a configuration. -/
def clientHandles (cfg : ClientConfig) : List Handle :=
  cfg.trust.toList ++ cfg.clientCert.toList ++ cfg.clientKey.toList

def serverHandles (cfg : ServerConfig) : List Handle :=
  cfg.clientTrust.toList ++ cfg.certChain ++ [cfg.key]

/-- What comes of one address in `connect_tcp` or `bind_tcp`. -/
inductive Attempt
  | noSocket
  | fails
  | succeeds
  deriving DecidableEq, Repr

/-- How the calls of a constructor turn out. -/
structure Env where
  ctxNew : Bool
  /-- What `getaddrinfo` finds, and what comes of each. -/
  attempts : List Byte → BitVec 16 → Option (List Attempt)
  accept : Bool
  sslNew : Bool
  inBioNew : Bool
  outBioNew : Bool
  handshake : Settings → Bool
  /-- Lines are logged in the handshake. -/
  logs : Bool

/-- The same, as far as a configuration is concerned. -/
def Env.outcomes (env : Env) : Outcomes Handle Handle Handle where
  ctxNew := env.ctxNew
  tcp host port := ((env.attempts host port).getD []).any (· = .succeeds)
  sslNew := env.sslNew
  bioNew := env.inBioNew && env.outBioNew
  handshake := env.handshake

/-- Nothing fails. -/
def goodEnv : Env where
  ctxNew := true
  attempts _ _ := some [.succeeds]
  accept := true
  sslNew := true
  inBioNew := true
  outBioNew := true
  handshake _ := true
  logs := false

/-! ## Records -/

/-- The types of endpoints. -/
inductive RepKind
  | client
  | serverListener
  | server
  | memBioClient
  | memBioServer
  deriving DecidableEq, Repr

/-- An `SSL` with its context; it owns the BIOs once `SSL_set_bio` has them. -/
structure Ssl where
  ctx : ℕ
  bios : Bool
  deriving DecidableEq, Repr

/-- What `SSL_free` releases for the `SSL` of an endpoint. -/
def Ssl.owned (e : ℕ) (s : Ssl) : List Resource :=
  .ssl e s.ctx :: given s.bios (.inBio e) ++ given s.bios (.outBio e)

/-- The record of an endpoint. A type that lacks a field has it empty; `fd` is -1 if it is `none`. -/
structure Rep where
  kind : RepKind
  id : ℕ
  ctx : Bool := false
  ssl : Option Ssl := none
  fd : Option ℕ := none
  alpnWire : Bool := false
  keylogEnabled : Bool := false
  /-- There are lines in the `keylog_buf`. -/
  lines : Bool := false
  deriving DecidableEq, Repr

namespace Rep

variable (r : Rep)

/-- What its fields point to that `close` releases, in that order. -/
def fields : List Resource :=
  r.ssl.toList.flatMap (Ssl.owned r.id) ++ r.fd.toList.map (.fd r.id) ++ given r.ctx (.ctx r.id) ++
    given r.alpnWire (.alpnWire r.id)

/-- Everything that belongs to the record. -/
def owned : List Resource := r.fields ++ given r.lines (.lines r.id) ++ [.rep r.id]

end Rep

/-! The records that the constructors fill in. -/

def clientRep (e n : ℕ) (lines : Bool) : Rep where
  kind := .client
  id := e
  ctx := true
  ssl := some ⟨e, false⟩
  fd := some n
  lines := lines

def serverListenerRep (e n : ℕ) (wire keylogEnabled : Bool) : Rep where
  kind := .serverListener
  id := e
  ctx := true
  fd := some n
  alpnWire := wire
  keylogEnabled := keylogEnabled

def serverRep (e c : ℕ) (lines : Bool) : Rep where
  kind := .server
  id := e
  ssl := some ⟨c, false⟩
  fd := some 0
  lines := lines

def memBioClientRep (e : ℕ) : Rep where
  kind := .memBioClient
  id := e
  ctx := true
  ssl := some ⟨e, true⟩

def memBioServerRep (e : ℕ) (wire : Bool) : Rep where
  kind := .memBioServer
  id := e
  ctx := true
  ssl := some ⟨e, true⟩
  alpnWire := wire

/-! ## Ends -/

/-- The destructors: `SSL_free`, `close`, `SSL_CTX_free` and `free` on what is there, then
`keylog_buf_clear` and the record. -/
def destructor (r : Rep) : Acct Resource Unit := do
  releaseAll r.fields
  releaseAll (given r.lines (.lines r.id))
  release (.rep r.id)

/-- The `close` functions: the fields are cleared before `drop_own` has the destructor run. -/
def close (r : Rep) : Acct Resource Unit := do
  releaseAll r.fields
  destructor { r with ssl := none, fd := none, ctx := false, alpnWire := false }

/-! ## Constructors -/

section

variable (accepts : Settings → Setting Handle Handle Handle → Bool) (e : ℕ)

/-- The loop of `connect_tcp` and `bind_tcp`, at the address with a number. -/
def tryAll (n : ℕ) : List Attempt → Acct Resource (Option ℕ)
  | [] => pure none
  | .noSocket :: as => tryAll (n + 1) as
  | .fails :: as => do
    acquire (.fd e n)
    release (.fd e n)
    tryAll (n + 1) as
  | .succeeds :: _ => do
    acquire (.fd e n)
    pure (some n)

def connectTcp : Option (List Attempt) → Acct Resource (Option ℕ)
  | none => pure none
  | some as => do
    acquire (.addrInfo e)
    let fd ← tryAll e 0 as
    release (.addrInfo e)
    pure fd

def bindTcp := connectTcp e

/-- `alpn_wire`, which frees its buffer if a name is too long. -/
def alpnList (alpn : Option AlpnOffer) : Acct Resource (Option (List Byte)) :=
  if alpn.isNone then pure none
  else do
    acquire (.alpnList e)
    releaseAll (given (alpnWire alpn).isNone (.alpnList e))
    pure (alpnWire alpn)

/-- The offer of a client. -/
def clientAlpn (alpn : Option AlpnOffer) : Acct Resource Unit := do
  let wire ← alpnList e alpn
  releaseAll (given wire.isSome (.alpnList e))

/-- The list of a server is copied; whether there is one. -/
def serverAlpn (alpn : Option AlpnOffer) : Acct Resource Bool := do
  let wire ← alpnList e alpn
  acquireAll (given wire.isSome (.alpnWire e))
  releaseAll (given wire.isSome (.alpnList e))
  pure wire.isSome

/-- `client.connect`. -/
def connect (host : List Byte) (port : BitVec 16) (cfg : ClientConfig) (env : Env) :
    Acct Resource (Except TlsError (Rep × Settings)) :=
  if cfg.protocols.HasDtls then pure (.error .protocolVersion)
  else if env.ctxNew = false then pure (.error .badConfig)
  else do
    acquire (.ctx e)
    useAll ((clientHandles cfg).map .handle)
    let ctx := (libssl accepts).attemptAll (clientCalls cfg) {}
    clientAlpn e cfg.alpn
    acquire (.hostNul e)
    let fd ← connectTcp e (env.attempts (cString host) port)
    match fd with
    | none => do
      releaseAll [.ctx e, .hostNul e]
      pure (.error .ioClosed)
    | some n =>
      if env.sslNew = false then do
        releaseAll [.fd e n, .ctx e, .hostNul e]
        pure (.error .badConfig)
      else do
        acquire (.ssl e e)
        acquireAll (given cfg.keylog (.preKeylog e))
        let ssl := (libssl accepts).attemptAll (nameCalls (cfg.serverName.getD host)) ctx
        let lines := cfg.keylog && env.logs
        acquireAll (given lines (.lines e))
        if env.handshake ssl = false then do
          releaseAll (given lines (.lines e) ++ given cfg.keylog (.preKeylog e) ++
            Ssl.owned e ⟨e, false⟩ ++ [.fd e n, .ctx e, .hostNul e])
          pure (.error .handshakeFailed)
        else do
          releaseAll [.hostNul e]
          acquire (.rep e)
          -- the lines now belong to the record
          releaseAll (given cfg.keylog (.preKeylog e))
          pure (.ok (clientRep e n lines, ssl))

/-- `server-listener.bind`. -/
def bind (host : List Byte) (port : BitVec 16) (cfg : ServerConfig) (env : Env) :
    Acct Resource (Except TlsError (Rep × Settings)) :=
  if cfg.protocols.HasDtls then pure (.error .protocolVersion)
  else if env.ctxNew = false then pure (.error .badConfig)
  else do
    acquire (.ctx e)
    useAll ((serverHandles cfg).map .handle)
    let ctx := (libssl accepts).attemptAll (serverCalls cfg) {}
    acquire (.hostNul e)
    let fd ← bindTcp e (env.attempts (cString host) port)
    releaseAll [.hostNul e]
    match fd with
    | none => do
      releaseAll [.ctx e]
      pure (.error .ioClosed)
    | some n => do
      acquire (.rep e)
      let wire ← serverAlpn e cfg.alpn
      -- `SSL_CTX_set_alpn_select_cb`
      useAll (given wire (.alpnWire e))
      pure (.ok (serverListenerRep e n wire cfg.keylog,
        (libssl accepts).attemptAll (selectCalls cfg.alpn) ctx))

/-- `accept` on a listener, with the settings of its context. -/
def accept (lr : Rep) (ctx : Settings) (env : Env) :
    Acct Resource (Except TlsError (Rep × Settings)) :=
  if env.accept = false then pure (.error .ioClosed)
  else do
    acquire (.fd e 0)
    if env.sslNew = false then do
      releaseAll [.fd e 0]
      -- no code is set
      pure (.error (.internal 0))
    else do
      acquire (.ssl e lr.id)
      acquireAll (given lr.keylogEnabled (.preKeylog e))
      let lines := lr.keylogEnabled && env.logs
      acquireAll (given lines (.lines e))
      if env.handshake ctx = false then do
        releaseAll (given lines (.lines e) ++ given lr.keylogEnabled (.preKeylog e) ++
          Ssl.owned e ⟨lr.id, false⟩ ++ [.fd e 0])
        pure (.error .handshakeFailed)
      else do
        acquire (.rep e)
        releaseAll (given lr.keylogEnabled (.preKeylog e))
        pure (.ok (serverRep e lr.id lines, ctx))

/-- `mem-bio-client.new`. -/
def memBioClientNew (cfg : ClientConfig) (env : Env) :
    Acct Resource (Except TlsError (Rep × Settings)) :=
  if cfg.protocols.HasDtls then pure (.error .protocolVersion)
  else if env.ctxNew = false then pure (.error .badConfig)
  else do
    acquire (.ctx e)
    useAll ((clientHandles cfg).map .handle)
    let ctx := (libssl accepts).attemptAll (clientCalls cfg) {}
    clientAlpn e cfg.alpn
    if env.sslNew = false then do
      releaseAll [.ctx e]
      pure (.error .badConfig)
    else do
      acquire (.ssl e e)
      acquireAll (given cfg.keylog (.preKeylog e))
      let ssl := (libssl accepts).attemptAll (cfg.serverName.toList.flatMap nameCalls) ctx
      acquireAll (given env.inBioNew (.inBio e))
      acquireAll (given env.outBioNew (.outBio e))
      if (env.inBioNew && env.outBioNew) = false then do
        releaseAll (given env.inBioNew (.inBio e) ++ given env.outBioNew (.outBio e) ++
          given cfg.keylog (.preKeylog e) ++ Ssl.owned e ⟨e, false⟩ ++ [.ctx e])
        pure (.error .badConfig)
      else do
        -- `SSL_set_bio`: the BIOs now belong to the `SSL`
        acquire (.rep e)
        releaseAll (given cfg.keylog (.preKeylog e))
        pure (.ok (memBioClientRep e, ssl))

/-- `mem-bio-server.new`. -/
def memBioServerNew (cfg : ServerConfig) (env : Env) :
    Acct Resource (Except TlsError (Rep × Settings)) :=
  if cfg.protocols.HasDtls then pure (.error .protocolVersion)
  else if env.ctxNew = false then pure (.error .badConfig)
  else do
    acquire (.ctx e)
    useAll ((serverHandles cfg).map .handle)
    let ctx := (libssl accepts).attemptAll (serverCalls cfg) {}
    let wire ← serverAlpn e cfg.alpn
    if env.sslNew = false then do
      releaseAll (given wire (.alpnWire e) ++ [.ctx e])
      pure (.error .badConfig)
    else do
      acquire (.ssl e e)
      acquireAll (given cfg.keylog (.preKeylog e))
      acquireAll (given env.inBioNew (.inBio e))
      acquireAll (given env.outBioNew (.outBio e))
      if (env.inBioNew && env.outBioNew) = false then do
        releaseAll (given env.inBioNew (.inBio e) ++ given env.outBioNew (.outBio e) ++
          given cfg.keylog (.preKeylog e) ++ given wire (.alpnWire e) ++
          Ssl.owned e ⟨e, false⟩ ++ [.ctx e])
        pure (.error .badConfig)
      else do
        acquire (.rep e)
        releaseAll (given cfg.keylog (.preKeylog e))
        -- `SSL_CTX_set_alpn_select_cb`, now that the list is in the record
        useAll (given wire (.alpnWire e))
        pure (.ok (memBioServerRep e wire,
          (libssl accepts).attemptAll (selectCalls cfg.alpn) ctx))

end

/-! ## The constructors are those of the configurations -/

section

variable (accepts : Settings → Setting Handle Handle Handle → Bool) (e : ℕ)

theorem isSome_tryAll (n : ℕ) (as : List Attempt) :
    (tryAll e n as).result.isSome = as.any (· = .succeeds) := by
  induction as generalizing n with
  | nil => rfl
  | cons a as ih =>
    cases a with
    | noSocket => exact ih (n + 1)
    | fails => exact ih (n + 1)
    | succeeds => rfl

theorem isSome_connectTcp (as : Option (List Attempt)) :
    (connectTcp e as).result.isSome = (as.getD []).any (· = .succeeds) := by
  rcases as with _ | as
  · rfl
  · exact isSome_tryAll e 0 as

theorem connect_result (host : List Byte) (port : BitVec 16) (cfg : ClientConfig) (env : Env) :
    (connect accepts e host port cfg env).result.map Prod.snd =
      Tls.connect accepts host port cfg env.outcomes := by
  have htcp : env.outcomes.tcp (cString host) port =
      (connectTcp e (env.attempts (cString host) port)).result.isSome :=
    (isSome_connectTcp e _).symm
  unfold connect Tls.connect
  rw [htcp]
  simp only [Acct.result_ite, Acct.result_bind]
  cases (connectTcp e (env.attempts (cString host) port)).result with
  | none => split_ifs <;> first | rfl | contradiction
  | some n =>
    simp only [Acct.result_ite, Acct.result_bind]
    split_ifs <;> first | rfl | contradiction

theorem bind_result (host : List Byte) (port : BitVec 16) (cfg : ServerConfig) (env : Env) :
    (bind accepts e host port cfg env).result.map Prod.snd =
      Tls.bind accepts host port cfg env.outcomes := by
  have htcp : env.outcomes.tcp (cString host) port =
      (bindTcp e (env.attempts (cString host) port)).result.isSome :=
    (isSome_connectTcp e _).symm
  unfold bind Tls.bind
  rw [htcp]
  simp only [Acct.result_ite, Acct.result_bind]
  cases (bindTcp e (env.attempts (cString host) port)).result with
  | none => split_ifs <;> first | rfl | contradiction
  | some n => split_ifs <;> first | rfl | contradiction

/-- A connection that is accepted has a record of its own, and the settings of the context. -/
theorem accept_eq_ok {lr : Rep} {ctx : Settings} {env : Env} {r : Rep × Settings}
    (h : (accept e lr ctx env).result = .ok r) :
    ∃ lines, r = (serverRep e lr.id lines, ctx) := by
  unfold accept at h
  simp only [Acct.result_ite, Acct.result_bind] at h
  split_ifs at h
  cases h
  exact ⟨_, rfl⟩

theorem accept_result {lr : Rep} {ctx : Settings} {env : Env} {r : Rep × Settings}
    (h : (accept e lr ctx env).result = .ok r) : r.2 = ctx := by
  obtain ⟨lines, rfl⟩ := accept_eq_ok e h
  rfl

theorem memBioClientNew_result (cfg : ClientConfig) (env : Env) :
    (memBioClientNew accepts e cfg env).result.map Prod.snd =
      Tls.memBioClientNew accepts cfg env.outcomes := by
  unfold memBioClientNew Tls.memBioClientNew
  simp only [Acct.result_ite, Acct.result_bind]
  split_ifs <;> first | rfl | contradiction

theorem memBioServerNew_result (cfg : ServerConfig) (env : Env) :
    (memBioServerNew accepts e cfg env).result.map Prod.snd =
      Tls.memBioServerNew accepts cfg env.outcomes := by
  unfold memBioServerNew Tls.memBioServerNew
  simp only [Acct.result_ite, Acct.result_bind]
  split_ifs <;> first | rfl | contradiction

end

/-! ## What the helpers are about -/

section

variable {e : ℕ} {P : Resource → Prop} {x : Entry Resource}

theorem within_tryAll (h : ∀ n, P (.fd e n)) (n : ℕ) (as : List Attempt) :
    (tryAll e n as).Within P := by
  induction as generalizing n with
  | nil => exact Acct.within_pure _
  | cons a as ih =>
    cases a with
    | noSocket => exact ih (n + 1)
    | fails => simpa [tryAll, h] using ih (n + 1)
    | succeeds => simp [tryAll, h]

theorem within_connectTcp (h : ∀ n, P (.fd e n)) (haddr : P (.addrInfo e))
    (as : Option (List Attempt)) : (connectTcp e as).Within P := by
  rcases as with _ | as
  · exact Acct.within_pure _
  · simp [connectTcp, haddr, within_tryAll h]

theorem within_alpnList (h : P (.alpnList e)) (alpn : Option AlpnOffer) :
    (alpnList e alpn).Within P := by
  simp [alpnList, h, forall_mem_given]

theorem not_mem_connectTcp (h : ∀ n, x.resource ≠ .fd e n) (haddr : x.resource ≠ .addrInfo e)
    (as : Option (List Attempt)) : x ∉ (connectTcp e as).entries := fun hx =>
  within_connectTcp (P := (x.resource ≠ ·)) h haddr as x hx rfl

theorem not_mem_alpnList (h : x.resource ≠ .alpnList e) (alpn : Option AlpnOffer) :
    x ∉ (alpnList e alpn).entries := fun hx =>
  within_alpnList (P := (x.resource ≠ ·)) h alpn x hx rfl

end

/-! ## What the constructors fill in -/

section

variable {accepts : Settings → Setting Handle Handle Handle → Bool} {e : ℕ} {env : Env}
  {r : Rep × Settings}

theorem rep_connect {host : List Byte} {port : BitVec 16} {cfg : ClientConfig}
    (h : (connect accepts e host port cfg env).result = .ok r) :
    ∃ n lines, r.1 = clientRep e n lines := by
  unfold connect at h
  simp only [Acct.result_ite, Acct.result_bind] at h
  cases hfd : (connectTcp e (env.attempts (cString host) port)).result with
  | none =>
    rw [hfd] at h
    split_ifs at h
  | some n =>
    simp only [hfd, Acct.result_ite, Acct.result_bind] at h
    split_ifs at h
    cases h
    exact ⟨n, _, rfl⟩

theorem rep_bind {host : List Byte} {port : BitVec 16} {cfg : ServerConfig}
    (h : (bind accepts e host port cfg env).result = .ok r) :
    ∃ n, r.1 = serverListenerRep e n (serverAlpn e cfg.alpn).result cfg.keylog := by
  unfold bind at h
  simp only [Acct.result_ite, Acct.result_bind] at h
  cases hfd : (bindTcp e (env.attempts (cString host) port)).result with
  | none =>
    rw [hfd] at h
    split_ifs at h
  | some n =>
    simp only [hfd] at h
    split_ifs at h
    cases h
    exact ⟨n, rfl⟩

theorem rep_accept {lr : Rep} {ctx : Settings} (h : (accept e lr ctx env).result = .ok r) :
    ∃ lines, r.1 = serverRep e lr.id lines := by
  obtain ⟨lines, rfl⟩ := accept_eq_ok e h
  exact ⟨lines, rfl⟩

theorem rep_memBioClientNew {cfg : ClientConfig}
    (h : (memBioClientNew accepts e cfg env).result = .ok r) : r.1 = memBioClientRep e := by
  unfold memBioClientNew at h
  simp only [Acct.result_ite, Acct.result_bind] at h
  split_ifs at h
  cases h
  rfl

theorem rep_memBioServerNew {cfg : ServerConfig}
    (h : (memBioServerNew accepts e cfg env).result = .ok r) :
    r.1 = memBioServerRep e (serverAlpn e cfg.alpn).result := by
  unfold memBioServerNew at h
  simp only [Acct.result_ite, Acct.result_bind] at h
  split_ifs at h
  cases h
  rfl

end

/-! ## Ends release everything -/

theorem entries_destructor (r : Rep) : (destructor r).entries = r.owned.map .release := by
  simp [destructor, Rep.owned]

theorem entries_close (r : Rep) : (close r).entries = r.owned.map .release := by
  simp [close, entries_destructor, Rep.owned, Rep.fields]

theorem triple_destructor (r : Rep) (m : Multiset Resource) :
    Triple ((r.owned : Multiset Resource) + m) (destructor r) fun _ => m := by
  rw [Triple, entries_destructor]
  exact Triple.releaseAll

theorem triple_close (r : Rep) (m : Multiset Resource) :
    Triple ((r.owned : Multiset Resource) + m) (close r) fun _ => m := by
  rw [Triple, entries_close]
  exact Triple.releaseAll

/-! ## What belongs to each record -/

section

variable (e c n : ℕ) (b b' : Bool)

theorem coe_owned_ssl : (Ssl.owned e ⟨c, b⟩ : Multiset Resource) =
    {.ssl e c} + (↑(given b (Resource.inBio e)) + ↑(given b (Resource.outBio e))) := by
  simp only [Ssl.owned, coe_append, coe_cons, add_assoc]

/-- What belongs to a record, field by field. -/
theorem coe_owned (r : Rep) : (r.owned : Multiset Resource) =
    ↑(r.ssl.toList.flatMap (Ssl.owned r.id)) + (↑(r.fd.toList.map (Resource.fd r.id)) +
      (↑(given r.ctx (Resource.ctx r.id)) + (↑(given r.alpnWire (Resource.alpnWire r.id)) +
        (↑(given r.lines (Resource.lines r.id)) + {.rep r.id})))) := by
  simp only [Rep.owned, Rep.fields, coe_append, add_assoc, Multiset.coe_singleton]

/-- The lines of a record belong to it. -/
theorem coe_owned_lines (r : Rep) : (({ r with lines := true } : Rep).owned : Multiset Resource) =
    {.lines r.id} + (({ r with lines := false } : Rep).owned : Multiset Resource) := by
  simp only [coe_owned, given_true, given_false, Multiset.coe_singleton, Multiset.coe_nil]
  abel

theorem coe_owned_clientRep : ((clientRep e n b).owned : Multiset Resource) =
    {.ssl e e} + ({.fd e n} + ({.ctx e} + (↑(given b (Resource.lines e)) + {.rep e}))) := by
  rw [coe_owned]
  simp only [clientRep, Option.toList_some, List.flatMap_singleton, List.map_singleton,
    coe_owned_ssl, given_true, given_false, Multiset.coe_nil, Multiset.coe_singleton, zero_add,
    add_zero]

theorem coe_owned_serverListenerRep :
    ((serverListenerRep e n b b').owned : Multiset Resource) =
      {.fd e n} + ({.ctx e} + (↑(given b (Resource.alpnWire e)) + {.rep e})) := by
  rw [coe_owned]
  simp only [serverListenerRep, Option.toList_some, Option.toList_none, List.flatMap_nil,
    List.map_singleton, given_true, given_false, Multiset.coe_nil, Multiset.coe_singleton, zero_add]

theorem coe_owned_serverRep : ((serverRep e c b).owned : Multiset Resource) =
    {.ssl e c} + ({.fd e 0} + (↑(given b (Resource.lines e)) + {.rep e})) := by
  rw [coe_owned]
  simp only [serverRep, Option.toList_some, List.flatMap_singleton, List.map_singleton,
    coe_owned_ssl, given_false, Multiset.coe_nil, Multiset.coe_singleton, zero_add, add_zero]

theorem coe_owned_memBioClientRep : ((memBioClientRep e).owned : Multiset Resource) =
    {.ssl e e} + ({.inBio e} + {.outBio e}) + ({.ctx e} + {.rep e}) := by
  rw [coe_owned]
  simp only [memBioClientRep, Option.toList_some, Option.toList_none, List.flatMap_singleton,
    List.map_nil, coe_owned_ssl, given_true, given_false, Multiset.coe_nil,
    Multiset.coe_singleton, zero_add]

theorem coe_owned_memBioServerRep : ((memBioServerRep e b).owned : Multiset Resource) =
    {.ssl e e} + ({.inBio e} + {.outBio e}) +
      ({.ctx e} + (↑(given b (Resource.alpnWire e)) + {.rep e})) := by
  rw [coe_owned]
  simp only [memBioServerRep, Option.toList_some, Option.toList_none, List.flatMap_singleton,
    List.map_nil, coe_owned_ssl, given_true, given_false, Multiset.coe_nil,
    Multiset.coe_singleton, zero_add]

end

/-! ## Constructors hold what belongs to the record -/

/-- What is held after a constructor, beside what was held before. -/
def outcome (H : Multiset Resource) : Except TlsError (Rep × Settings) → Multiset Resource
  | .error _ => H
  | .ok (r, _) => ↑r.owned + H

section

variable {accepts : Settings → Setting Handle Handle Handle → Bool} {e : ℕ}
  {m H : Multiset Resource}

/-- The socket that was got, if any. -/
def gotFd (e : ℕ) (fd : Option ℕ) : Multiset Resource := (fd.toList.map (Resource.fd e) : List _)

theorem gotFd_none : gotFd e none = 0 := rfl

theorem gotFd_some (n : ℕ) : gotFd e (some n) = {.fd e n} := rfl

theorem triple_tryAll (n : ℕ) (as : List Attempt) :
    Triple m (tryAll e n as) fun fd => gotFd e fd + m := by
  induction as generalizing n with
  | nil => exact Triple.pure (zero_add m).symm
  | cons a as ih =>
    cases a with
    | noSocket => exact ih (n + 1)
    | fails =>
      refine Triple.acquire_then ?_
      exact Triple.release_then m rfl (ih (n + 1))
    | succeeds => exact Triple.acquire_then (Triple.pure rfl)

theorem triple_connectTcp (as : Option (List Attempt)) :
    Triple m (connectTcp e as) fun fd => gotFd e fd + m := by
  cases as with
  | none => exact Triple.pure (zero_add m).symm
  | some as =>
    refine Triple.acquire_then (Triple.bind (triple_tryAll 0 as) ?_)
    exact Triple.release_then _ (add_left_comm _ _ _) (Triple.pure rfl)

theorem triple_bindTcp (as : Option (List Attempt)) :
    Triple m (bindTcp e as) fun fd => gotFd e fd + m :=
  triple_connectTcp as

theorem triple_alpnList (alpn : Option AlpnOffer) :
    Triple m (alpnList e alpn) fun wire => ↑(given wire.isSome (Resource.alpnList e)) + m := by
  rw [alpnList]
  refine Triple.ite (fun halpn => ?_) fun halpn => Triple.acquire_then (Triple.exit ?_)
  · exact Triple.pure (zero_add m).symm
  · -- the buffer is freed exactly if it is not returned
    cases alpnWire alpn with
    | none => exact congrArg _ (zero_add m).symm
    | some wire => exact (zero_add _).symm

theorem triple_clientAlpn (alpn : Option AlpnOffer) :
    Triple m (clientAlpn e alpn) fun _ => m :=
  Triple.bind (triple_alpnList alpn) Triple.releaseAll

theorem triple_serverAlpn (alpn : Option AlpnOffer) :
    Triple m (serverAlpn e alpn) fun wire => ↑(given wire (Resource.alpnWire e)) + m := by
  refine Triple.bind (triple_alpnList alpn) (Triple.acquireAll_then (Triple.exit ?_))
  abel

theorem mem_of_handles {hs : List Handle} (hH : ∀ h ∈ hs, Resource.handle h ∈ H)
    {m : Multiset Resource} : ∀ r ∈ hs.map Resource.handle, r ∈ m + H := by
  intro r hr
  obtain ⟨h, hh, rfl⟩ := List.mem_map.mp hr
  exact Multiset.mem_add.mpr (Or.inr (hH h hh))

theorem triple_connect (host : List Byte) (port : BitVec 16) (cfg : ClientConfig) (env : Env)
    (hH : ∀ h ∈ clientHandles cfg, .handle h ∈ H) :
    Triple H (connect accepts e host port cfg env) (outcome H) := by
  rw [connect]
  refine Triple.ite (fun _ => Triple.pure rfl) fun _ => ?_
  refine Triple.ite (fun _ => Triple.pure rfl) fun _ => ?_
  refine Triple.acquire_then (Triple.useAll_then (mem_of_handles hH) ?_)
  refine Triple.bind (triple_clientAlpn _) (Triple.acquire_then ?_)
  refine Triple.bind (triple_connectTcp _) ?_
  generalize (connectTcp e _).result = fd
  cases fd with
  | none =>
    refine Triple.exit ?_
    simp only [outcome, gotFd_none, coe_cons, Multiset.coe_nil]
    abel
  | some n =>
    simp only [gotFd_some]
    refine Triple.ite (fun _ => Triple.exit ?_) fun _ => ?_
    · simp only [outcome, coe_cons, Multiset.coe_nil]
      abel
    refine Triple.acquire_then (Triple.acquireAll_then (Triple.acquireAll_then ?_))
    refine Triple.ite (fun _ => Triple.exit ?_) fun _ => ?_
    · simp only [outcome, coe_append, coe_owned_ssl, given_false, coe_cons, Multiset.coe_nil]
      abel
    refine Triple.releaseAll_then (↑(given (cfg.keylog && env.logs) (Resource.lines e)) +
      (↑(given cfg.keylog (Resource.preKeylog e)) +
        ({.ssl e e} + ({.fd e n} + ({.ctx e} + H))))) ?_ ?_
    · simp only [coe_cons, Multiset.coe_nil]
      abel
    refine Triple.acquire_then (Triple.exit ?_)
    simp only [outcome, coe_owned_clientRep]
    abel

theorem triple_bind (host : List Byte) (port : BitVec 16) (cfg : ServerConfig) (env : Env)
    (hH : ∀ h ∈ serverHandles cfg, .handle h ∈ H) :
    Triple H (bind accepts e host port cfg env) (outcome H) := by
  rw [bind]
  refine Triple.ite (fun _ => Triple.pure rfl) fun _ => ?_
  refine Triple.ite (fun _ => Triple.pure rfl) fun _ => ?_
  refine Triple.acquire_then (Triple.useAll_then (mem_of_handles hH) (Triple.acquire_then ?_))
  refine Triple.bind (triple_bindTcp _) ?_
  generalize (bindTcp e _).result = fd
  refine Triple.releaseAll_then (gotFd e fd + ({.ctx e} + H)) ?_ ?_
  · simp only [coe_cons, Multiset.coe_nil]
    abel
  cases fd with
  | none =>
    refine Triple.exit ?_
    simp only [outcome, gotFd_none, coe_cons, Multiset.coe_nil]
    abel
  | some n =>
    refine Triple.acquire_then (Triple.bind (triple_serverAlpn _) (Triple.useAll_then ?_ ?_))
    · exact fun r hr => Multiset.mem_add.mpr (Or.inl hr)
    · refine Triple.pure ?_
      simp only [outcome, coe_owned_serverListenerRep, gotFd_some]
      abel

theorem triple_accept (lr : Rep) (ctx : Settings) (env : Env) :
    Triple H (accept e lr ctx env) (outcome H) := by
  rw [accept]
  refine Triple.ite (fun _ => Triple.pure rfl) fun _ => Triple.acquire_then ?_
  refine Triple.ite (fun _ => Triple.exit rfl) fun _ => ?_
  refine Triple.acquire_then (Triple.acquireAll_then (Triple.acquireAll_then ?_))
  refine Triple.ite (fun _ => Triple.exit ?_) fun _ => Triple.acquire_then (Triple.exit ?_)
  · simp only [outcome, coe_append, coe_owned_ssl, given_false, coe_cons, Multiset.coe_nil]
    abel
  · simp only [outcome, coe_owned_serverRep]
    abel

theorem triple_memBioClientNew (cfg : ClientConfig) (env : Env)
    (hH : ∀ h ∈ clientHandles cfg, .handle h ∈ H) :
    Triple H (memBioClientNew accepts e cfg env) (outcome H) := by
  rw [memBioClientNew]
  refine Triple.ite (fun _ => Triple.pure rfl) fun _ => ?_
  refine Triple.ite (fun _ => Triple.pure rfl) fun _ => ?_
  refine Triple.acquire_then (Triple.useAll_then (mem_of_handles hH) ?_)
  refine Triple.bind (triple_clientAlpn _) ?_
  refine Triple.ite (fun _ => Triple.exit rfl) fun _ => ?_
  refine Triple.acquire_then (Triple.acquireAll_then ?_)
  refine Triple.acquireAll_then (Triple.acquireAll_then ?_)
  refine Triple.ite (fun _ => Triple.exit ?_) fun hbio => ?_
  · simp only [outcome, coe_append, coe_owned_ssl, given_false, coe_cons, Multiset.coe_nil]
    abel
  · -- both BIOs are there
    obtain ⟨hin, hout⟩ := Bool.and_eq_true_iff.mp (Bool.eq_true_of_not_eq_false hbio)
    refine Triple.acquire_then (Triple.exit ?_)
    simp only [outcome, coe_owned_memBioClientRep, hin, hout, given_true, Multiset.coe_singleton]
    abel

theorem triple_memBioServerNew (cfg : ServerConfig) (env : Env)
    (hH : ∀ h ∈ serverHandles cfg, .handle h ∈ H) :
    Triple H (memBioServerNew accepts e cfg env) (outcome H) := by
  rw [memBioServerNew]
  refine Triple.ite (fun _ => Triple.pure rfl) fun _ => ?_
  refine Triple.ite (fun _ => Triple.pure rfl) fun _ => ?_
  refine Triple.acquire_then (Triple.useAll_then (mem_of_handles hH) ?_)
  refine Triple.bind (triple_serverAlpn _) ?_
  generalize (serverAlpn e cfg.alpn).result = wire
  refine Triple.ite (fun _ => Triple.exit ?_) fun _ => ?_
  · simp only [outcome, coe_append, Multiset.coe_singleton, add_assoc]
  refine Triple.acquire_then (Triple.acquireAll_then ?_)
  refine Triple.acquireAll_then (Triple.acquireAll_then ?_)
  refine Triple.ite (fun _ => Triple.exit ?_) fun hbio => ?_
  · simp only [outcome, coe_append, coe_owned_ssl, given_false, coe_cons, Multiset.coe_nil]
    abel
  · obtain ⟨hin, hout⟩ := Bool.and_eq_true_iff.mp (Bool.eq_true_of_not_eq_false hbio)
    refine Triple.acquire_then (Triple.releaseAll_then (outcome H (.ok (memBioServerRep e wire,
      (libssl accepts).attemptAll (selectCalls cfg.alpn)
        ((libssl accepts).attemptAll (serverCalls cfg) {})))) ?_ ?_)
    · simp only [outcome, coe_owned_memBioServerRep, hin, hout, given_true,
        Multiset.coe_singleton]
      abel
    · refine Triple.useAll_then (fun r hr => ?_) (Triple.pure rfl)
      have hmem : r ∈ (memBioServerRep e wire).owned := by
        simp only [Rep.owned, Rep.fields, memBioServerRep, List.mem_append]
        exact Or.inl (Or.inl (Or.inr hr))
      exact Multiset.mem_add.mpr (Or.inl hmem)

end

end OpenSSLWasm.Tls.Lifetime
