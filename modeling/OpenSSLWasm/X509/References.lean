import OpenSSLWasm.Lib.Ledger
import OpenSSLWasm.X509.Pkcs12

/-!
# References on certificates

A `certificate` resource of `src/x509.c` is an `X509` with one reference. Stores have references of
their own: on the certificates that they trust, and on the untrusted ones that the component
stashes in their ex-data. Lists of certificates are passed around with references or without.

## Main definitions

* `Cert` and `Store`: an `X509` object, and what a store has;
* `addTrusted`, `addUntrusted`, `verifyChain`, `pkcs12Parse` and the other functions, with the
  references that they take and give back;
* `Call` and `step`: certificates and stores over the life of the component;
* `State.Counted`: OpenSSL counts the resources and the memberships of each object.

## Main results

* `verifyChain_result`, `pkcs12Parse_result`: the functions return what those without references do;
* `triple_addUntrusted` and its companions: what a function holds in the end;
* `refs_step`: what one call does to the references;
* `counted_iff`: in which runs the counts are right.
-/

namespace OpenSSLWasm.X509.References

open Ledger Transcript

/-! ## Certificates and stores -/

/-- An `X509`: the number of its allocation, and its DER encoding. -/
structure Cert where
  id : ℕ
  der : List Byte
  deriving DecidableEq, Repr

/-- An `X509_STORE`. -/
structure Store where
  trusted : List Cert := []
  /-- The stack in the ex-data of the store, which is NULL at first. -/
  untrusted : Option (List Cert) := none
  deriving DecidableEq, Repr

/-- The certificates in a store, with repetitions. -/
def Store.members (s : Store) : List Cert := s.trusted ++ s.untrusted.getD []

/-! ## Functions of the interface -/

/-- `certificate.parse`, given what the decoder makes of the bytes. -/
def parse (bioNew : Bool) (read : Option Cert) : Acct Cert (Except X509Error (List Cert)) :=
  if bioNew = false then pure (.error (.internal 0))
  else match read with
    | none => pure (.error .parseFailed)
    | some c => do
      acquire c
      pure (.ok [c])

/-- `certificate.parse-chain`, given what is read until there is no further certificate. -/
def parseChain (bioNew : Bool) (read : List Cert) : Acct Cert (Except X509Error (List Cert)) :=
  if bioNew = false then pure (.error (.internal 0))
  else do
    acquireAll read
    if read = [] then pure (.error .parseFailed) else pure (.ok read)

/-- `certificate.clone`. -/
def clone (c : Cert) : Acct Cert (Except X509Error (List Cert)) := do
  retain c
  pure (.ok [c])

def certificateDestructor (c : Cert) : Acct Cert Unit := release c

/-- How the allocations of `X509_STORE_add_cert` turn out. -/
structure AddEnv where
  objectNew : Bool
  push : Bool
  peekLastError : BitVec 32

/-- `X509_STORE_add_cert`: a certificate that the store has already, as this object or as another
one, counts as added. -/
def storeAddCert (env : AddEnv) (s : Store) (c : Cert) : Acct Cert (Bool × Store) :=
  if env.objectNew = false then pure (false, s)
  else do
    retain c
    if s.trusted.any (·.der = c.der) then do
      release c
      pure (true, s)
    else if env.push = false then do
      release c
      pure (false, s)
    else pure (true, { s with trusted := c :: s.trusted })

/-- `store.add-trusted`. -/
def addTrusted (env : AddEnv) (s : Store) (c : Cert) :
    Acct Cert (Except X509Error (List Cert) × Store) := do
  let (added, s) ← storeAddCert env s c
  pure (if added then .ok [] else .error (.internal env.peekLastError), s)

/-- How the calls that are about the stash turn out. -/
structure StashEnv where
  skNew : Bool
  setExData : Bool
  push : Bool
  deriving DecidableEq, Repr

/-- What `store_get_untrusted` returns. -/
inductive Stash
  | null
  /-- The stack in the ex-data. -/
  | stored (certs : List Cert)
  /-- A new stack that could not be put there. -/
  | stray
  deriving DecidableEq, Repr

def Stash.certs : Stash → List Cert
  | stored certs => certs
  | null | stray => []

/-- `store_get_untrusted`, which ignores what `X509_STORE_set_ex_data` returns. -/
def storeGetUntrusted (env : StashEnv) (s : Store) : Stash × Store :=
  match s.untrusted with
  | some certs => (.stored certs, s)
  | none =>
    if env.skNew = false then (.null, s)
    else if env.setExData = false then (.stray, s)
    else (.stored [], { s with untrusted := some [] })

/-- `store.add-untrusted`, which ignores what `sk_X509_push` returns. -/
def addUntrusted (env : StashEnv) (s : Store) (c : Cert) :
    Acct Cert (Except X509Error (List Cert) × Store) :=
  let (stk, s) := storeGetUntrusted env s
  match stk with
  | .null => pure (.error (.internal 0), s)
  | .stray => do
    retain c
    -- wherever it is pushed, the stack is lost
    pure (.ok [], s)
  | .stored certs => do
    retain c
    pure (.ok [], if env.push then { s with untrusted := some (certs ++ [c]) } else s)

/-- The destructor of stores: `sk_X509_pop_free` on the stash, then `X509_STORE_free`. -/
def storeDestructor (s : Store) : Acct Cert Unit := do
  releaseAll (s.untrusted.getD [])
  releaseAll s.trusted

/-- How the calls of `verify_chain` turn out. -/
structure VerifyEnv where
  stash : StashEnv
  ctxInit : Bool
  /-- What `X509_verify_cert` finds wrong. -/
  error : Option VerifyError
  /-- The chain that it leaves, complete or not. -/
  chain : List Cert
  get1Chain : Bool
  peekLastError : BitVec 32

/-- The certificates that a chain is made of. -/
def candidates (s : Store) (leaf : Cert) (untrusted : List Cert) : List Cert :=
  leaf :: untrusted ++ s.trusted

def verifyChain (env : VerifyEnv) (s : Store) (leaf : Cert) (extra : List Cert) :
    Acct Cert (Except X509Error (List Cert) × Store) :=
  let (stash, s) := storeGetUntrusted env.stash s
  -- the stack that is built for the context has pointers without references
  let untrusted := stash.certs ++ extra
  if env.ctxInit = false then pure (.error (.internal env.peekLastError), s)
  else do
    useAll (candidates s leaf untrusted)
    -- the chain of the context has references
    let chain := env.chain.filter (· ∈ candidates s leaf untrusted)
    acquireAll chain
    match env.error with
    | some e => do
      -- `X509_STORE_CTX_free`
      releaseAll chain
      pure (.error (verifyError e), s)
    | none => do
      -- `X509_STORE_CTX_get1_chain` returns NULL if it cannot copy the chain
      let copy := if env.get1Chain then chain else []
      acquireAll copy
      retainAll copy
      releaseAll copy
      releaseAll chain
      pure (.ok copy, s)

/-- `pkcs12-parse`, given what `PKCS12_parse` finds; keys are numbered. -/
def pkcs12Parse (bioNew d2i : Bool) (parsed : Option (Pkcs12Contents ℕ Cert)) :
    Acct Cert (Except X509Error (Pkcs12Contents ℕ Cert)) :=
  if bioNew = false then pure (.error (.internal 0))
  else if d2i = false then pure (.error .parseFailed)
  else match parsed with
    | none => pure (.error .parseFailed)
    | some contents => do
      acquireAll (contents.cert.toList ++ contents.extraCerts)
      -- the handle of the certificate has the reference that came with it, the others get a new one
      retainAll contents.extraCerts
      releaseAll contents.extraCerts
      pure (.ok contents)

/-- The certificates that are returned with `pkcs12-contents`. -/
def certificates (contents : Pkcs12Contents ℕ Cert) : List Cert :=
  contents.cert.toList ++ contents.extraCerts

/-! The functions return what they return without references. -/

theorem verifyChain_result {κ : Type} {V : X509Lib κ Cert} {store : κ} {opts : VerifyOptions}
    {env : VerifyEnv} {s : Store} {leaf : Cert} {extra untrusted : List Cert}
    (huntrusted : untrusted = (storeGetUntrusted env.stash s).1.certs ++ extra)
    (hstash : V.storeGetUntrusted store ++ extra = untrusted)
    (hinit : V.ctxInit store leaf untrusted = env.ctxInit)
    (hverify : V.verifyCert store leaf untrusted (verifyParam V.identity opts) =
      env.error.elim (.ok env.chain) .error)
    (hchain : ∀ c ∈ env.chain,
      c ∈ candidates (storeGetUntrusted env.stash s).2 leaf untrusted)
    (hcopy : env.get1Chain = true) (hlast : env.peekLastError = V.peekLastError) :
    (verifyChain env s leaf extra).result.1 = X509.verifyChain V store leaf extra opts := by
  have hfilter : env.chain.filter (· ∈ candidates (storeGetUntrusted env.stash s).2 leaf untrusted) =
      env.chain := List.filter_eq_self.mpr fun c hc => decide_eq_true (hchain c hc)
  dsimp only [verifyChain, X509.verifyChain]
  rw [hstash, hinit, hverify, ← huntrusted]
  rcases hctx : env.ctxInit with _ | _
  · rw [if_pos rfl, if_neg Bool.false_ne_true, hlast]
    rfl
  · rw [if_neg (by decide), if_pos rfl]
    simp only [Acct.result_bind, hfilter]
    cases env.error with
    | some e => rfl
    | none =>
      rw [if_pos hcopy]
      rfl

theorem pkcs12Parse_result {P : Type} (L : Pkcs12Lib P ℕ Cert) (bioNew : Bool)
    (bytes passphrase : ListU8) :
    (pkcs12Parse bioNew (L.d2i (memBuf bytes)).isSome ((L.d2i (memBuf bytes)).bind fun p12 =>
      L.parse p12 (cString (passphrase.bytes ++ [0])))).result =
      X509.pkcs12Parse L bioNew bytes passphrase := by
  unfold pkcs12Parse X509.pkcs12Parse
  by_cases hbio : bioNew = false
  · rw [if_pos hbio, if_pos hbio]
    rfl
  rw [if_neg hbio, if_neg hbio]
  cases L.d2i (memBuf bytes) with
  | none => rfl
  | some p12 =>
    rw [Option.isSome_some, if_neg (by decide), Option.bind_some]
    cases hparse : L.parse p12 (cString (passphrase.bytes ++ [0])) with
    | none =>
      change _ = (do orError (L.parse p12 _) _)
      rw [hparse]
      rfl
    | some contents =>
      change _ = (do orError (L.parse p12 _) _)
      rw [hparse]
      rfl

/-! ## What a function holds in the end -/

/-- The certificates that a call returns. -/
def returned : Except X509Error (List Cert) → List Cert
  | .ok cs => cs
  | .error _ => []

/-- After a call on a store: what it returns, what the store has, and everything else. -/
def outcome (m : Multiset Cert) (r : Except X509Error (List Cert) × Store) : Multiset Cert :=
  ↑(returned r.1) + (↑r.2.members + m)

section Triples

variable {m : Multiset Cert} {s : Store} {c : Cert}

/-- Nothing is returned, and the store has what it had. -/
theorem outcome_of_members {r : Except X509Error (List Cert)} {s' : Store} (hr : returned r = [])
    (hs' : s'.members = s.members) : outcome m (r, s') = ↑s.members + m := by
  rw [outcome, hr, hs']
  exact zero_add _

theorem triple_parse (bioNew : Bool) (read : Option Cert) :
    Triple m (parse bioNew read) fun r => (returned r : Multiset Cert) + m := by
  refine .ite (fun _ => .pure (zero_add m).symm) fun _ => ?_
  cases read with
  | none => exact .pure (zero_add m).symm
  | some c => exact .acquire_then (.pure rfl)

theorem triple_parseChain (bioNew : Bool) (read : List Cert) :
    Triple m (parseChain bioNew read) fun r => (returned r : Multiset Cert) + m := by
  refine .ite (fun _ => .pure (zero_add m).symm) fun _ => .acquireAll_then ?_
  refine .ite (fun hnil => .pure ?_) fun _ => .pure rfl
  -- nothing was read, so there is nothing to give back
  rw [hnil]
  rfl

theorem triple_clone (hc : c ∈ m) :
    Triple m (clone c) fun r => (returned r : Multiset Cert) + m :=
  .retain_then hc (.pure rfl)

/-- Without memory for it a certificate is not added, and a duplicate needs no reference. -/
theorem triple_storeAddCert (env : AddEnv) (hc : c ∈ (s.members : Multiset Cert) + m) :
    Triple ((s.members : Multiset Cert) + m) (storeAddCert env s c) fun r => (r.2.members : Multiset Cert) + m := by
  refine .ite (fun _ => .pure rfl) fun _ => .retain_then hc ?_
  refine .ite (fun _ => ?_) fun _ => .ite (fun _ => ?_) fun _ => .pure ?_
  · exact .release_then _ rfl (.pure rfl)
  · exact .release_then _ rfl (.pure rfl)
  · rw [Store.members, Store.members, List.cons_append, coe_cons, add_assoc]

theorem triple_addTrusted (env : AddEnv) (hc : c ∈ (s.members : Multiset Cert) + m) :
    Triple ((s.members : Multiset Cert) + m) (addTrusted env s c) (outcome m) := by
  refine .bind (triple_storeAddCert env hc) (.pure (outcome_of_members ?_ rfl).symm)
  split <;> rfl

variable {env : StashEnv}

theorem members_storeGetUntrusted : (storeGetUntrusted env s).2.members = s.members := by
  unfold storeGetUntrusted
  split
  next => rfl
  next h => split_ifs <;> simp [Store.members, h]

theorem certs_storeGetUntrusted : (storeGetUntrusted env s).1.certs = s.untrusted.getD [] := by
  unfold storeGetUntrusted
  split
  next h => rw [h, Stash.certs, Option.getD_some]
  next h => split_ifs <;> rw [h] <;> rfl

/-- A stash that was found is that of the store. -/
theorem untrusted_of_stored {certs : List Cert}
    (h : (storeGetUntrusted env s).1 = .stored certs) :
    (storeGetUntrusted env s).2.untrusted = some certs := by
  unfold storeGetUntrusted at h ⊢
  split at h
  next hs =>
    obtain rfl := Stash.stored.inj h
    exact hs
  next =>
    split_ifs at h ⊢
    obtain rfl := Stash.stored.inj h
    rfl

/-- A certificate for which `add-untrusted` takes a reference comes into the store: it can be pushed
to the stash, and a new stash can be put into the ex-data. If there is none, no reference is taken. -/
def StashEnv.keeps (env : StashEnv) (s : Store) : Bool :=
  match s.untrusted with
  | some _ => env.push
  | none => !env.skNew || env.setExData && env.push

theorem StashEnv.keeps_eq : env.keeps s =
    match (storeGetUntrusted env s).1 with
    | .null => true
    | .stored _ => env.push
    | .stray => false := by
  unfold keeps storeGetUntrusted
  cases s.untrusted with
  | some certs => rfl
  | none => cases env.skNew <;> cases env.setExData <;> rfl

/-- What `add-untrusted` takes and nobody has. -/
def lost (env : StashEnv) (s : Store) (c : Cert) : List Cert := given (!env.keeps s) c

theorem triple_addUntrusted (hc : c ∈ (s.members : Multiset Cert) + m) :
    Triple ((s.members : Multiset Cert) + m) (addUntrusted env s c)
      fun r => ↑(lost env s c) + outcome m r := by
  have hmembers : (storeGetUntrusted env s).2.members = s.members := members_storeGetUntrusted
  unfold addUntrusted lost
  rw [StashEnv.keeps_eq]
  split
  next stk s' hstash =>
  rw [hstash] at hmembers ⊢
  have hs' : s'.members = s.members := hmembers
  cases stk with
  | null =>
    -- the error comes before the reference is taken
    refine .pure ?_
    rw [outcome_of_members rfl hs']
    exact (zero_add _).symm
  | stray =>
    refine .retain_then hc (.pure ?_)
    rw [outcome_of_members rfl hs']
    rfl
  | stored certs =>
    have huntrusted : s'.untrusted = some certs := by
      have hstored : (storeGetUntrusted env s).1 = .stored certs := by rw [hstash]
      have := untrusted_of_stored hstored
      rwa [hstash] at this
    refine .retain_then hc (.pure ?_)
    rcases env.push with _ | _
    · rw [if_neg Bool.false_ne_true, outcome_of_members rfl hs']
      rfl
    · -- the reference is that of the new member
      rw [outcome, if_pos rfl, ← hs', Store.members, Store.members, huntrusted]
      simp only [Option.getD_some, coe_append, Bool.not_true, given_false, returned,
        Multiset.coe_nil, Multiset.coe_singleton, zero_add]
      abel

theorem triple_storeDestructor :
    Triple ((s.members : Multiset Cert) + m) (storeDestructor s) fun _ => m := by
  refine .releaseAll_then ((s.trusted : Multiset Cert) + m) ?_ .releaseAll
  rw [Store.members, coe_append]
  abel

/-- Whatever a verification finds, only the certificates that it returns have a reference more. -/
theorem triple_verifyChain (env : VerifyEnv) {leaf : Cert} {extra : List Cert}
    (hleaf : leaf ∈ m) (hextra : ∀ c ∈ extra, c ∈ m) :
    Triple ((s.members : Multiset Cert) + m) (verifyChain env s leaf extra) (outcome m) := by
  have hmembers : (storeGetUntrusted env.stash s).2.members = s.members :=
    members_storeGetUntrusted
  have hcerts : (storeGetUntrusted env.stash s).1.certs = s.untrusted.getD [] :=
    certs_storeGetUntrusted
  unfold verifyChain
  split
  next stash s' hstash =>
  rw [hstash] at hmembers hcerts
  have hs' : s'.members = s.members := hmembers
  have hstashed : stash.certs = s.untrusted.getD [] := hcerts
  dsimp only
  -- all that OpenSSL looks at is the caller's or the store's
  have hcandidates : ∀ c ∈ candidates s' leaf (stash.certs ++ extra),
      c ∈ (s.members : Multiset Cert) + m := by
    intro c hc
    rw [Multiset.mem_add]
    simp only [candidates, List.cons_append, List.append_assoc, List.mem_cons,
      List.mem_append] at hc
    rcases hc with rfl | hc | hc | hc
    · exact Or.inr hleaf
    · exact Or.inl (List.mem_append_right _ (hstashed ▸ hc))
    · exact Or.inr (hextra c hc)
    · refine Or.inl ?_
      rw [← hs']
      exact List.mem_append_left _ hc
  have hnone : ∀ e : X509Error,
      (s.members : Multiset Cert) + m = outcome m (Except.error e, s') :=
    fun e => (outcome_of_members rfl hs').symm
  refine .ite (fun _ => .pure (hnone _)) fun _ => .useAll_then hcandidates (.acquireAll_then ?_)
  generalize env.chain.filter (· ∈ candidates s' leaf (stash.certs ++ extra)) = chain
  cases env.error with
  | some e => exact .exit (by rw [hnone])
  | none =>
    generalize (if env.get1Chain then chain else []) = copy
    refine .acquireAll_then (.retainAll_then ?_ ?_)
    · exact fun c hc => Multiset.mem_add.mpr (Or.inl hc)
    · -- of the three references on a certificate of the chain one is left, for its handle
      refine .releaseAll_then (copy + (chain + (s.members + m))) ?_ (.exit ?_)
      · abel
      · rw [outcome, hs', returned]
        abel

/-- What is returned with the contents of a bundle. -/
theorem triple_pkcs12Parse (bioNew d2i : Bool) (parsed : Option (Pkcs12Contents ℕ Cert)) :
    Triple m (pkcs12Parse bioNew d2i parsed)
      fun r => (returned (r.map certificates) : Multiset Cert) + m := by
  have hnone : m = ((returned (.error .parseFailed) : List Cert) : Multiset Cert) + m :=
    (zero_add m).symm
  refine .ite (fun _ => .pure hnone) fun _ => .ite (fun _ => .pure hnone) fun _ => ?_
  cases parsed with
  | none => exact .pure hnone
  | some contents =>
    refine .acquireAll_then (.retainAll_then ?_ (.exit rfl))
    -- the further certificates came with a reference
    intro c hc
    exact Multiset.mem_add.mpr (Or.inl (List.mem_append_right _ hc))

end Triples

/-! ## The life of the component -/

/-- The live resources with their handles, and the references that OpenSSL counts. -/
structure State where
  certs : List (ℕ × Cert) := []
  stores : List (ℕ × Store) := []
  /-- How many objects were made. -/
  objects : ℕ := 0
  /-- How many handles were given out. -/
  handles : ℕ := 0
  /-- `none` once a reference was used or given back that is not counted. -/
  refs : Option (Multiset Cert) := some 0

/-- A call of the interface, with how the calls of OpenSSL in it turn out. Certificates that are
read are given by their encoding. -/
inductive Call
  | parse (bioNew : Bool) (read : Option (List Byte))
  | parseChain (bioNew : Bool) (read : List (List Byte))
  | clone (c : ℕ)
  | dropCertificate (c : ℕ)
  | newStore
  | addTrusted (st c : ℕ) (env : AddEnv)
  | addUntrusted (st c : ℕ) (env : StashEnv)
  | verifyChain (st leaf : ℕ) (extra : List ℕ) (env : VerifyEnv)
  | pkcs12Parse (bioNew d2i : Bool) (parsed : Option (Pkcs12Contents ℕ (List Byte)))
  | dropStore (st : ℕ)

inductive Answer
  /-- The handles of what is returned. -/
  | done (handles : List ℕ)
  | failed (err : X509Error)
  /-- A handle is not live, so that the call does not reach the component. -/
  | impossible
  deriving DecidableEq

/-- New objects, from a number on. -/
def fresh (n : ℕ) (ders : List (List Byte)) : List Cert :=
  (ders.zipIdx n).map fun p => ⟨p.2, p.1⟩

/-- What has a handle. -/
def find {α : Type} (l : List (ℕ × α)) (h : ℕ) : Option α := (l.find? (·.1 = h)).map Prod.snd

def without {α : Type} (l : List (ℕ × α)) (h : ℕ) : List (ℕ × α) := l.eraseP (·.1 = h)

namespace State

variable (s : State)

/-- The objects of the live certificates. -/
def liveCerts : List Cert := s.certs.flatMap fun p => [p.2]

/-- What is in the live stores. -/
def memberships : List Cert := s.stores.flatMap (·.2.members)

/-- A call that returns certificates and makes so many objects: each certificate gets a handle. -/
def receive (made : ℕ) (p : Acct Cert (Except X509Error (List Cert))) : Answer × State :=
  let s := { s with objects := s.objects + made, refs := s.refs.bind (settle · p.entries) }
  match p.result with
  | .error err => (.failed err, s)
  | .ok cs =>
    let handles := List.range' s.handles cs.length
    (.done handles,
      { s with certs := handles.zip cs ++ s.certs, handles := s.handles + cs.length })

/-- A call with a live certificate. -/
def withCert (c : ℕ) (p : Cert → Answer × State) : Answer × State :=
  match find s.certs c with
  | none => (.impossible, s)
  | some c => p c

/-- A call on a store. -/
def onStore (st : ℕ) (p : Store → Acct Cert (Except X509Error (List Cert) × Store)) :
    Answer × State :=
  match find s.stores st with
  | none => (.impossible, s)
  | some x =>
    { s with stores := (st, (p x).result.2) :: without s.stores st }.receive 0
      ⟨(p x).result.1, (p x).entries⟩

end State

def step (s : State) : Call → Answer × State
  | .parse bioNew read =>
    s.receive read.toList.length (parse bioNew (read.map fun der => ⟨s.objects, der⟩))
  | .parseChain bioNew read => s.receive read.length (parseChain bioNew (fresh s.objects read))
  | .clone c => s.withCert c fun c => s.receive 0 (clone c)
  | .dropCertificate c =>
    match find s.certs c with
    | none => (.impossible, s)
    | some x =>
      (.done [], { s with
        certs := without s.certs c
        refs := s.refs.bind (settle · (certificateDestructor x).entries) })
  | .newStore =>
    (.done [s.handles],
      { s with stores := (s.handles, {}) :: s.stores, handles := s.handles + 1 })
  | .addTrusted st c env => s.withCert c fun c => s.onStore st fun x => addTrusted env x c
  | .addUntrusted st c env => s.withCert c fun c => s.onStore st fun x => addUntrusted env x c
  | .verifyChain st leaf extra env =>
    s.withCert leaf fun leaf =>
      match extra.mapM (find s.certs) with
      | none => (.impossible, s)
      | some extra => s.onStore st fun x => verifyChain env x leaf extra
  | .pkcs12Parse bioNew d2i parsed =>
    -- the certificate is made first, then the others
    let parsed := parsed.map fun contents => {
      key := contents.key
      cert := contents.cert.map fun der => ⟨s.objects, der⟩
      extraCerts := fresh (s.objects + 1) contents.extraCerts }
    s.receive ((parsed.map fun contents => 1 + contents.extraCerts.length).getD 0) do
      let r ← pkcs12Parse bioNew d2i parsed
      pure (r.map certificates)
  | .dropStore st =>
    match find s.stores st with
    | none => (.impossible, s)
    | some x =>
      (.done [], { s with
        stores := without s.stores st
        refs := s.refs.bind (settle · (storeDestructor x).entries) })

/-! ## What one call does to the references -/

theorem coe_of_find {α : Type} {l : List (ℕ × α)} {h : ℕ} {x : α} (hx : find l h = some x)
    (f : α → List Cert) :
    (l.flatMap fun p => f p.2 : Multiset Cert) =
      ↑(f x) + ↑((without l h).flatMap fun p => f p.2) := by
  obtain ⟨p, hp, rfl⟩ := Option.map_eq_some_iff.mp hx
  exact coe_flatMap_find hp fun p => f p.2

theorem mem_of_find {α : Type} {l : List (ℕ × α)} {h : ℕ} {x : α} (hx : find l h = some x) :
    ∃ p ∈ l, p.2 = x := by
  obtain ⟨p, hp, rfl⟩ := Option.map_eq_some_iff.mp hx
  exact ⟨p, List.mem_of_find?_eq_some hp, rfl⟩

namespace State

variable {s : State}

/-- What the live resources and stores have references on. -/
def held (s : State) : Multiset Cert := ↑s.liveCerts + ↑s.memberships

/-- OpenSSL counts, besides some references, those that the live resources and stores have. -/
def Refs (k : Multiset Cert) (s : State) : Prop := s.refs = some (k + s.held)

variable {k : Multiset Cert}

theorem held_receive {made : ℕ} {p : Acct Cert (Except X509Error (List Cert))} :
    (s.receive made p).2.held = ↑(returned p.result) + s.held := by
  unfold receive
  cases p.result with
  | error e => exact (zero_add _).symm
  | ok cs =>
    have hzip : ((List.range' s.handles cs.length).zip cs).flatMap (fun p => [p.2]) = cs := by
      rw [← List.map_eq_flatMap]
      exact List.map_snd_zip (by simp)
    change (((_ ++ s.certs).flatMap _ : List Cert) : Multiset Cert) + ↑s.memberships = _
    rw [List.flatMap_append, hzip, coe_append, add_assoc]
    rfl

theorem refs_receive {made : ℕ} {p : Acct Cert (Except X509Error (List Cert))} {m : Multiset Cert}
    {l : List Cert} (hrefs : s.refs = some (k + m))
    (hp : Triple m p fun r => ↑l + (↑(returned r) + s.held)) :
    (s.receive made p).2.Refs (l + k) := by
  have hsettle : s.refs.bind (settle · p.entries) =
      some ((l : Multiset Cert) + k + (s.receive made p).2.held) := by
    rw [hrefs, Option.bind_some, add_comm k, held_receive]
    refine (hp.frame k).trans (congrArg some ?_)
    change (l : Multiset Cert) + (↑(returned p.result) + s.held) + k = _
    abel
  rw [Refs, ← hsettle]
  unfold receive
  cases p.result <;> rfl

/-- A destructor gives back what is not held any more. -/
theorem Refs.release {s' : State} {p : Acct Cert Unit} (hrefs : s.Refs k)
    (hp : Triple s.held p fun _ => s'.held) (hs' : s'.refs = s.refs.bind (settle · p.entries)) :
    s'.Refs (([] : List Cert) + k) := by
  rw [Refs, hs', hrefs, Option.bind_some, add_comm k]
  refine (hp.frame k).trans (congrArg some ?_)
  rw [Multiset.coe_nil, zero_add, add_comm]

theorem mem_liveCerts {h : ℕ} {c : Cert} (hc : find s.certs h = some c) : c ∈ s.liveCerts := by
  obtain ⟨p, hp, rfl⟩ := mem_of_find hc
  exact List.mem_flatMap.mpr ⟨p, hp, List.mem_singleton_self p.2⟩

/-- A call with a live certificate, or with none. -/
theorem Refs.withCert {c : ℕ} {p : Cert → Answer × State} (hrefs : s.Refs k)
    (hp : ∀ x, find s.certs c = some x → (p x).2.Refs k) : (s.withCert c p).2.Refs k := by
  rw [State.withCert]
  cases hx : find s.certs c with
  | none => exact hrefs
  | some x => exact hp x hx

theorem held_of_find_certs {c : ℕ} {x : Cert} (hx : find s.certs c = some x) :
    s.held = {x} + State.held { s with certs := without s.certs c } := by
  rw [State.held, State.liveCerts, coe_of_find hx fun c => [c], add_assoc]
  rfl

theorem held_of_find_stores {st : ℕ} {x : Store} (hx : find s.stores st = some x) :
    s.held = ↑x.members + State.held { s with stores := without s.stores st } := by
  rw [State.held, State.memberships, coe_of_find hx Store.members, add_left_comm]
  rfl

theorem refs_onStore {st : ℕ} {p : Store → Acct Cert (Except X509Error (List Cert) × Store)}
    {l : Store → List Cert} (hrefs : s.Refs k)
    (hp : ∀ (x : Store) (m : Multiset Cert), (∀ c ∈ s.liveCerts, c ∈ m) →
      Triple ((x.members : Multiset Cert) + m) (p x) fun r => ↑(l x) + outcome m r) :
    (s.onStore st p).2.Refs (((find s.stores st).elim [] l : List Cert) + k) := by
  unfold onStore
  cases hx : find s.stores st with
  | none =>
    rw [Refs, Option.elim_none, Multiset.coe_nil, zero_add]
    exact hrefs
  | some x =>
    -- the other stores and the live certificates stay as they are
    set rest : Multiset Cert :=
      ↑s.liveCerts + ↑((without s.stores st).flatMap (·.2.members)) with hrest
    have hheld : s.held = ↑x.members + rest := by
      rw [held, memberships, coe_of_find hx Store.members, hrest]
      abel
    have hlive : ∀ c ∈ s.liveCerts, c ∈ rest := fun c hc => Multiset.mem_add.mpr (Or.inl hc)
    rw [Refs, hheld] at hrefs
    refine refs_receive hrefs ?_
    refine (hp x rest hlive).trans (congrArg some ?_)
    have hnew : ({ s with stores := (st, (p x).result.2) :: without s.stores st } : State).held =
        ↑(p x).result.2.members + rest := by
      rw [held, memberships, List.flatMap_cons, coe_append, hrest, add_left_comm]
      rfl
    rw [hnew]
    rfl

end State

/-- The reference that an `add-untrusted` takes and nobody has. -/
def lostBy (s : State) : Call → List Cert
  | .addUntrusted st c env =>
    match find s.certs c with
    | none => []
    | some c => (find s.stores st).elim [] fun x => lost env x c
  | _ => []

/-- A call takes a reference for every resource and membership that it makes, and gives back that of
every one that it ends; `add-untrusted` may take one more. -/
theorem refs_step {s : State} {k : Multiset Cert} (hrefs : s.Refs k) (call : Call) :
    (step s call).2.Refs (lostBy s call + k) := by
  have hnone : s.Refs (([] : List Cert) + k) := by
    rw [Multiset.coe_nil, zero_add]
    exact hrefs
  -- most functions are about what is held, and lose nothing
  have hreceive : ∀ {made : ℕ} {p : Acct Cert (Except X509Error (List Cert))},
      Triple s.held p (fun r => (returned r : Multiset Cert) + s.held) →
      (s.receive made p).2.Refs (([] : List Cert) + k) := by
    intro made p hp
    refine State.refs_receive hrefs (hp.trans (congrArg some ?_))
    exact (zero_add _).symm
  have honStore : ∀ {st : ℕ} {p : Store → Acct Cert (Except X509Error (List Cert) × Store)},
      (∀ (x : Store) (m : Multiset Cert), (∀ c ∈ s.liveCerts, c ∈ m) →
        Triple ((x.members : Multiset Cert) + m) (p x) (outcome m)) →
      (s.onStore st p).2.Refs (([] : List Cert) + k) := by
    intro st p hp
    have h : (s.onStore st p).2.Refs (((find s.stores st).elim [] fun _ => [] : List Cert) + k) :=
      State.refs_onStore hrefs fun x m hm => (hp x m hm).trans (congrArg some (zero_add _).symm)
    cases hx : find s.stores st <;> rwa [hx] at h
  cases call with
  | parse bioNew read => exact hreceive (triple_parse bioNew _)
  | parseChain bioNew read => exact hreceive (triple_parseChain bioNew _)
  | clone c =>
    refine hnone.withCert fun x hx => ?_
    exact hreceive (triple_clone (Multiset.mem_add.mpr (Or.inl (State.mem_liveCerts hx))))
  | dropCertificate c =>
    rw [step]
    split
    next => exact hnone
    next x hx =>
      refine hrefs.release ?_ rfl
      rw [State.held_of_find_certs hx]
      exact .release
  | newStore => exact hnone
  | addTrusted st c env =>
    refine hnone.withCert fun c hc => honStore fun x m hm => ?_
    exact triple_addTrusted env (Multiset.mem_add.mpr (Or.inr (hm c (State.mem_liveCerts hc))))
  | addUntrusted st c env =>
    rw [step, State.withCert, lostBy]
    split
    next => exact hnone
    next c hc =>
      refine State.refs_onStore hrefs fun x m hm => ?_
      exact triple_addUntrusted (Multiset.mem_add.mpr (Or.inr (hm c (State.mem_liveCerts hc))))
  | verifyChain st leaf extra env =>
    refine hnone.withCert fun leaf hleaf => ?_
    split
    next => exact hnone
    next extra hextra =>
      refine honStore fun x m hm => ?_
      refine triple_verifyChain env (hm leaf (State.mem_liveCerts hleaf)) fun c hc => ?_
      obtain ⟨h, -, hfind⟩ := exists_of_mem_mapM hextra c hc
      exact hm c (State.mem_liveCerts hfind)
  | pkcs12Parse bioNew d2i parsed =>
    exact hreceive (.bind (triple_pkcs12Parse bioNew d2i _) (.pure rfl))
  | dropStore st =>
    rw [step]
    split
    next => exact hnone
    next x hx =>
      refine hrefs.release ?_ rfl
      rw [State.held_of_find_stores hx]
      exact triple_storeDestructor

/-! ## The counts over the life of the component -/

namespace State

variable {s : State}

/-- How many references OpenSSL counts on an object. -/
def refCount (s : State) (c : Cert) : Option ℕ := s.refs.map (·.count c)

/-- Each object has a reference for each live resource for it and each membership in a live store. -/
def Counted (s : State) : Prop :=
  ∀ c, s.refCount c = some (s.liveCerts.count c + s.memberships.count c)

theorem count_held (c : Cert) :
    s.held.count c = s.liveCerts.count c + s.memberships.count c := by
  rw [held, Multiset.count_add, Multiset.coe_count, Multiset.coe_count]

theorem counted_iff_refs : s.Counted ↔ s.Refs 0 := by
  rw [Refs, zero_add]
  constructor
  · intro h
    cases hrefs : s.refs with
    | none =>
      have hcount := h ⟨0, []⟩
      rw [refCount, hrefs] at hcount
      cases hcount
    | some m =>
      refine congrArg some (Multiset.ext.mpr fun c => ?_)
      have hcount := h c
      rw [refCount, hrefs, ← count_held] at hcount
      exact Option.some.inj hcount
  · intro h c
    rw [refCount, h, Option.map_some, count_held]

/-- An object is freed exactly when there is no resource for it any more and no store has it. -/
theorem Counted.refCount_eq_zero_iff (h : s.Counted) (c : Cert) :
    s.refCount c = some 0 ↔ c ∉ s.liveCerts ∧ c ∉ s.memberships := by
  rw [h c, Option.some.injEq, Nat.add_eq_zero_iff, List.count_eq_zero, List.count_eq_zero]

end State

/-- An `add-untrusted` of live resources puts the certificate into the stash of the store. -/
def Keeps (s : State) : Call → Prop
  | .addUntrusted st c env =>
    (find s.certs c).isSome → ∀ x ∈ find s.stores st, env.keeps x = true
  | _ => True

theorem lostBy_eq_nil_iff {s : State} {call : Call} : lostBy s call = [] ↔ Keeps s call := by
  cases call with
  | addUntrusted st c env =>
    rw [lostBy, Keeps]
    cases find s.certs c with
    | none => simp
    | some c =>
      cases find s.stores st with
      | none => simp
      | some x => cases hkeeps : env.keeps x <;> simp [lost, hkeeps]
  | _ => exact iff_of_true rfl trivial

/-- A call keeps the counts right exactly if it does not lose a reference. -/
theorem counted_step {s : State} (h : s.Counted) (call : Call) :
    (step s call).2.Counted ↔ Keeps s call := by
  have hrefs := refs_step (State.counted_iff_refs.mp h) call
  rw [State.counted_iff_refs, ← lostBy_eq_nil_iff, State.Refs, hrefs, Option.some.injEq,
    add_left_inj, add_zero, Multiset.coe_eq_zero]

/-- In any order of calls, with OpenSSL failing anywhere, the counts are right in every state exactly
if no `add-untrusted` fails to put its certificate into the stash. -/
theorem counted_iff (calls : List Call) :
    (∀ before after, calls = before ++ after → (run step {} before).2.Counted) ↔
      ∀ before call after, calls = before ++ call :: after →
        Keeps (run step {} before).2 call := by
  have hstep : ∀ s call, State.Counted s → ((step s call).2.Counted ↔ Keeps s call) :=
    fun s call h => counted_step h call
  have hinit : State.Counted {} := fun _ => rfl
  exact forall_prefix_iff hstep hinit calls

/-- A certificate that could not be pushed to the stash. -/
def pushFails : List Call :=
  [.parse true (some [0x30]), .newStore, .addUntrusted 1 0 ⟨true, true, false⟩, .dropCertificate 0,
    .dropStore 1]

/-- It keeps a reference when all resources are gone. -/
theorem not_counted_pushFails :
    ¬∀ before after, pushFails = before ++ after → (run step {} before).2.Counted := by
  intro h
  have hcount := h pushFails [] (List.append_nil _).symm ⟨0, [0x30]⟩
  have hrefs : (run step {} pushFails).2.refCount ⟨0, [0x30]⟩ = some 1 := by decide
  rw [hrefs] at hcount
  exact absurd hcount (by decide)

end OpenSSLWasm.X509.References
