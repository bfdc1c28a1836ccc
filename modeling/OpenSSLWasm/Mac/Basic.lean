import OpenSSLWasm.Error
import OpenSSLWasm.Kdf
import OpenSSLWasm.Lib.HandleTable
import OpenSSLWasm.Lib.Ledger
import OpenSSLWasm.Lib.SizeProbe

/-!
# Message authentication codes

`src/mac.c`: codes in one shot, and contexts that get their data in chunks. The constructor of a
context cannot fail, so one whose code could not be set up is there without an `EVP_MAC_CTX`.

## Main definitions

* `buildMacParams`: the array of parameters for an algorithm, with a length in static memory;
* `Evp`: the EVP functions;
* `newMacCtx`, `oneShot` and the `context` functions, with the resources that they take and release;
* `State`, `Event` and `step`: calls on contexts that come and go.
-/

namespace OpenSSLWasm.Mac

open Kdf Ledger SizeProbe

/-! ## Algorithms and parameters -/

inductive Algorithm
  | hmac
  | cmac
  | kmac128
  | kmac256
  | poly1305
  | siphash
  | gmac

inductive BlockCipher
  | aes128
  | aes192
  | aes256

/-- `mac-error`. -/
inductive MacError
  | unsupportedAlgorithm
  | badKeySize
  | badNonceSize
  | missingParameter
  | internal (code : BitVec 64)
  deriving DecidableEq

/-- The variants of `params`, with the fields of their records. -/
inductive Params
  | hmac (hash : DigestAlgorithm)
  | cmac (cipher : BlockCipher)
  | kmac (customization : Option (List Byte)) (outputLen : BitVec 32)
  | poly1305
  | siphash
  | gmac (cipher : BlockCipher) (nonce : List Byte)

def macName (a : Algorithm) : Option (List Byte) :=
  match a with
  | .hmac => some (ascii "HMAC")
  | .cmac => some (ascii "CMAC")
  | .kmac128 => some (ascii "KMAC-128")
  | .kmac256 => some (ascii "KMAC-256")
  | .poly1305 => some (ascii "Poly1305")
  | .siphash => some (ascii "SIPHASH")
  | .gmac => some (ascii "GMAC")

def blockCipherName (c : BlockCipher) : Option (List Byte) :=
  match c with
  | .aes128 => some (ascii "AES-128-CBC")
  | .aes192 => some (ascii "AES-192-CBC")
  | .aes256 => some (ascii "AES-256-CBC")

def gmacCipherName (c : BlockCipher) : Option (List Byte) :=
  match c with
  | .aes128 => some (ascii "AES-128-GCM")
  | .aes192 => some (ascii "AES-192-GCM")
  | .aes256 => some (ascii "AES-256-GCM")

/-- What the data of an `OSSL_PARAM` points to: a C string, some bytes, or the static
`kmac_size_scratch`. -/
inductive ParamData
  | utf8String (s : List Byte)
  | octetString (b : List Byte)
  | kmacSizeScratch

/-- An entry of the array that `build_mac_params` fills. -/
structure MacParam where
  key : List Byte
  data : ParamData

/-- What is found where the data points to. -/
inductive ParamValue
  | utf8String (s : List Byte)
  | octetString (b : List Byte)
  | size (n : ℕ)

/-- What a reader finds who is given the entry while the scratch holds a number. -/
def MacParam.read (scratch : BitVec 32) (p : MacParam) : List Byte × ParamValue :=
  match p.data with
  | .utf8String s => (p.key, .utf8String s)
  | .octetString b => (p.key, .octetString b)
  | .kmacSizeScratch => (p.key, .size scratch.toNat)

/-- The entries that are written before the end, and the scratch afterwards. -/
def buildMacParams (alg : Algorithm) (p : Params) (scratch : BitVec 32) :
    Except MacError (List MacParam) × BitVec 32 :=
  match alg with
  | .hmac =>
    match p with
    | .hmac hash =>
      ((orError (witDigestName hash) .unsupportedAlgorithm).map fun dname =>
        [⟨ascii "digest", .utf8String dname⟩], scratch)
    | _ => (.error .missingParameter, scratch)
  | .cmac =>
    match p with
    | .cmac cipher =>
      ((orError (blockCipherName cipher) .unsupportedAlgorithm).map fun cname =>
        [⟨ascii "cipher", .utf8String cname⟩], scratch)
    | _ => (.error .missingParameter, scratch)
  | .kmac128 | .kmac256 =>
    match p with
    | .kmac customization outputLen =>
      (.ok (customization.toList.map (fun b => ⟨ascii "custom", .octetString b⟩) ++
        [⟨ascii "size", .kmacSizeScratch⟩]), outputLen)
    | _ => (.error .missingParameter, scratch)
  -- whatever the parameters are
  | .poly1305 | .siphash => (.ok [], scratch)
  | .gmac =>
    match p with
    | .gmac cipher nonce =>
      ((orError (gmacCipherName cipher) .unsupportedAlgorithm).map fun cname =>
        [⟨ascii "cipher", .utf8String cname⟩, ⟨ascii "iv", .octetString nonce⟩], scratch)
    | _ => (.error .missingParameter, scratch)

/-- `OSSL_PARAM params[6]`. -/
def paramsCap : ℕ := 6

/-! ## Resources and statics -/

/-- What is allocated. A context is known by its number, and that of a one-shot call by a number
that is not in use. -/
inductive Resource
  /-- `EVP_MAC`. -/
  | mac
  /-- `EVP_MAC_CTX`. -/
  | ctx (h : ℕ)
  /-- `mac_ctx_rep`. -/
  | rep (h : ℕ)
  /-- The memory of a result. -/
  | buffer
  deriving DecidableEq

/-- What all calls share. -/
structure Statics where
  kmacSizeScratch : BitVec 32 := 0
  queue : ErrorQueue := []

namespace Statics

variable (st : Statics)

/-- `ERR_peek_last_error`. -/
def lastError : BitVec 64 := (st.queue.getLast?).elim 0 (·.code.setWidth 64)

def push (errors : List ErrorEntry) : Statics := { st with queue := st.queue ++ errors }

/-- `ERR_clear_error`. -/
def clearError : Statics := { st with queue := [] }

end Statics

/-- The EVP functions on contexts `σ`; `ω` is what a call depends on otherwise. -/
structure Evp (σ ω : Type) where
  /-- `EVP_MAC_fetch`. -/
  fetch : ω → List Byte → Bool
  /-- `EVP_MAC_CTX_new`, for the algorithm that was fetched. -/
  new : ω → List Byte → Option σ
  /-- `EVP_MAC_init`, with the key and with what is found in the parameters. -/
  init : ω → σ → List Byte → List (List Byte × ParamValue) → Bool × σ
  /-- `EVP_MAC_update`. -/
  update : ω → σ → List Byte → Bool × σ
  /-- `EVP_MAC_final`, with a buffer of a size or without one. -/
  final : ω → σ → Option ℕ → Answer Byte × σ
  /-- `EVP_MAC_CTX_dup`. -/
  dup : ω → σ → Option σ
  /-- The errors that they leave in the queue. -/
  errors : ω → List ErrorEntry

section

variable {σ ω : Type} (E : Evp σ ω)

/-! ## Functions -/

def newMacCtx (w : ω) (h : ℕ) (alg : Algorithm) (key : List Byte) (p : Params) (st : Statics) :
    Acct Resource (Except MacError σ × Statics) :=
  match macName alg with
  | none => pure (.error .unsupportedAlgorithm, st)
  | some name =>
    let st := st.push (E.errors w)
    if E.fetch w name = false then pure (.error .unsupportedAlgorithm, st)
    else do
      acquire .mac
      match E.new w name with
      | none => do
        release .mac
        pure (.error (.internal 0), st)
      | some c => do
        acquire (.ctx h)
        release .mac
        let (params, scratch) := buildMacParams alg p st.kmacSizeScratch
        let st := { st with kmacSizeScratch := scratch }
        match params with
        | .error e => do
          release (.ctx h)
          pure (.error e, st)
        | .ok params => do
          use (.ctx h)
          match E.init w c key (params.map (MacParam.read st.kmacSizeScratch)) with
          | (true, c) => pure (.ok c, st)
          | (false, _) => do
            release (.ctx h)
            pure (.error (.internal st.lastError), st)

/-- The two calls of `EVP_MAC_final`: for the size, and with memory of that size. -/
def macFinal (w : ω) (h : ℕ) (c : σ) : Acct Resource (Option (List Byte)) := do
  use (.ctx h)
  match E.final w c none with
  | (.size n, c) => do
    acquire .buffer
    use (.ctx h)
    match E.final w c (some n) with
    | (.result out, _) => pure (some out)
    | _ => do
      release .buffer
      pure none
  | _ => pure none

def oneShot (w : ω) (h : ℕ) (alg : Algorithm) (key data : List Byte) (p : Params) (st : Statics) :
    Acct Resource (Except MacError (List Byte) × Statics) := do
  let (r, st) ← newMacCtx E w h alg key p st
  match r with
  | .error e => pure (.error e, st)
  | .ok c => do
    use (.ctx h)
    match E.update w c data with
    | (false, _) => do
      release (.ctx h)
      pure (.error (.internal st.lastError), st)
    | (true, c) => do
      let out ← macFinal E w h c
      release (.ctx h)
      pure (orError out (.internal st.lastError), st)

/-- The constructor gives a context in any case: the `EVP_MAC_CTX` may be NULL. -/
def constructorContext (w : ω) (h : ℕ) (alg : Algorithm) (key : List Byte) (p : Params)
    (st : Statics) : Acct Resource (Option σ × Statics) := do
  acquire (.rep h)
  let (r, st) ← newMacCtx E w h alg key p st
  match r with
  | .ok c => pure (some c, st)
  | .error _ => pure (none, st.clearError)

def contextUpdate (w : ω) (h : ℕ) (ctx : Option σ) (data : List Byte) (st : Statics) :
    Acct Resource (Except MacError Unit × Option σ × Statics) :=
  match ctx with
  | none => pure (.error (.internal st.lastError), none, st)
  | some c => do
    let st := st.push (E.errors w)
    use (.ctx h)
    match E.update w c data with
    | (true, c) => pure (.ok (), some c, st)
    | (false, c) => pure (.error (.internal st.lastError), some c, st)

def contextDestructor (h : ℕ) (ctx : Option σ) : Acct Resource Unit := do
  releaseAll (given ctx.isSome (.ctx h))
  release (.rep h)

def contextFinish (w : ω) (h : ℕ) (ctx : Option σ) (st : Statics) :
    Acct Resource (Except MacError (List Byte) × Statics) :=
  match ctx with
  | none => do
    contextDestructor h ctx
    pure (.error (.internal st.lastError), st)
  | some c => do
    let st := st.push (E.errors w)
    let out ← macFinal E w h c
    contextDestructor h ctx
    pure (orError out (.internal st.lastError), st)

/-- A clone, under another number. -/
def contextClone (w : ω) (h h' : ℕ) (ctx : Option σ) (st : Statics) :
    Acct Resource (Option σ × Statics) := do
  acquire (.rep h')
  match ctx with
  | none => pure (none, st)
  | some c => do
    use (.ctx h)
    match E.dup w c with
    | none => pure (none, st.push (E.errors w))
    | some c => do
      acquire (.ctx h')
      pure (some c, st.push (E.errors w))

end

/-! ## Contexts that come and go -/

structure State (σ : Type) where
  contexts : HandleTable (Option σ) := .empty
  statics : Statics := {}
  /-- The number of results that callers have. -/
  results : ℕ := 0

inductive Event (ω : Type)
  | oneShot (alg : Algorithm) (key data : List Byte) (p : Params) (w : ω)
  | construct (alg : Algorithm) (key : List Byte) (p : Params) (w : ω)
  | update (h : ℕ) (data : List Byte) (w : ω)
  | finish (h : ℕ) (w : ω)
  | clone (h : ℕ) (w : ω)
  | drop (h : ℕ)
  /-- Other interfaces leave the queue like this. -/
  | elsewhere (queue : ErrorQueue)

inductive Outcome
  | context (h : ℕ)
  | done
  | bytes (b : List Byte)
  | error (e : MacError)
  /-- There is no such context. -/
  | impossible
  deriving DecidableEq

/-- What becomes of a call, with its ledger. -/
structure Reply where
  outcome : Outcome
  entries : List (Entry Resource) := []

def Outcome.ofBytes : Except MacError (List Byte) → Outcome
  | .ok b => .bytes b
  | .error e => .error e

def Outcome.ofUnit : Except MacError Unit → Outcome
  | .ok _ => .done
  | .error e => .error e

section

variable {σ ω : Type} (E : Evp σ ω)

def State.count (s : State σ) (r : Except MacError (List Byte)) : ℕ :=
  if r.isOk then s.results + 1 else s.results

def step (s : State σ) : Event ω → Reply × State σ
  | .oneShot alg key data p w =>
    let a := oneShot E w s.contexts.next alg key data p s.statics
    (⟨.ofBytes a.result.1, a.entries⟩,
      { s with statics := a.result.2, results := s.count a.result.1 })
  | .construct alg key p w =>
    let a := constructorContext E w s.contexts.next alg key p s.statics
    (⟨.context s.contexts.next, a.entries⟩,
      { s with contexts := s.contexts.insert a.result.1, statics := a.result.2 })
  | .update h data w =>
    match s.contexts.entry h with
    | none => (⟨.impossible, []⟩, s)
    | some ctx =>
      let a := contextUpdate E w h ctx data s.statics
      (⟨.ofUnit a.result.1, a.entries⟩,
        { s with contexts := s.contexts.set h a.result.2.1, statics := a.result.2.2 })
  | .finish h w =>
    match s.contexts.entry h with
    | none => (⟨.impossible, []⟩, s)
    | some ctx =>
      let a := contextFinish E w h ctx s.statics
      (⟨.ofBytes a.result.1, a.entries⟩,
        ⟨s.contexts.remove h, a.result.2, s.count a.result.1⟩)
  | .clone h w =>
    match s.contexts.entry h with
    | none => (⟨.impossible, []⟩, s)
    | some ctx =>
      let a := contextClone E w h s.contexts.next ctx s.statics
      (⟨.context s.contexts.next, a.entries⟩,
        { s with contexts := s.contexts.insert a.result.1, statics := a.result.2 })
  | .drop h =>
    match s.contexts.entry h with
    | none => (⟨.impossible, []⟩, s)
    | some ctx =>
      (⟨.done, (contextDestructor h ctx).entries⟩, { s with contexts := s.contexts.remove h })
  | .elsewhere queue =>
    (⟨.done, []⟩, { s with statics := { s.statics with queue } })

end

/-! ## Parameters -/

theorem map_orError_eq_ok {ε α β : Type} {o : Option α} {e : ε} {f : α → β} {b : β} :
    (orError o e).map f = .ok b ↔ ∃ a, o = some a ∧ f a = b := by
  rcases o with _ | a <;> simp [orError, Except.map]

/-- The entries fit, with the end behind them. -/
theorem length_buildMacParams_lt {alg : Algorithm} {p : Params} {scratch : BitVec 32}
    {params : List MacParam} (h : (buildMacParams alg p scratch).1 = .ok params) :
    params.length < paramsCap := by
  revert h
  fun_cases buildMacParams alg p scratch <;> intro h
  case case5 custom n | case7 custom n =>
    obtain rfl := Except.ok.inj h
    cases custom <;> simp [paramsCap]
  case case9 | case10 =>
    obtain rfl := Except.ok.inj h
    simp [paramsCap]
  case case1 | case3 | case11 =>
    obtain ⟨name, -, rfl⟩ := map_orError_eq_ok.mp h
    simp [paramsCap]
  -- parameters of another kind
  all_goals cases h

/-- What is found in the entries, which depends on the parameters alone. -/
def paramValues (alg : Algorithm) (p : Params) : Except MacError (List (List Byte × ParamValue)) :=
  (buildMacParams alg p 0).1.map (·.map (MacParam.read (buildMacParams alg p 0).2))

/-- A length that another call left in the scratch is never read. -/
theorem read_buildMacParams (alg : Algorithm) (p : Params) (scratch : BitVec 32) :
    (buildMacParams alg p scratch).1.map
      (·.map (MacParam.read (buildMacParams alg p scratch).2)) = paramValues alg p := by
  -- names are no scratch, and for KMAC the scratch is written first
  cases alg <;> cases p
  all_goals first
    | rfl
    | (simp only [paramValues, buildMacParams]
       generalize orError _ _ = o
       cases o <;> rfl)

end OpenSSLWasm.Mac
