import OpenSSLWasm.Lib.HandleTable
import OpenSSLWasm.Lib.Ledger
import OpenSSLWasm.Pkey.Exchange
import OpenSSLWasm.Pkey.SaveLoad

/-!
# What the key interface holds

A `pkey` resource of `src/pkey.c` is one reference on an `EVP_PKEY`. The calls make contexts,
buffers and numbers besides, and leave in many places when something fails.

## Main definitions

* `Resource`: what the calls take;
* `Memory` and `Libcrypto`: how the calls of libcrypto turn out;
* `generateAcct`, `encryptAcct` and their companions: the calls, with their ledgers;
* `State`, `Call` and `step`: keys that come, are copied and go;
* `leavesExponent`: a generated key leaves the number of its public exponent behind.

## Main results

* `generateAcct_result`, `encryptAcct_result` and their companions: the calls are those without
  ledgers;
* `settle_step`: what one call takes and releases;
* `settle_keys`: between two calls only the references of keys that are there, results and public
  exponents are held.
-/

namespace OpenSSLWasm.Pkey

open Ledger SizeProbe Transcript

inductive Resource
  /-- A reference on the key object with a number. -/
  | key (o : ℕ)
  | pkeyCtx
  | mdCtx
  | bignum
  | label
  | buffer
  | bio
  | encoderCtx
  | decoderCtx
  deriving DecidableEq

/-- The calls of libcrypto that only need memory. -/
structure Memory where
  /-- `EVP_PKEY_CTX_new`. -/
  ctxNew : Bool := true
  /-- `EVP_PKEY_CTX_new_from_pkey`, for generated parameters. -/
  paramsCtx : Bool := true
  mdCtxNew : Bool := true
  memdup : Bool := true

/-- A body with a context, which is freed at every exit. -/
def withContext {α : Type} (c : Resource) (made : Bool) (unmade : PkeyError)
    (body : Acct Resource (Except PkeyError α)) : Acct Resource (Except PkeyError α) :=
  if made = false then pure (.error unmade)
  else do
    acquire c
    let r ← body
    release c
    pure r

section

variable {κ ρ S : Type} (mem : Memory)

/-! ## Generating -/

section

variable (P : Bignum.Platform) (K : KeygenLib κ) (o : ℕ)

/-- `EVP_PKEY_keygen`, which makes the key object with the number `o`. -/
def keygenAcct (ctx : KeygenCtx) : Acct Resource (Except PkeyError κ) :=
  match K.keygen ctx with
  | none => pure (.error .keygenFailed)
  | some k => do
    acquire (.key o)
    pure (.ok k)

/-- See `generateRsa`. -/
def generateRsaAcct (name : String) (k : RsaKeygen) : Acct Resource (Except PkeyError κ) :=
  withContext .pkeyCtx (K.newFromName name) .keygenFailed do
    let ctx : KeygenCtx := { name }
    if K.keygenInit ctx = false then pure (.error .keygenFailed)
    else
      let ctx := ctx.tell (.rsaBits k.bits.toInt)
      if K.accepts ctx = false then pure (.error .badKeySize)
      else
        match k.publicExponent with
        | none => keygenAcct K o ctx
        | some v =>
          if K.bnNew = false then pure (.error .badKeySize)
          else do
            acquire .bignum
            let ctx := ctx.tell (.rsaPubexp (Bignum.bnSetWord (Bignum.toBnUlong P v)))
            if K.accepts ctx = false then do
              release .bignum
              pure (.error .badKeySize)
            -- libcrypto has a copy of the exponent, and nobody frees this one
            else keygenAcct K o ctx

def generateGroupAcct (name group : String) : Acct Resource (Except PkeyError κ) :=
  withContext .pkeyCtx (K.newFromName name) .keygenFailed
    (let ctx : KeygenCtx := { name }
    if K.keygenInit ctx = false then pure (.error .keygenFailed)
    else
      let ctx := ctx.tell (.groupName group)
      if K.accepts ctx = false then pure (.error .keygenFailed) else keygenAcct K o ctx)

def generatePlainAcct (name : String) : Acct Resource (Except PkeyError κ) :=
  withContext .pkeyCtx (K.newFromName name) .keygenFailed
    (if K.keygenInit { name } = false then pure (.error .keygenFailed)
    else keygenAcct K o { name })

/-- The parameters are a key object of their own, which the second context keeps. -/
def generateDhAcct (params : ℕ) (d : DhKeygen) : Acct Resource (Except PkeyError κ) :=
  if K.newFromName "DH" = false then pure (.error .keygenFailed)
  else do
    acquire .pkeyCtx
    let ctx : KeygenCtx := { name := "DH" }
    if K.paramgenInit ctx = false then do
      release .pkeyCtx
      pure (.error .keygenFailed)
    else
      match K.paramgen (ctx.tell (.dhParams d.primeBits d.generator)) with
      | none => do
        release .pkeyCtx
        pure (.error .keygenFailed)
      | some ctx => do
        acquire (.key params)
        release .pkeyCtx
        -- the new context, if any, has a reference of its own
        release (.key params)
        withContext .pkeyCtx mem.paramsCtx .keygenFailed
          (if K.keygenInit ctx = false then pure (.error .keygenFailed) else keygenAcct K o ctx)

def generateAcct (params : ℕ) : KeygenParams → Acct Resource (Except PkeyError κ)
  | .rsa k => generateRsaAcct P K o "RSA" k
  | .rsaPss k => generateRsaAcct P K o "RSA-PSS" k
  | .ec c => generateGroupAcct K o "EC" (curveName c)
  | .ed c => generatePlainAcct K o (edwardsName c)
  | .x c => generatePlainAcct K o (montgomeryName c)
  | .dh d => generateDhAcct mem K o params d
  | .dhNamed g => generateGroupAcct K o "DH" (dhGroupName g)

end

/-! ## Results and settings -/

/-- See `takeResult`. -/
def takeResultAcct (call : Option ℕ → Answer Byte) (unsized failed : PkeyError) :
    Acct Resource (Except PkeyError (List Byte)) :=
  match call none with
  | .size n => do
    acquire .buffer
    match (call (some n)).result? with
    | some bs => pure (.ok bs)
    | none => do
      release .buffer
      pure (.error failed)
  | _ => pure (.error unsized)

section

variable (L : RsaLib κ ρ S)

/-- See `applyRsaPadding`. The label is copied; libcrypto frees the copy if it accepts it, and the
code if it does not. -/
def applyRsaPaddingAcct (k : κ) (ctx : RsaCtx) (padding : Option RsaPadding) :
    Acct Resource (Option RsaCtx) :=
  match padding with
  | some (.pkcs1Oaep p) =>
    match applyRsaPadding L k ctx (some (.pkcs1Oaep { p with label := [] })) with
    | none => pure none
    | some ctx =>
      if p.label = [] then pure (some ctx)
      else if mem.memdup = false then pure none
      else do
        acquire .label
        release .label
        pure (RsaCtx.set (L.acceptsOaepLabel k p.label) { ctx with oaepLabel := p.label })
  | padding => pure (applyRsaPadding L k ctx padding)

/-! ## Signatures -/

def signWithAcct (k : κ) (md : DigestAlgorithm) (d : List Byte) (padding : Option RsaPadding)
    (r : ρ) : Acct Resource (Except PkeyError S) := do
  match ← applyRsaPaddingAcct mem L k { md := md, mgf1Md := md } padding with
  | none => pure (.error .signFailed)
  | some ctx =>
    if L.signSize k = false then pure (.error .signFailed)
    else do
      acquire .buffer
      match evpPkeySign L k ctx d r with
      | none => do
        release .buffer
        pure (.error .signFailed)
      | some sig => pure (.ok sig)

def signAcct (k : κ) (padding : Option RsaPadding) (r : ρ) :
    Subject → Acct Resource (Except PkeyError S)
  | .digest hash d =>
    withContext .pkeyCtx mem.ctxNew .signFailed
      (if L.init k = false then pure (.error .signFailed)
      else if L.available hash = false then pure (.error .unsupportedType)
      else if L.acceptsMd k hash = false then pure (.error .signFailed)
      else signWithAcct mem L k hash d padding r)
  | .message hash m =>
    withContext .mdCtx mem.mdCtxNew (.internal 0)
      (if hash.any (fun h => !L.available h) then pure (.error .unsupportedType)
      else
        let md := hash.getD .sha256
        if L.init k = false ∨ L.acceptsMd k md = false then pure (.error .signFailed)
        else signWithAcct mem L k md (L.digest md m) padding r)

def verifyWithAcct (k : κ) (md : DigestAlgorithm) (d : List Byte) (padding : Option RsaPadding)
    (signature : S) : Acct Resource (Except PkeyError Bool) := do
  match ← applyRsaPaddingAcct mem L k { md := md, mgf1Md := md } padding with
  | none => pure (.error .verifyFailed)
  | some ctx => pure (orError (evpPkeyVerify L k ctx d signature) .verifyFailed)

def verifyAcct (k : κ) (padding : Option RsaPadding) (signature : S) :
    Subject → Acct Resource (Except PkeyError Bool)
  | .digest hash d =>
    withContext .pkeyCtx mem.ctxNew .verifyFailed
      (if L.init k = false then pure (.error .verifyFailed)
      else if L.available hash = false then pure (.error .unsupportedType)
      else if L.acceptsMd k hash = false then pure (.error .verifyFailed)
      else verifyWithAcct mem L k hash d padding signature)
  | .message hash m =>
    withContext .mdCtx mem.mdCtxNew (.internal 0)
      (if hash.any (fun h => !L.available h) then pure (.error .unsupportedType)
      else
        let md := hash.getD .sha256
        if L.init k = false ∨ L.acceptsMd k md = false then pure (.error .verifyFailed)
        else verifyWithAcct mem L k md (L.digest md m) padding signature)

end

/-! ## Raw bytes, encryption and secrets -/

section

variable (X : ExchangeLib κ ρ) (L : RsaLib κ ρ S) (o : ℕ)

/-- A key object that libcrypto has made, or not. -/
def newKeyAcct (k : Option κ) (e : PkeyError) : Acct Resource (Except PkeyError κ) :=
  match k with
  | none => pure (.error e)
  | some k => do
    acquire (.key o)
    pure (.ok k)

def fromRawPrivateAcct (kind : KeyType) (bytes : List Byte) : Acct Resource (Except PkeyError κ) :=
  match rawName kind with
  | none => pure (.error .unsupportedType)
  | some name => newKeyAcct o (X.newRawPrivate name bytes) .badEncoding

def fromRawPublicAcct (kind : KeyType) (bytes : List Byte) : Acct Resource (Except PkeyError κ) :=
  match rawName kind with
  | none => pure (.error .unsupportedType)
  | some name => newKeyAcct o (X.newRawPublic name bytes) .badEncoding

def rawPrivateAcct (p : κ) : Acct Resource (Except PkeyError (List Byte)) :=
  takeResultAcct (X.getRawPrivate p) .unsupportedType (.internal X.peekLastError)

def rawPublicAcct (p : κ) : Acct Resource (Except PkeyError (List Byte)) :=
  takeResultAcct (X.getRawPublic p) .unsupportedType (.internal X.peekLastError)

/-- See `hasPrivate`: of the two numbers that are asked for, one at most is there. -/
def hasPrivateAcct (p : κ) : Acct Resource Bool :=
  match X.getRawPrivate p none with
  | .size _ => pure true
  | _ =>
    if (X.bnParam p "priv").isSome || (X.bnParam p "d").isSome then do
      acquire .bignum
      release .bignum
      pure true
    else pure false

def encryptAcct (p : κ) (padding : RsaPadding) (plaintext : List Byte) (r : ρ) :
    Acct Resource (Except PkeyError (List Byte)) :=
  withContext .pkeyCtx mem.ctxNew .encryptFailed
    (if X.encryptInit p = false then pure (.error .encryptFailed)
    else do
      match ← applyRsaPaddingAcct mem L p cryptCtx (some padding) with
      | none => pure (.error .encryptFailed)
      | some ctx => takeResultAcct (X.encrypt p ctx plaintext r) .encryptFailed .encryptFailed)

def decryptAcct (p : κ) (padding : RsaPadding) (ciphertext : List Byte) :
    Acct Resource (Except PkeyError (List Byte)) :=
  withContext .pkeyCtx mem.ctxNew .decryptFailed
    (if X.decryptInit p = false then pure (.error .decryptFailed)
    else do
      match ← applyRsaPaddingAcct mem L p cryptCtx (some padding) with
      | none => pure (.error .decryptFailed)
      | some ctx => takeResultAcct (X.decrypt p ctx ciphertext) .decryptFailed .decryptFailed)

def deriveAcct (p peer : κ) : Acct Resource (Except PkeyError (List Byte)) :=
  withContext .pkeyCtx mem.ctxNew .deriveFailed
    (if X.deriveInit p = false ∨ X.setPeer p peer = false then pure (.error .deriveFailed)
    else takeResultAcct (X.derive p peer) .deriveFailed .deriveFailed)

end

/-! ## Saving and loading -/

/-- See `encodeKey`. -/
def encodeKeyAcct (E : EncoderLib κ ρ) (r : ρ) (p : κ) (opts : SaveOptions) (wantPrivate : Bool) :
    Acct Resource (Except PkeyError (List Byte)) :=
  let selection := if wantPrivate then Selection.keypair else .publicKey
  let st := outputStructure wantPrivate opts.format
  if E.newForPkey p selection opts.encoding st = false then pure (.error (.internal 0))
  else do
    acquire .encoderCtx
    if E.bioNew = false then do
      release .encoderCtx
      pure (.error (.internal 0))
    else do
      acquire .bio
      let result := encodeKey E r p opts wantPrivate
      release .encoderCtx
      match result with
      | .error e => do
        release .bio
        pure (.error e)
      | .ok bytes => do
        acquire .buffer
        release .bio
        pure (.ok bytes)

/-- What `OSSL_DECODER_from_bio` leaves behind. -/
structure DecoderOutcome (κ : Type) where
  ok : Bool
  pkey : Option κ

/-- See `loadKeyFromBytes`. A decoder that fails may still leave a key. -/
def loadKeyAcct (D : DecoderLib κ) (o : ℕ) (opts : LoadOptions) (wantPrivate : Bool)
    (out : DecoderOutcome κ) : Acct Resource (Except PkeyError κ) :=
  let st := inputStructure wantPrivate opts.format
  let sel := if wantPrivate then Selection.keypair else .publicKey
  if D.bioNewMemBuf = false then pure (.error (.internal 0))
  else do
    acquire .bio
    if D.newForPkey opts.encoding st sel = false then do
      release .bio
      pure (.error (.internal 0))
    else do
      acquire .decoderCtx
      match out.pkey with
      | none => do
        releaseAll [.decoderCtx, .bio]
        pure (.error .badEncoding)
      | some k => do
        acquire (.key o)
        releaseAll [.decoderCtx, .bio]
        if out.ok then pure (.ok k)
        else do
          release (.key o)
          pure (.error .badEncoding)

end

/-! ## The calls without ledgers -/

section

variable {κ ρ S : Type} {mem : Memory}

theorem withContext_result {α : Type} (c : Resource) (made : Bool) (unmade : PkeyError)
    (body : Acct Resource (Except PkeyError α)) :
    (withContext c made unmade body).result =
      if made = false then .error unmade else body.result := by
  rw [withContext, Acct.result_ite]
  rfl

theorem takeResultAcct_result (call : Option ℕ → Answer Byte) (unsized failed : PkeyError) :
    (takeResultAcct call unsized failed).result = takeResult call unsized failed := by
  rw [takeResultAcct, takeResult]
  cases call none with
  | size n => cases h : (call (some n)).result? <;> simp [h, orError]
  | failed needed => rfl
  | result bs => rfl

theorem keygenAcct_result (K : KeygenLib κ) (o : ℕ) (ctx : KeygenCtx) :
    (keygenAcct K o ctx).result = (runKeygen K ctx).2 := by
  rw [keygenAcct, runKeygen, KeygenCtx.finish]
  cases K.keygen ctx <;> rfl

theorem generateRsaAcct_result (P : Bignum.Platform) (K : KeygenLib κ) (o : ℕ) (name : String)
    (k : RsaKeygen) : (generateRsaAcct P K o name k).result = (generateRsa P K name k).2 := by
  rw [generateRsaAcct, withContext_result, generateRsa]
  cases k.publicExponent with
  | none =>
    simp only [Acct.result_ite, keygenAcct_result]
    split_ifs <;> simp_all [KeygenCtx.finish]
  | some v =>
    simp only [Acct.result_ite, Acct.result_bind, keygenAcct_result]
    split_ifs <;> simp_all [KeygenCtx.finish]

theorem generateGroupAcct_result (K : KeygenLib κ) (o : ℕ) (name group : String) :
    (generateGroupAcct K o name group).result = (generateGroup K name group).2 := by
  rw [generateGroupAcct, withContext_result, generateGroup]
  simp only [Acct.result_ite, keygenAcct_result]
  split_ifs <;> simp_all [KeygenCtx.finish]

theorem generatePlainAcct_result (K : KeygenLib κ) (o : ℕ) (name : String) :
    (generatePlainAcct K o name).result = (generatePlain K name).2 := by
  rw [generatePlainAcct, withContext_result, generatePlain]
  simp only [Acct.result_ite, keygenAcct_result]
  split_ifs <;> simp_all [KeygenCtx.finish]

theorem generateDhAcct_result (hmem : mem.paramsCtx = true) (K : KeygenLib κ) (o params : ℕ)
    (d : DhKeygen) : (generateDhAcct mem K o params d).result = (generateDh K d).2 := by
  rw [generateDhAcct, generateDh]
  cases hparams : K.paramgen
      (({ name := "DH" } : KeygenCtx).tell (.dhParams d.primeBits d.generator)) with
  | none =>
    simp only [Acct.result_ite, Acct.result_bind]
    split_ifs <;> simp_all [KeygenCtx.finish]
  | some ctx =>
    have hbody : (withContext .pkeyCtx mem.paramsCtx .keygenFailed
        (if K.keygenInit ctx = false then pure (.error .keygenFailed)
        else keygenAcct K o ctx)).result =
        (if K.keygenInit ctx = false then ctx.finish (.error .keygenFailed)
        else runKeygen K ctx).2 := by
      rw [withContext_result, hmem, Acct.result_ite, keygenAcct_result]
      split_ifs <;> simp_all [KeygenCtx.finish]
    simp only [Acct.result_ite, Acct.result_bind]
    split_ifs <;> simp_all [KeygenCtx.finish]

/-- Where a context for the parameters can be had, `generate` is what it is without a ledger. -/
theorem generateAcct_result (hmem : mem.paramsCtx = true) (P : Bignum.Platform) (K : KeygenLib κ)
    (o params : ℕ) (ps : KeygenParams) :
    (generateAcct mem P K o params ps).result = (generate P K ps).2 := by
  cases ps with
  | rsa k => exact generateRsaAcct_result P K o _ k
  | rsaPss k => exact generateRsaAcct_result P K o _ k
  | ec c => exact generateGroupAcct_result K o _ _
  | ed c => exact generatePlainAcct_result K o _
  | x c => exact generatePlainAcct_result K o _
  | dh d => exact generateDhAcct_result hmem K o params d
  | dhNamed g => exact generateGroupAcct_result K o _ _

theorem applyRsaPadding_oaep (L : RsaLib κ ρ S) (k : κ) (ctx : RsaCtx) (p : OaepParams) :
    applyRsaPadding L k ctx (some (.pkcs1Oaep p)) =
      (applyRsaPadding L k ctx (some (.pkcs1Oaep { p with label := [] }))).bind fun ctx =>
        if p.label = [] then some ctx
        else RsaCtx.set (L.acceptsOaepLabel k p.label) { ctx with oaepLabel := p.label } := by
  simp only [applyRsaPadding, Option.bind_eq_bind, if_true]
  cases RsaCtx.set (L.acceptsPadMode k .oaep) { ctx with padMode := .oaep } with
  | none => rfl
  | some ctx =>
    by_cases hav : L.available p.hash = true ∧ L.available p.mgf1Hash = true
    · simp only [hav, not_true_eq_false, if_false, Option.bind_some, Option.bind_assoc, and_self]
    · simp only [hav, not_false_eq_true, if_true, Option.bind_some, Option.bind_none]

theorem applyRsaPaddingAcct_result (hmem : mem.memdup = true) (L : RsaLib κ ρ S) (k : κ)
    (ctx : RsaCtx) (padding : Option RsaPadding) :
    (applyRsaPaddingAcct mem L k ctx padding).result = applyRsaPadding L k ctx padding := by
  rcases padding with _ | (_ | p | p | _)
  · rfl
  · rfl
  · rw [applyRsaPadding_oaep, applyRsaPaddingAcct]
    cases applyRsaPadding L k ctx (some (.pkcs1Oaep { p with label := [] })) with
    | none => rfl
    | some ctx =>
      simp only [Acct.result_ite, Acct.result_bind, Acct.result_pure, hmem, Option.bind_some]
      split_ifs <;> simp_all
  · rfl
  · rfl

theorem signWithAcct_result (hmem : mem.memdup = true) (L : RsaLib κ ρ S) (k : κ)
    (md : DigestAlgorithm) (d : List Byte) (padding : Option RsaPadding) (r : ρ) :
    (signWithAcct mem L k md d padding r).result = signWith L k md d padding r := by
  rw [signWithAcct, Acct.result_bind, applyRsaPaddingAcct_result hmem, signWith]
  cases applyRsaPadding L k { md := md, mgf1Md := md } padding with
  | none => rfl
  | some ctx =>
    simp only [Acct.result_ite, Acct.result_bind]
    cases evpPkeySign L k ctx d r <;> rfl

theorem verifyWithAcct_result (hmem : mem.memdup = true) (L : RsaLib κ ρ S) (k : κ)
    (md : DigestAlgorithm) (d : List Byte) (padding : Option RsaPadding) (sig : S) :
    (verifyWithAcct mem L k md d padding sig).result = verifyWith L k md d padding sig := by
  rw [verifyWithAcct, Acct.result_bind, applyRsaPaddingAcct_result hmem, verifyWith]
  cases applyRsaPadding L k { md := md, mgf1Md := md } padding with
  | none => rfl
  | some ctx =>
    dsimp only
    cases evpPkeyVerify L k ctx d sig <;> rfl

/-- All that only needs memory has it. -/
structure Memory.Enough (mem : Memory) : Prop where
  ctxNew : mem.ctxNew = true
  paramsCtx : mem.paramsCtx = true
  mdCtxNew : mem.mdCtxNew = true
  memdup : mem.memdup = true

theorem signAcct_result (hmem : mem.Enough) (L : RsaLib κ ρ S) (k : κ)
    (padding : Option RsaPadding) (r : ρ) (x : Subject) :
    (signAcct mem L k padding r x).result = sign L k padding r x := by
  cases x with
  | digest hash d =>
    rw [signAcct, withContext_result, hmem.ctxNew]
    simp only [Acct.result_ite, signWithAcct_result hmem.memdup]
    rfl
  | message hash m =>
    rw [signAcct, withContext_result, hmem.mdCtxNew]
    simp only [Acct.result_ite, signWithAcct_result hmem.memdup]
    rfl

theorem verifyAcct_result (hmem : mem.Enough) (L : RsaLib κ ρ S) (k : κ)
    (padding : Option RsaPadding) (sig : S) (x : Subject) :
    (verifyAcct mem L k padding sig x).result = verify L k padding sig x := by
  cases x with
  | digest hash d =>
    rw [verifyAcct, withContext_result, hmem.ctxNew]
    simp only [Acct.result_ite, verifyWithAcct_result hmem.memdup]
    rfl
  | message hash m =>
    rw [verifyAcct, withContext_result, hmem.mdCtxNew]
    simp only [Acct.result_ite, verifyWithAcct_result hmem.memdup]
    rfl

theorem encryptAcct_result (hmem : mem.Enough) (X : ExchangeLib κ ρ) (L : RsaLib κ ρ S) (p : κ)
    (padding : RsaPadding) (plaintext : List Byte) (r : ρ) :
    (encryptAcct mem X L p padding plaintext r).result = encrypt X L p padding plaintext r := by
  rw [encryptAcct, withContext_result, hmem.ctxNew, encrypt]
  simp only [Acct.result_ite, Acct.result_bind, applyRsaPaddingAcct_result hmem.memdup]
  cases applyRsaPadding L p cryptCtx (some padding) with
  | none => rfl
  | some ctx =>
    dsimp only
    rw [← takeResultAcct_result]
    rfl

theorem decryptAcct_result (hmem : mem.Enough) (X : ExchangeLib κ ρ) (L : RsaLib κ ρ S) (p : κ)
    (padding : RsaPadding) (ciphertext : List Byte) :
    (decryptAcct mem X L p padding ciphertext).result = decrypt X L p padding ciphertext := by
  rw [decryptAcct, withContext_result, hmem.ctxNew, decrypt]
  simp only [Acct.result_ite, Acct.result_bind, applyRsaPaddingAcct_result hmem.memdup]
  cases applyRsaPadding L p cryptCtx (some padding) with
  | none => rfl
  | some ctx =>
    dsimp only
    rw [← takeResultAcct_result]
    rfl

theorem deriveAcct_result (hmem : mem.Enough) (X : ExchangeLib κ ρ) (p peer : κ) :
    (deriveAcct mem X p peer).result = derive X p peer := by
  rw [deriveAcct, withContext_result, hmem.ctxNew, derive, ← takeResultAcct_result]
  simp only [Acct.result_ite]
  rfl

theorem fromRawAcct_result (X : ExchangeLib κ ρ) (o : ℕ) (kind : KeyType) (bytes : List Byte) :
    (fromRawPrivateAcct X o kind bytes).result = fromRawPrivate X kind bytes ∧
      (fromRawPublicAcct X o kind bytes).result = fromRawPublic X kind bytes := by
  rw [fromRawPrivateAcct, fromRawPublicAcct, fromRawPrivate, fromRawPublic]
  cases rawName kind with
  | none => exact ⟨rfl, rfl⟩
  | some name =>
    constructor
    · cases h : X.newRawPrivate name bytes <;> simp [newKeyAcct, h, orError]
    · cases h : X.newRawPublic name bytes <;> simp [newKeyAcct, h, orError]

theorem hasPrivateAcct_result (X : ExchangeLib κ ρ) (p : κ) (q : ErrorQueue) :
    (hasPrivateAcct X p).result = (hasPrivate X p q).1 := by
  rw [hasPrivateAcct, hasPrivate]
  cases X.getRawPrivate p none with
  | size n => rfl
  | failed needed =>
    simp only [Acct.result_ite]
    split_ifs with h <;> simp [h]
  | result bs =>
    simp only [Acct.result_ite]
    split_ifs with h <;> simp [h]

theorem encodeKeyAcct_result (E : EncoderLib κ ρ) (r : ρ) (p : κ) (opts : SaveOptions)
    (wantPrivate : Bool) :
    (encodeKeyAcct E r p opts wantPrivate).result = encodeKey E r p opts wantPrivate := by
  rw [encodeKeyAcct]
  dsimp only
  by_cases hnew : E.newForPkey p (if wantPrivate = true then Selection.keypair else .publicKey)
      opts.encoding (outputStructure wantPrivate opts.format) = false
  · rw [if_pos hnew, encodeKey]
    exact (if_pos hnew).symm
  · rw [if_neg hnew, Acct.result_bind]
    by_cases hbio : E.bioNew = false
    · have hmemory : ∀ ectx, encodeToMemory E r ectx = .error (.internal 0) := fun _ => if_pos hbio
      rw [if_pos hbio, encodeKey]
      refine Eq.trans ?_ (if_neg hnew).symm
      cases opts.passphrase <;> simp [hmemory]
    · rw [if_neg hbio]
      cases encodeKey E r p opts wantPrivate <;> simp

end

/-! ## What one call takes and releases -/

/-- A resource under a condition. -/
def held (c : Bool) (x : Resource) : Multiset Resource := given c x

/-- What the caller has of a result. -/
def kept {α : Type} (x : Resource) (r : Except PkeyError α) : Multiset Resource := held r.isOk x

section

variable {κ ρ S : Type} {mem : Memory}

/-- A context is freed at every exit of its body. -/
theorem Leaves.withContext {F : Except PkeyError α → Multiset Resource} (c : Resource)
    (made : Bool) {unmade : PkeyError} {body : Acct Resource (Except PkeyError α)}
    (hunmade : made = false → F (.error unmade) = 0) (hbody : made = true → Leaves F body) :
    Leaves F (withContext c made unmade body) := by
  refine Leaves.ite (fun h => Leaves.pure (hunmade h)) fun hmade m => ?_
  refine Triple.acquire_then (Triple.bind (hbody (Bool.not_eq_false _ ▸ hmade) _) ?_)
  exact Triple.release_then _ (add_left_comm _ _ _) (Triple.pure rfl)

theorem leaves_takeResultAcct (call : Option ℕ → Answer Byte) (unsized failed : PkeyError) :
    Leaves (kept .buffer) (takeResultAcct call unsized failed) := by
  unfold takeResultAcct
  split
  · intro m
    refine Triple.acquire_then ?_
    split
    · exact Triple.pure rfl
    · exact Triple.release_then m rfl (Triple.pure (zero_add m).symm)
  · exact Leaves.pure rfl

theorem leaves_applyRsaPaddingAcct (L : RsaLib κ ρ S) (k : κ) (ctx : RsaCtx)
    (padding : Option RsaPadding) :
    Leaves (fun _ => 0) (applyRsaPaddingAcct mem L k ctx padding) := by
  unfold applyRsaPaddingAcct
  split
  · split
    · exact Leaves.pure rfl
    · refine Leaves.ite (fun _ => Leaves.pure rfl) fun _ => ?_
      refine Leaves.ite (fun _ => Leaves.pure rfl) fun _ => ?_
      exact Leaves.acquire_release Resource.label (Leaves.pure rfl)
  · exact Leaves.pure rfl

theorem leaves_signWithAcct (L : RsaLib κ ρ S) (k : κ) (md : DigestAlgorithm) (d : List Byte)
    (padding : Option RsaPadding) (r : ρ) :
    Leaves (kept .buffer) (signWithAcct mem L k md d padding r) := by
  refine Leaves.bind (leaves_applyRsaPaddingAcct L k _ padding) ?_
  split
  · exact Leaves.pure rfl
  · refine Leaves.ite (fun _ => Leaves.pure rfl) fun _ m => ?_
    refine Triple.acquire_then ?_
    split
    · exact Triple.release_then m rfl (Triple.pure (zero_add m).symm)
    · exact Triple.pure rfl

theorem leaves_signAcct (L : RsaLib κ ρ S) (k : κ) (padding : Option RsaPadding) (r : ρ)
    (x : Subject) : Leaves (kept .buffer) (signAcct mem L k padding r x) := by
  have hwith (md : DigestAlgorithm) (d : List Byte) :
      Leaves (kept .buffer) (signWithAcct mem L k md d padding r) :=
    leaves_signWithAcct L k md d padding r
  cases x with
  | digest hash d =>
    refine Leaves.withContext _ _ (fun _ => rfl) fun _ => ?_
    refine Leaves.ite (fun _ => Leaves.pure rfl) fun _ => ?_
    refine Leaves.ite (fun _ => Leaves.pure rfl) fun _ => ?_
    exact Leaves.ite (fun _ => Leaves.pure rfl) fun _ => hwith _ _
  | message hash m =>
    refine Leaves.withContext _ _ (fun _ => rfl) fun _ => ?_
    refine Leaves.ite (fun _ => Leaves.pure rfl) fun _ => ?_
    exact Leaves.ite (fun _ => Leaves.pure rfl) fun _ => hwith _ _

theorem leaves_verifyAcct (L : RsaLib κ ρ S) (k : κ) (padding : Option RsaPadding) (sig : S)
    (x : Subject) : Leaves (fun _ => 0) (verifyAcct mem L k padding sig x) := by
  have hwith (md : DigestAlgorithm) (d : List Byte) :
      Leaves (fun _ => 0) (verifyWithAcct mem L k md d padding sig) := by
    refine Leaves.bind (leaves_applyRsaPaddingAcct L k _ padding) ?_
    split <;> exact Leaves.pure rfl
  cases x with
  | digest hash d =>
    refine Leaves.withContext _ _ (fun _ => rfl) fun _ => ?_
    refine Leaves.ite (fun _ => Leaves.pure rfl) fun _ => ?_
    refine Leaves.ite (fun _ => Leaves.pure rfl) fun _ => ?_
    exact Leaves.ite (fun _ => Leaves.pure rfl) fun _ => hwith _ _
  | message hash m =>
    refine Leaves.withContext _ _ (fun _ => rfl) fun _ => ?_
    refine Leaves.ite (fun _ => Leaves.pure rfl) fun _ => ?_
    exact Leaves.ite (fun _ => Leaves.pure rfl) fun _ => hwith _ _

theorem leaves_encryptAcct (X : ExchangeLib κ ρ) (L : RsaLib κ ρ S) (p : κ) (padding : RsaPadding)
    (plaintext : List Byte) (r : ρ) :
    Leaves (kept .buffer) (encryptAcct mem X L p padding plaintext r) := by
  refine Leaves.withContext _ _ (fun _ => rfl) fun _ => ?_
  refine Leaves.ite (fun _ => Leaves.pure rfl) fun _ => ?_
  refine Leaves.bind (leaves_applyRsaPaddingAcct L p _ _) ?_
  split
  · exact Leaves.pure rfl
  · exact leaves_takeResultAcct _ _ _

theorem leaves_decryptAcct (X : ExchangeLib κ ρ) (L : RsaLib κ ρ S) (p : κ) (padding : RsaPadding)
    (ciphertext : List Byte) :
    Leaves (kept .buffer) (decryptAcct mem X L p padding ciphertext) := by
  refine Leaves.withContext _ _ (fun _ => rfl) fun _ => ?_
  refine Leaves.ite (fun _ => Leaves.pure rfl) fun _ => ?_
  refine Leaves.bind (leaves_applyRsaPaddingAcct L p _ _) ?_
  split
  · exact Leaves.pure rfl
  · exact leaves_takeResultAcct _ _ _

theorem leaves_deriveAcct (X : ExchangeLib κ ρ) (p peer : κ) :
    Leaves (kept .buffer) (deriveAcct mem X p peer) :=
  Leaves.withContext _ _ (fun _ => rfl) fun _ =>
    Leaves.ite (fun _ => Leaves.pure rfl) fun _ => leaves_takeResultAcct _ _ _

theorem leaves_hasPrivateAcct (X : ExchangeLib κ ρ) (p : κ) :
    Leaves (fun _ => 0) (hasPrivateAcct X p) := by
  unfold hasPrivateAcct
  split
  · exact Leaves.pure rfl
  · exact Leaves.ite (fun _ => Leaves.acquire_release Resource.bignum (Leaves.pure rfl))
      fun _ => Leaves.pure rfl

theorem leaves_encodeKeyAcct (E : EncoderLib κ ρ) (r : ρ) (p : κ) (opts : SaveOptions)
    (wantPrivate : Bool) : Leaves (kept .buffer) (encodeKeyAcct E r p opts wantPrivate) := by
  refine Leaves.ite (fun _ => Leaves.pure rfl) fun _ m => Triple.acquire_then ?_
  refine Triple.ite (fun _ => Triple.release_then m rfl (Triple.pure (zero_add m).symm)) fun _ => ?_
  refine Triple.acquire_then (Triple.release_then ({.bio} + m) (add_left_comm _ _ _) ?_)
  split
  · exact Triple.release_then m rfl (Triple.pure (zero_add m).symm)
  · exact Triple.acquire_then (Triple.release_then _ (add_left_comm _ _ _) (Triple.pure rfl))

variable (o : ℕ)

theorem leaves_newKeyAcct (k : Option κ) (e : PkeyError) :
    Leaves (kept (.key o)) (newKeyAcct o k e) := by
  cases k with
  | none => exact Leaves.pure rfl
  | some k => exact fun m => Triple.acquire_then (Triple.pure rfl)

theorem leaves_fromRawAcct (X : ExchangeLib κ ρ) (kind : KeyType) (bytes : List Byte) :
    Leaves (kept (.key o)) (fromRawPrivateAcct X o kind bytes) ∧
      Leaves (kept (.key o)) (fromRawPublicAcct X o kind bytes) := by
  rw [fromRawPrivateAcct, fromRawPublicAcct]
  cases rawName kind with
  | none => exact ⟨Leaves.pure rfl, Leaves.pure rfl⟩
  | some name => exact ⟨leaves_newKeyAcct o _ _, leaves_newKeyAcct o _ _⟩

/-- A key that comes with a failure is not kept. -/
theorem leaves_loadKeyAcct (D : DecoderLib κ) (opts : LoadOptions) (wantPrivate : Bool)
    (out : DecoderOutcome κ) :
    Leaves (kept (.key o)) (loadKeyAcct D o opts wantPrivate out) := by
  have hfree (m : Multiset Resource) :
      ({.decoderCtx} + ({.bio} + m) : Multiset Resource) =
        (([.decoderCtx, .bio] : List Resource) : Multiset Resource) + m := by
    rw [coe_cons, add_assoc]
    rfl
  refine Leaves.ite (fun _ => Leaves.pure rfl) fun _ m => Triple.acquire_then ?_
  refine Triple.ite (fun _ => Triple.release_then m rfl (Triple.pure (zero_add m).symm)) fun _ => ?_
  refine Triple.acquire_then ?_
  split
  · exact Triple.exit ((hfree m).trans (by rw [kept]; exact congrArg _ (zero_add m).symm))
  · refine Triple.acquire_then (Triple.releaseAll_then ({.key o} + m) ?_ ?_)
    · rw [hfree]
      exact add_left_comm _ _ _
    · refine Triple.ite (fun _ => Triple.pure rfl) fun _ => ?_
      exact Triple.release_then m rfl (Triple.pure (zero_add m).symm)

/-! ### Generating -/

theorem leaves_keygenAcct (K : KeygenLib κ) (ctx : KeygenCtx) :
    Leaves (kept (.key o)) (keygenAcct K o ctx) := by
  unfold keygenAcct
  split
  · exact Leaves.pure rfl
  · exact fun m => Triple.acquire_then (Triple.pure rfl)

theorem leaves_generateGroupAcct (K : KeygenLib κ) (name group : String) :
    Leaves (kept (.key o)) (generateGroupAcct K o name group) := by
  refine Leaves.withContext _ _ (fun _ => rfl) fun _ => ?_
  refine Leaves.ite (fun _ => Leaves.pure rfl) fun _ => ?_
  exact Leaves.ite (fun _ => Leaves.pure rfl) fun _ => leaves_keygenAcct o K _

theorem leaves_generatePlainAcct (K : KeygenLib κ) (name : String) :
    Leaves (kept (.key o)) (generatePlainAcct K o name) :=
  Leaves.withContext _ _ (fun _ => rfl) fun _ =>
    Leaves.ite (fun _ => Leaves.pure rfl) fun _ => leaves_keygenAcct o K _

theorem leaves_generateDhAcct (K : KeygenLib κ) (params : ℕ) (d : DhKeygen) :
    Leaves (kept (.key o)) (generateDhAcct mem K o params d) := by
  have hfail (m : Multiset Resource) :
      Triple ({.pkeyCtx} + m)
        (do release .pkeyCtx; pure (.error .keygenFailed) : Acct Resource (Except PkeyError κ))
        fun r => kept (.key o) r + m :=
    Triple.release_then m rfl (Triple.pure (zero_add m).symm)
  refine Leaves.ite (fun _ => Leaves.pure rfl) fun _ m => Triple.acquire_then ?_
  refine Triple.ite (fun _ => hfail m) fun _ => ?_
  split
  · exact hfail m
  · -- the parameters are released as soon as the second context has them
    refine Triple.acquire_then (Triple.release_then ({.key params} + m) (add_left_comm _ _ _) ?_)
    refine Triple.release_then m rfl ?_
    refine Leaves.withContext _ _ (fun _ => rfl) (fun _ => ?_) m
    exact Leaves.ite (fun _ => Leaves.pure rfl) fun _ => leaves_keygenAcct o K _

end

section

variable {κ : Type} (P : Bignum.Platform) (K : KeygenLib κ)

def KeygenSetting.isPubexp : KeygenSetting → Bool
  | .rsaPubexp _ => true
  | _ => false

/-- A context was told a public exponent, and has accepted it. -/
def tookExponent (r : List KeygenSetting × Except PkeyError κ) : Bool :=
  r.1.any KeygenSetting.isPubexp &&
    match r.2 with
    | .error .badKeySize => false
    | _ => true

/-- The number of a public exponent that `generate` leaves behind. -/
def leavesExponent : KeygenParams → Bool
  | .rsa k => tookExponent (generateRsa P K "RSA" k)
  | .rsaPss k => tookExponent (generateRsa P K "RSA-PSS" k)
  | _ => false

variable {P K} (o : ℕ)

theorem tookExponent_runKeygen (ctx : KeygenCtx) :
    tookExponent (runKeygen K ctx) = ctx.settings.any KeygenSetting.isPubexp := by
  rw [tookExponent, runKeygen, KeygenCtx.finish]
  cases K.keygen ctx <;> exact Bool.and_true _

/-- From the exponent on, a context leaves its number if it accepts it. -/
theorem leaves_generateRsaAcct (name : String) (k : RsaKeygen) :
    Leaves (fun r => kept (.key o) r + held (tookExponent (generateRsa P K name k)) .bignum)
      (generateRsaAcct P K o name k) := by
  -- the branches of both functions are gone through side by side
  have hfail {e e' : PkeyError} {ctx : KeygenCtx}
      (h : generateRsa P K name k = ctx.finish (.error e))
      (htook : tookExponent (ctx.finish (.error e : Except PkeyError κ)) = false) :
      Leaves (fun r => kept (.key o) r + held (tookExponent (generateRsa P K name k)) .bignum)
        (pure (.error e') : Acct Resource (Except PkeyError κ)) := by
    rw [h, htook]
    exact Leaves.pure rfl
  refine Leaves.withContext _ _ (fun hnew => ?_) fun hnew => ?_
  · rw [generateRsa, if_pos (Or.inl hnew)]
    rfl
  have hnew' : ¬K.newFromName name = false := by simp [hnew]
  by_cases hinit : K.keygenInit { name } = false
  · rw [if_pos hinit]
    exact hfail (if_pos (Or.inr hinit)) rfl
  have hstart : generateRsa P K name k = _ := if_neg (not_or.mpr ⟨hnew', hinit⟩)
  rw [if_neg hinit]
  by_cases hbits : K.accepts (({ name } : KeygenCtx).tell (.rsaBits k.bits.toInt)) = false
  · refine Leaves.ite (fun _ => hfail (hstart.trans (if_pos hbits)) rfl) fun h => absurd hbits h
  refine Leaves.ite (fun h => absurd h hbits) fun _ => ?_
  have hbegin := hstart.trans (if_neg hbits)
  cases hexp : k.publicExponent with
  | none =>
    have hrun : generateRsa P K name k =
        runKeygen K (({ name } : KeygenCtx).tell (.rsaBits k.bits.toInt)) := by
      rw [hbegin, hexp]
    rw [hrun, tookExponent_runKeygen]
    simpa [held, KeygenCtx.tell, KeygenSetting.isPubexp] using leaves_keygenAcct o K _
  | some v =>
    have hnumber := hbegin
    rw [hexp] at hnumber
    refine Leaves.ite (fun h => hfail (hnumber.trans (if_pos h)) rfl) fun hbn m => ?_
    refine Triple.acquire_then (Triple.ite (fun h => ?_) fun h => ?_)
    · have hrefused := hnumber.trans ((if_neg hbn).trans (if_pos h))
      refine Triple.release_then m rfl (Triple.pure ?_)
      rw [hrefused, tookExponent, KeygenCtx.finish, Bool.and_false]
      exact (zero_add m).symm
    · -- the number stays
      have hrun := hnumber.trans ((if_neg hbn).trans (if_neg h))
      have htook : tookExponent (generateRsa P K name k) = true := by
        rw [hrun, tookExponent_runKeygen]
        rfl
      rw [htook]
      have hkeygen := leaves_keygenAcct o K
        ((({ name } : KeygenCtx).tell (.rsaBits k.bits.toInt)).tell
          (.rsaPubexp (Bignum.bnSetWord (Bignum.toBnUlong P v)))) ({.bignum} + m)
      simpa only [held, given_true, Multiset.coe_singleton, add_assoc] using hkeygen

/-- Only a reference on the new key is kept, and the number of a public exponent. -/
theorem leaves_generateAcct {mem : Memory} (params : ℕ) (ps : KeygenParams) :
    Leaves (fun r => kept (.key o) r + held (leavesExponent P K ps) .bignum)
      (generateAcct mem P K o params ps) := by
  have hkey {p : Acct Resource (Except PkeyError κ)} (h : Leaves (kept (.key o)) p) :
      Leaves (fun r => kept (.key o) r + held false .bignum) p := by
    simpa [held] using h
  cases ps with
  | rsa k => exact leaves_generateRsaAcct o _ k
  | rsaPss k => exact leaves_generateRsaAcct o _ k
  | ec c => exact hkey (leaves_generateGroupAcct o K _ _)
  | ed c => exact hkey (leaves_generatePlainAcct o K _)
  | x c => exact hkey (leaves_generatePlainAcct o K _)
  | dh d => exact hkey (leaves_generateDhAcct o K params d)
  | dhNamed g => exact hkey (leaves_generateGroupAcct o K _ _)

end

/-! ## Keys over the life of the component -/

/-- libcrypto, as it behaves in one call. -/
structure Libcrypto (κ ρ S : Type) where
  mem : Memory
  keygen : KeygenLib κ
  rsa : RsaLib κ ρ S
  exchange : ExchangeLib κ ρ
  encoder : EncoderLib κ ρ
  decoder : DecoderLib κ

inductive Call (κ ρ S : Type)
  | generate (ps : KeygenParams)
  | load (opts : LoadOptions) (wantPrivate : Bool) (out : DecoderOutcome κ)
  | fromRawPrivate (kind : KeyType) (bytes : List Byte)
  | fromRawPublic (kind : KeyType) (bytes : List Byte)
  | hasPrivate (h : ℕ)
  | rawPrivate (h : ℕ)
  | rawPublic (h : ℕ)
  | save (h : ℕ) (r : ρ) (opts : SaveOptions) (wantPrivate : Bool)
  | sign (h : ℕ) (padding : Option RsaPadding) (r : ρ) (x : Subject)
  | verify (h : ℕ) (padding : Option RsaPadding) (sig : S) (x : Subject)
  | encrypt (h : ℕ) (padding : RsaPadding) (plaintext : List Byte) (r : ρ)
  | decrypt (h : ℕ) (padding : RsaPadding) (ciphertext : List Byte)
  | derive (h peer : ℕ)
  | clone (h : ℕ)
  | drop (h : ℕ)

/-- The resources that are there, and what else is held. -/
structure State (κ : Type) where
  /-- Under each handle, the number of the key object and the key. -/
  keys : HandleTable (ℕ × κ) := .empty
  /-- The number of the next key object. -/
  objects : ℕ := 0
  /-- The number of results that callers have. -/
  results : ℕ := 0
  /-- The number of public exponents that were left behind. -/
  exponents : ℕ := 0

namespace State

variable {κ : Type} (s : State κ)

/-- What is held between two calls. -/
def owned : Multiset Resource :=
  s.keys.owned (fun _ k => {.key k.1}) + Multiset.replicate s.results .buffer +
    Multiset.replicate s.exponents .bignum

/-- A new resource, if there is a key for it. -/
def withKey (r : Except PkeyError κ) : State κ :=
  match r with
  | .ok k => { s with keys := s.keys.insert (s.objects, k), objects := s.objects + 1 }
  | .error _ => s

def withResult {α : Type} (r : Except PkeyError α) : State κ :=
  { s with results := s.results + if r.isOk then 1 else 0 }

def withExponent (c : Bool) : State κ :=
  { s with exponents := s.exponents + if c then 1 else 0 }

theorem owned_withKey (r : Except PkeyError κ) :
    (s.withKey r).owned = kept (.key s.objects) r + s.owned := by
  cases r with
  | ok k => simp only [withKey, owned, HandleTable.owned_insert, add_assoc]; rfl
  | error e => exact (zero_add _).symm

theorem replicate_add_ite (n : ℕ) (c : Bool) (x : Resource) :
    Multiset.replicate (n + if c then 1 else 0) x = held c x + Multiset.replicate n x := by
  cases c with
  | true => exact Multiset.replicate_succ x n
  | false => exact (zero_add _).symm

theorem owned_withResult {α : Type} (r : Except PkeyError α) :
    (s.withResult r).owned = kept .buffer r + s.owned := by
  simp only [withResult, owned, replicate_add_ite, kept]
  abel

theorem owned_withExponent (c : Bool) :
    (s.withExponent c).owned = held c .bignum + s.owned := by
  simp only [withExponent, owned, replicate_add_ite]
  abel

end State

section

variable {κ ρ S : Type} (P : Bignum.Platform) (s : State κ)

/-- A call on a key that is there, with what it leaves of the state. -/
def onKey {α : Type} (h : ℕ) (call : κ → Acct Resource α) (next : α → State κ) :
    List (Entry Resource) × State κ :=
  match s.keys.entry h with
  | none => ([], s)
  | some (o, k) =>
    let a : Acct Resource α := do
      use (.key o)
      call k
    (a.entries, next a.result)

/-- One call, with its ledger. -/
def step : Libcrypto κ ρ S × Call κ ρ S → List (Entry Resource) × State κ
  | (c, .generate ps) =>
    let a := generateAcct c.mem P c.keygen s.objects (s.objects + 1) ps
    (a.entries, (s.withKey a.result).withExponent (leavesExponent P c.keygen ps))
  | (c, .load opts wantPrivate out) =>
    let a := loadKeyAcct c.decoder s.objects opts wantPrivate out
    (a.entries, s.withKey a.result)
  | (c, .fromRawPrivate kind bytes) =>
    let a := fromRawPrivateAcct c.exchange s.objects kind bytes
    (a.entries, s.withKey a.result)
  | (c, .fromRawPublic kind bytes) =>
    let a := fromRawPublicAcct c.exchange s.objects kind bytes
    (a.entries, s.withKey a.result)
  | (c, .hasPrivate h) => onKey s h (hasPrivateAcct c.exchange) fun _ => s
  | (c, .rawPrivate h) => onKey s h (rawPrivateAcct c.exchange) s.withResult
  | (c, .rawPublic h) => onKey s h (rawPublicAcct c.exchange) s.withResult
  | (c, .save h r opts wantPrivate) =>
    onKey s h (encodeKeyAcct c.encoder r · opts wantPrivate) s.withResult
  | (c, .sign h padding r x) => onKey s h (signAcct c.mem c.rsa · padding r x) s.withResult
  | (c, .verify h padding sig x) => onKey s h (verifyAcct c.mem c.rsa · padding sig x) fun _ => s
  | (c, .encrypt h padding plaintext r) =>
    onKey s h (encryptAcct c.mem c.exchange c.rsa · padding plaintext r) s.withResult
  | (c, .decrypt h padding ciphertext) =>
    onKey s h (decryptAcct c.mem c.exchange c.rsa · padding ciphertext) s.withResult
  | (c, .derive h peer) =>
    match s.keys.entry peer with
    | none => ([], s)
    | some (o, p) =>
      onKey s h (fun k => do use (.key o); deriveAcct c.mem c.exchange k p) s.withResult
  | (_, .clone h) =>
    match s.keys.entry h with
    | none => ([], s)
    | some (o, k) =>
      -- the same object, with one more reference
      ((retain (.key o)).entries, { s with keys := s.keys.insert (o, k) })
  | (_, .drop h) =>
    match s.keys.entry h with
    | none => ([], s)
    | some (o, _) => ((release (.key o)).entries, { s with keys := s.keys.remove h })

variable {P s}

/-- A key that is there has a reference on its object. -/
theorem owned_of_entry {h : ℕ} {k : ℕ × κ} (hk : s.keys.entry h = some k) :
    s.owned = {.key k.1} + { s with keys := s.keys.remove h }.owned := by
  simp only [State.owned, HandleTable.owned_of_entry (fun _ (k : ℕ × κ) => {Resource.key k.1}) hk,
    add_assoc]

theorem key_mem_owned {h : ℕ} {k : ℕ × κ} (hk : s.keys.entry h = some k) : .key k.1 ∈ s.owned := by
  rw [owned_of_entry hk]
  exact Multiset.mem_add.mpr (Or.inl (Multiset.mem_singleton_self _))

/-- A call that leaves what the state after it has more. -/
theorem settle_acct {α : Type} {F : α → Multiset Resource} {a : Acct Resource α}
    (ha : Leaves F a) {s' : State κ} (hs' : s'.owned = F a.result + s.owned) :
    settle s.owned a.entries = some s'.owned :=
  (ha s.owned).trans (congrArg some hs'.symm)

theorem settle_onKey {α : Type} {F : α → Multiset Resource} {h : ℕ} {call : κ → Acct Resource α}
    (hcall : ∀ k, Triple s.owned (call k) fun r => F r + s.owned)
    {next : α → State κ} (hnext : ∀ r, (next r).owned = F r + s.owned) :
    settle s.owned (onKey s h call next).1 = some (onKey s h call next).2.owned := by
  unfold onKey
  rcases hk : s.keys.entry h with _ | ⟨o, k⟩
  · rfl
  · have hrun := Triple.use_then (f := fun _ => call k) (key_mem_owned hk) (hcall k)
    exact hrun.trans (congrArg some (hnext _).symm)

theorem settle_step (P : Bignum.Platform) (s : State κ) (e : Libcrypto κ ρ S × Call κ ρ S) :
    settle s.owned (step P s e).1 = some (step P s e).2.owned := by
  obtain ⟨c, call⟩ := e
  have hsame {α : Type} (r : α) : s.owned = (0 : Multiset Resource) + s.owned := (zero_add _).symm
  cases call with
  | generate ps =>
    refine settle_acct (leaves_generateAcct s.objects (s.objects + 1) ps) ?_
    refine (State.owned_withExponent _ _).trans ?_
    rw [State.owned_withKey, ← add_assoc, add_comm (kept _ _) (held _ _)]
  | load opts wantPrivate out =>
    exact settle_acct (leaves_loadKeyAcct _ c.decoder opts wantPrivate out) (s.owned_withKey _)
  | fromRawPrivate kind bytes =>
    exact settle_acct (leaves_fromRawAcct _ c.exchange kind bytes).1 (s.owned_withKey _)
  | fromRawPublic kind bytes =>
    exact settle_acct (leaves_fromRawAcct _ c.exchange kind bytes).2 (s.owned_withKey _)
  | hasPrivate h => exact settle_onKey (fun k => leaves_hasPrivateAcct c.exchange k _) hsame
  | rawPrivate h =>
    exact settle_onKey (fun k => leaves_takeResultAcct _ _ _ _) s.owned_withResult
  | rawPublic h =>
    exact settle_onKey (fun k => leaves_takeResultAcct _ _ _ _) s.owned_withResult
  | save h r opts wantPrivate =>
    exact settle_onKey (fun k => leaves_encodeKeyAcct c.encoder r k opts wantPrivate _)
      s.owned_withResult
  | sign h padding r x =>
    exact settle_onKey (fun k => leaves_signAcct c.rsa k padding r x _) s.owned_withResult
  | verify h padding sig x =>
    exact settle_onKey (fun k => leaves_verifyAcct c.rsa k padding sig x _) hsame
  | encrypt h padding plaintext r =>
    exact settle_onKey (fun k => leaves_encryptAcct c.exchange c.rsa k padding plaintext r _)
      s.owned_withResult
  | decrypt h padding ciphertext =>
    exact settle_onKey (fun k => leaves_decryptAcct c.exchange c.rsa k padding ciphertext _)
      s.owned_withResult
  | derive h peer =>
    rcases hp : s.keys.entry peer with _ | ⟨o, p⟩
    · simp only [step, hp, settle_nil]
    · simp only [step, hp]
      refine settle_onKey (fun k => ?_) s.owned_withResult
      exact Triple.use_then (key_mem_owned hp) (leaves_deriveAcct c.exchange k p _)
  | clone h =>
    rcases hk : s.keys.entry h with _ | ⟨o, k⟩
    · simp only [step, hk, settle_nil]
    · simp only [step, hk]
      refine (Triple.retain (key_mem_owned hk)).trans (congrArg some ?_)
      simp only [State.owned, HandleTable.owned_insert, add_assoc]
  | drop h =>
    rcases hk : s.keys.entry h with _ | ⟨o, k⟩
    · simp only [step, hk, settle_nil]
    · simp only [step, hk]
      rw [owned_of_entry hk]
      exact Triple.release

/-- What a key has is a reference on its object. -/
theorem State.exists_of_key_mem {s : State κ} {o : ℕ} (h : .key o ∈ s.owned) :
    ∃ k key, s.keys.entry k = some (o, key) := by
  have hmem : Resource.key o ∈ s.keys.owned fun _ (k : ℕ × κ) => {Resource.key k.1} := by
    rcases Multiset.mem_add.mp h with h | h
    · rcases Multiset.mem_add.mp h with h | h
      · exact h
      · cases Multiset.eq_of_mem_replicate h
    · cases Multiset.eq_of_mem_replicate h
  obtain ⟨k, ⟨o', key⟩, hk, ho⟩ := (HandleTable.mem_owned _).mp hmem
  cases Multiset.mem_singleton.mp ho
  exact ⟨k, key, hk⟩

/-- In any order of calls on keys that come, are copied and go, whatever libcrypto does in each:
nothing is used or released that is not held; between two calls only references on the objects of
keys that are there are held, results, and the numbers of public exponents. An object that no key
stands for any more has been released as often as it was acquired, and contexts, labels and BIOs
after every call. -/
theorem settle_keys (P : Bignum.Platform) (calls : List (Libcrypto κ ρ S × Call κ ρ S)) :
    let l := log id (run (step P) {} calls).1
    let s := (run (step P) {} calls).2
    settle 0 l = some s.owned ∧
      (∀ o, (∀ h key, s.keys.entry h ≠ some (o, key)) →
        l.count (.release (.key o)) = l.count (.acquire (.key o))) ∧
      (∀ x ∈ [Resource.pkeyCtx, .mdCtx, .label, .bio, .encoderCtx, .decoderCtx],
        l.count (.release x) = l.count (.acquire x)) ∧
      l.count (.acquire .bignum) = l.count (.release .bignum) + s.exponents := by
  intro l s
  have hstep : ∀ (s : State κ) (e : Libcrypto κ ρ S × Call κ ρ S), True →
      settle s.owned (id (step P s e).1) = some (step P s e).2.owned ∧ True :=
    fun s e _ => ⟨settle_step P s e, trivial⟩
  have h : settle 0 l = some s.owned := (settle_run hstep (s := {}) trivial calls).1
  have hcount (x : Resource) : l.count (.acquire x) = s.owned.count x + l.count (.release x) := by
    have := count_settle h x
    rwa [Multiset.count_zero, zero_add] at this
  have hnone {x : Resource} (hx : x ∉ s.owned) : l.count (.release x) = l.count (.acquire x) := by
    rw [hcount, Multiset.count_eq_zero.mpr hx, zero_add]
  refine ⟨h, fun o ho => hnone fun hmem => ?_, fun x hx => hnone fun hmem => ?_, ?_⟩
  · obtain ⟨k, key, hk⟩ := s.exists_of_key_mem hmem
    exact ho k key hk
  · -- nothing of this sort belongs to the state
    rcases Multiset.mem_add.mp hmem with hmem | hmem
    · rcases Multiset.mem_add.mp hmem with hmem | hmem
      · obtain ⟨k, ⟨o, key⟩, -, ho⟩ := (HandleTable.mem_owned _).mp hmem
        obtain rfl := Multiset.mem_singleton.mp ho
        simp at hx
      · obtain rfl := Multiset.eq_of_mem_replicate hmem
        simp at hx
    · obtain rfl := Multiset.eq_of_mem_replicate hmem
      simp at hx
  · have hkeys : Resource.bignum ∉ s.keys.owned fun _ (k : ℕ × κ) => {Resource.key k.1} := by
      intro hmem
      obtain ⟨k, ⟨o, key⟩, -, ho⟩ := (HandleTable.mem_owned _).mp hmem
      cases Multiset.mem_singleton.mp ho
    have hexponents : s.owned.count .bignum = s.exponents := by
      simp only [State.owned, Multiset.count_add, Multiset.count_eq_zero.mpr hkeys,
        Multiset.count_replicate, reduceCtorEq, if_true, if_false, zero_add]
    rw [hcount, hexponents, add_comm]

end

end OpenSSLWasm.Pkey
