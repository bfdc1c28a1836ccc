import OpenSSLWasm.Error
import OpenSSLWasm.Lib.SizeProbe
import OpenSSLWasm.Pkey.Generate
import OpenSSLWasm.Pkey.RsaPadding

/-!
# Keys that are exchanged

The calls of `src/pkey.c` by which two parties come to use each other's keys: a key is generated,
says of what kind it is, gives its public half as raw bytes, and is made from such bytes; then a
secret is derived from two keys, or a message is encrypted under one. All calls with a result ask
libcrypto for its size first. libcrypto is a parameter of the model.

## Main definitions

* `ExchangeLib`: what libcrypto answers;
* `kind`, `hasPrivate`, `rawPublic`, `rawPrivate`, `fromRawPublic`, `fromRawPrivate`, `encrypt`,
  `decrypt` and `derive`: the calls;
* `KeyView` and `ExchangeLib.Documented`: what keys are, and what libcrypto promises about them.

## Main results

* `generated_reports`: a generated key is of the kind that was asked for, and has a private half;
* `raw_roundTrip`: what raw bytes carry over from one key to another;
* `derive_agrees`: two parties that exchange raw public keys derive the same secret;
* `decrypt_encrypt`: an encrypted message is decrypted, with settings of libcrypto that belong to no
  other padding.
-/

namespace OpenSSLWasm.Pkey

open SizeProbe

/-! ## libcrypto -/

/-- `key-type`. -/
inductive KeyType
  | rsa
  | rsaPss
  | ec (c : Curve)
  | ed (c : EdwardsCurve)
  | x (c : MontgomeryCurve)
  | dh
  deriving DecidableEq

/-- What `EVP_PKEY_get_base_id` returns. -/
inductive BaseId
  | rsa
  | rsaPss
  | ec
  | ed25519
  | ed448
  | x25519
  | x448
  | dh
  | other (id : ℤ)
  deriving DecidableEq

/-- libcrypto, over a type `κ` of keys and a source of randomness `ρ`. -/
structure ExchangeLib (κ ρ : Type) where
  baseId : κ → BaseId
  /-- `EVP_PKEY_get_group_name`, for a buffer of some size. -/
  groupName : κ → ℕ → Option String
  /-- `EVP_PKEY_get_utf8_string_param` for the name of the group. -/
  groupNameParam : κ → ℕ → Option String
  /-- `EVP_PKEY_get_bn_param`. -/
  bnParam : κ → String → Option ℤ
  newRawPrivate : String → List Byte → Option κ
  newRawPublic : String → List Byte → Option κ
  getRawPrivate : κ → Option ℕ → Answer Byte
  getRawPublic : κ → Option ℕ → Answer Byte
  /-- The contexts can be made and initialised. -/
  encryptInit : κ → Bool
  decryptInit : κ → Bool
  deriveInit : κ → Bool
  setPeer : κ → κ → Bool
  encrypt : κ → RsaCtx → List Byte → ρ → Option ℕ → Answer Byte
  decrypt : κ → RsaCtx → List Byte → Option ℕ → Answer Byte
  derive : κ → κ → Option ℕ → Answer Byte
  peekLastError : BitVec 32

section

variable {κ ρ S : Type} (X : ExchangeLib κ ρ) (L : RsaLib κ ρ S)

/-! ## The calls -/

/-- The curve that `pkey.kind` knows under a name. -/
def curveOf (grp : String) : Option Curve :=
  if grp = "P-192" ∨ grp = "prime192v1" ∨ grp = "secp192r1" then some .p192
  else if grp = "P-224" ∨ grp = "secp224r1" then some .p224
  else if grp = "P-256" ∨ grp = "prime256v1" ∨ grp = "secp256r1" then some .p256
  else if grp = "P-384" ∨ grp = "secp384r1" then some .p384
  else if grp = "P-521" ∨ grp = "secp521r1" then some .p521
  else if grp = "secp256k1" then some .secp256k1
  else if grp = "brainpoolP256r1" then some .brainpoolP256r1
  else if grp = "brainpoolP384r1" then some .brainpoolP384r1
  else if grp = "brainpoolP512r1" then some .brainpoolP512r1
  else if grp = "SM2" then some .sm2
  else none

/-- `pkey.kind`. -/
def kind (p : κ) : KeyType :=
  match X.baseId p with
  | .rsa => .rsa
  | .rsaPss => .rsaPss
  | .ec =>
    -- P-256 if the group has no name, or one that is not known
    .ec (((X.groupName p 80 <|> X.groupNameParam p 80).bind curveOf).getD .p256)
  | .ed25519 => .ed .ed25519
  | .ed448 => .ed .ed448
  | .x25519 => .x .x25519
  | .x448 => .x .x448
  | .dh => .dh
  | .other _ => .rsa

/-- `pkey.has-private`, which leaves no errors behind, whatever was in the queue. -/
def hasPrivate (p : κ) (_queue : ErrorQueue) : Bool × ErrorQueue :=
  let found := match X.getRawPrivate p none with
    | .size _ => true
    | _ => (X.bnParam p "priv").isSome || (X.bnParam p "d").isSome
  (found, [])

/-- How the calls get a result: the size is asked for, and the result goes to a buffer of this size,
of which as much is kept as was written. -/
def takeResult (call : Option ℕ → Answer Byte) (unsized failed : PkeyError) :
    Except PkeyError (List Byte) :=
  match call none with
  | .size n => orError (call (some n)).result? failed
  | _ => .error unsized

/-- The name under which raw keys of a kind are made. -/
def rawName : KeyType → Option String
  | .ed c => some (edwardsName c)
  | .x c => some (montgomeryName c)
  | _ => none

def fromRawPrivate (kind : KeyType) (bytes : List Byte) : Except PkeyError κ :=
  match rawName kind with
  | none => .error .unsupportedType
  | some name => orError (X.newRawPrivate name bytes) .badEncoding

def fromRawPublic (kind : KeyType) (bytes : List Byte) : Except PkeyError κ :=
  match rawName kind with
  | none => .error .unsupportedType
  | some name => orError (X.newRawPublic name bytes) .badEncoding

def rawPrivate (p : κ) : Except PkeyError (List Byte) :=
  takeResult (X.getRawPrivate p) .unsupportedType (.internal X.peekLastError)

def rawPublic (p : κ) : Except PkeyError (List Byte) :=
  takeResult (X.getRawPublic p) .unsupportedType (.internal X.peekLastError)

/-- A context to encrypt or decrypt with, before it is told a padding. -/
def cryptCtx : RsaCtx where
  md := .sha1
  mgf1Md := .sha1

def encrypt (p : κ) (padding : RsaPadding) (plaintext : List Byte) (r : ρ) :
    Except PkeyError (List Byte) :=
  if X.encryptInit p = false then .error .encryptFailed
  else
    match applyRsaPadding L p cryptCtx (some padding) with
    | none => .error .encryptFailed
    | some ctx => takeResult (X.encrypt p ctx plaintext r) .encryptFailed .encryptFailed

def decrypt (p : κ) (padding : RsaPadding) (ciphertext : List Byte) :
    Except PkeyError (List Byte) :=
  if X.decryptInit p = false then .error .decryptFailed
  else
    match applyRsaPadding L p cryptCtx (some padding) with
    | none => .error .decryptFailed
    | some ctx => takeResult (X.decrypt p ctx ciphertext) .decryptFailed .decryptFailed

def derive (p peer : κ) : Except PkeyError (List Byte) :=
  if X.deriveInit p = false ∨ X.setPeer p peer = false then .error .deriveFailed
  else takeResult (X.derive p peer) .deriveFailed .deriveFailed

/-! ## What is promised -/

/-- A function with an output buffer has a result, and room for it where it says so. -/
structure Delivers (call : Option ℕ → Answer Byte) (r : Option (List Byte)) : Prop where
  sized : r ≠ none → ∃ n, call none = .size n
  result : ∀ n, call none = .size n → (call (some n)).result? = r

theorem Delivers.eq_none {call : Option ℕ → Answer Byte} {r : Option (List Byte)}
    (h : Delivers call r) (hcall : ∀ n, call none ≠ .size n) : r = none := by
  by_contra hr
  obtain ⟨n, hn⟩ := h.sized hr
  exact hcall n hn

theorem takeResult_eq_ok {call : Option ℕ → Answer Byte} {r : Option (List Byte)}
    (h : Delivers call r) {unsized failed : PkeyError} {bs : List Byte} :
    takeResult call unsized failed = .ok bs ↔ r = some bs := by
  rw [takeResult]
  cases hcall : call none with
  | size n => exact orError_eq_ok.trans (by rw [h.result n hcall])
  | failed needed =>
    have hnone : r = none := h.eq_none (by rw [hcall]; nofun)
    simp [hnone]
  | result bs' =>
    have hnone : r = none := h.eq_none (by rw [hcall]; nofun)
    simp [hnone]

/-- What keys are. -/
structure KeyView (κ ρ : Type) where
  publicBytes : κ → List Byte
  privateBytes : κ → Option (List Byte)
  /-- The key without its private half. -/
  publicOnly : κ → κ
  /-- The secret that two keys share, the first with its private half. -/
  secret : κ → κ → Option (List Byte)
  encrypted : κ → RsaCtx → List Byte → ρ → Option (List Byte)
  decrypted : κ → RsaCtx → List Byte → Option (List Byte)

/-- What a key of a named type is. -/
def baseIdOf (name : String) : Option BaseId :=
  if name = "RSA" then some .rsa
  else if name = "RSA-PSS" then some .rsaPss
  else if name = "EC" then some .ec
  else if name = "ED25519" then some .ed25519
  else if name = "ED448" then some .ed448
  else if name = "X25519" then some .x25519
  else if name = "X448" then some .x448
  else if name = "DH" then some .dh
  else none

/-- The names that libcrypto may report for the group of a curve. -/
def groupAliases : Curve → List String
  | .p192 => ["P-192", "prime192v1", "secp192r1"]
  | .p224 => ["P-224", "secp224r1"]
  | .p256 => ["P-256", "prime256v1", "secp256r1"]
  | .p384 => ["P-384", "secp384r1"]
  | .p521 => ["P-521", "secp521r1"]
  | .secp256k1 => ["secp256k1"]
  | .brainpoolP256r1 => ["brainpoolP256r1"]
  | .brainpoolP384r1 => ["brainpoolP384r1"]
  | .brainpoolP512r1 => ["brainpoolP512r1"]
  | .sm2 => ["SM2"]

/-- The types of keys that have raw bytes. -/
def BaseId.rawName : BaseId → Option String
  | .ed25519 => some "ED25519"
  | .ed448 => some "ED448"
  | .x25519 => some "X25519"
  | .x448 => some "X448"
  | _ => none

/-- A key comes from a generator. -/
def Generated (K : KeygenLib κ) (k : κ) : Prop :=
  ∃ ctx, K.keygen ctx = some k

/-- The setters accept the same for two keys. -/
structure SameSettings (k k' : κ) : Prop where
  padMode : L.acceptsPadMode k = L.acceptsPadMode k'
  mgf1Md : L.acceptsMgf1Md k = L.acceptsMgf1Md k'
  oaepMd : L.acceptsOaepMd k = L.acceptsOaepMd k'
  oaepLabel : L.acceptsOaepLabel k = L.acceptsOaepLabel k'

variable (K : KeygenLib κ) (V : KeyView κ ρ)

/-- The documented behaviour of libcrypto, where encryption is ideal: a message is found exactly
with the settings it was encrypted with. -/
structure ExchangeLib.Documented : Prop where
  paramgen_name : ∀ {ctx ctx'}, K.paramgen ctx = some ctx' → ctx'.name = ctx.name
  baseId_keygen : ∀ {ctx k id}, K.keygen ctx = some k → baseIdOf ctx.name = some id →
    X.baseId k = id
  groupName_keygen : ∀ {ctx k c}, K.keygen ctx = some k → ctx.name = "EC" →
    ctx.settings.head? = some (.groupName (curveName c)) →
    ∃ grp ∈ groupAliases c, X.groupName k 80 = some grp
  /-- A generated key has a private half, which can be asked for in one of these ways. -/
  private_keygen : ∀ {k}, Generated K k →
    ((X.baseId k).rawName ≠ none → (V.privateBytes k).isSome = true) ∧
      ((X.baseId k).rawName = none →
        (X.bnParam k "priv").isSome = true ∨ (X.bnParam k "d").isSome = true)
  getRawPrivate : ∀ {k}, (X.baseId k).rawName ≠ none →
    Delivers (X.getRawPrivate k) (V.privateBytes k)
  getRawPublic : ∀ {k}, (X.baseId k).rawName ≠ none →
    Delivers (X.getRawPublic k) (some (V.publicBytes k))
  /-- What has raw bytes has no numbers. -/
  bnParam_eq_none : ∀ {k}, (X.baseId k).rawName ≠ none → ∀ key, X.bnParam k key = none
  newRawPrivate : ∀ {k name bs}, (X.baseId k).rawName = some name → V.privateBytes k = some bs →
    X.newRawPrivate name bs = some k
  newRawPublic : ∀ {k name}, (X.baseId k).rawName = some name →
    X.newRawPublic name (V.publicBytes k) = some (V.publicOnly k)
  baseId_publicOnly : ∀ k, X.baseId (V.publicOnly k) = X.baseId k
  publicBytes_publicOnly : ∀ k, V.publicBytes (V.publicOnly k) = V.publicBytes k
  privateBytes_publicOnly : ∀ k, V.privateBytes (V.publicOnly k) = none
  /-- Without the private half not even its size is known. -/
  getRawPrivate_publicOnly : ∀ k n, X.getRawPrivate (V.publicOnly k) none ≠ .size n
  derive : ∀ k peer, Delivers (X.derive k peer) (V.secret k peer)
  secret_comm : ∀ {a b}, (V.privateBytes a).isSome = true → (V.privateBytes b).isSome = true →
    V.secret a (V.publicOnly b) = V.secret b (V.publicOnly a)
  encrypt : ∀ k ctx m r, Delivers (X.encrypt k ctx m r) (V.encrypted k ctx m r)
  decrypt : ∀ k ctx c, Delivers (X.decrypt k ctx c) (V.decrypted k ctx c)
  decrypted_encrypted : ∀ {k ctx m r c}, V.encrypted (V.publicOnly k) ctx m r = some c →
    V.decrypted k ctx c = some m
  /-- PSS is for signatures. -/
  encrypted_pss : ∀ {k ctx m r}, ctx.padMode = .pss → V.encrypted k ctx m r = none
  sameSettings : ∀ k, SameSettings L k (V.publicOnly k)

variable {X L K V}

/-! ## Kinds -/

/-- The kind that the parameters ask for. -/
def KeygenParams.keyType : KeygenParams → KeyType
  | .rsa _ => .rsa
  | .rsaPss _ => .rsaPss
  | .ec c => .ec c
  | .ed c => .ed c
  | .x c => .x c
  | .dh _ => .dh
  | .dhNamed _ => .dh

/-- All names of a curve are known. -/
theorem curveOf_of_mem_groupAliases :
    ∀ c, ∀ grp ∈ groupAliases c, curveOf grp = some c := by
  intro c
  cases c <;> decide

/-- The name of the context that generates a key. -/
def KeygenParams.typeName : KeygenParams → String
  | .rsa _ => "RSA"
  | .rsaPss _ => "RSA-PSS"
  | .ec _ => "EC"
  | .ed c => edwardsName c
  | .x c => montgomeryName c
  | .dh _ => "DH"
  | .dhNamed _ => "DH"

theorem runKeygen_eq_ok {ctx : KeygenCtx} {k : κ} (h : (runKeygen K ctx).2 = .ok k) :
    K.keygen ctx = some k :=
  orError_eq_ok.mp h

/-- A key is generated by a context of the type that the parameters name, and for a curve the name
of the group is the last thing that it was told. -/
theorem generate_eq_ok {P : Bignum.Platform} {params : KeygenParams} {k : κ}
    (hX : X.Documented L K V) (h : (generate P K params).2 = .ok k) :
    ∃ ctx, K.keygen ctx = some k ∧ ctx.name = params.typeName ∧
      ∀ c, params = .ec c → ctx.settings.head? = some (.groupName (curveName c)) := by
  have hrsa : ∀ name k', (generateRsa P K name k').2 = .ok k →
      ∃ ctx, K.keygen ctx = some k ∧ ctx.name = name := by
    intro name k' h
    cases hexp : k'.publicExponent with
    | none =>
      simp only [generateRsa, hexp] at h
      split_ifs at h <;> try cases h
      exact ⟨_, runKeygen_eq_ok h, rfl⟩
    | some v =>
      simp only [generateRsa, hexp] at h
      split_ifs at h <;> try cases h
      exact ⟨_, runKeygen_eq_ok h, rfl⟩
  have hgroup : ∀ name group, (generateGroup K name group).2 = .ok k →
      ∃ ctx, K.keygen ctx = some k ∧ ctx.name = name ∧
        ctx.settings.head? = some (.groupName group) := by
    intro name group h
    simp only [generateGroup] at h
    split_ifs at h <;> try cases h
    exact ⟨_, runKeygen_eq_ok h, rfl, rfl⟩
  have hplain : ∀ name, (generatePlain K name).2 = .ok k →
      ∃ ctx, K.keygen ctx = some k ∧ ctx.name = name := by
    intro name h
    simp only [generatePlain] at h
    split_ifs at h <;> try cases h
    exact ⟨_, runKeygen_eq_ok h, rfl⟩
  cases params with
  | rsa k' =>
    obtain ⟨ctx, hk, hname⟩ := hrsa _ _ h
    exact ⟨ctx, hk, hname, fun c hc => by cases hc⟩
  | rsaPss k' =>
    obtain ⟨ctx, hk, hname⟩ := hrsa _ _ h
    exact ⟨ctx, hk, hname, fun c hc => by cases hc⟩
  | ec c =>
    obtain ⟨ctx, hk, hname, hsettings⟩ := hgroup _ _ h
    refine ⟨ctx, hk, hname, fun c' hc' => ?_⟩
    obtain rfl := KeygenParams.ec.inj hc'
    exact hsettings
  | ed c =>
    obtain ⟨ctx, hk, hname⟩ := hplain _ h
    exact ⟨ctx, hk, hname, fun c hc => by cases hc⟩
  | x c =>
    obtain ⟨ctx, hk, hname⟩ := hplain _ h
    exact ⟨ctx, hk, hname, fun c hc => by cases hc⟩
  | dh d =>
    -- the key is generated in a context for the parameters, which is of their type
    simp only [generate, generateDh] at h
    split_ifs at h <;> try cases h
    cases hparams : K.paramgen
        (({ name := "DH" } : KeygenCtx).tell (.dhParams d.primeBits d.generator)) with
    | none =>
      rw [hparams] at h
      cases h
    | some ctx =>
      simp only [hparams] at h
      split_ifs at h <;> try cases h
      exact ⟨ctx, runKeygen_eq_ok h, hX.paramgen_name hparams, fun c hc => by cases hc⟩
  | dhNamed g =>
    obtain ⟨ctx, hk, hname, -⟩ := hgroup _ _ h
    exact ⟨ctx, hk, hname, fun c hc => by cases hc⟩

/-- The base id of a generated key. -/
def KeygenParams.baseId : KeygenParams → BaseId
  | .rsa _ => .rsa
  | .rsaPss _ => .rsaPss
  | .ec _ => .ec
  | .ed .ed25519 => .ed25519
  | .ed .ed448 => .ed448
  | .x .x25519 => .x25519
  | .x .x448 => .x448
  | .dh _ => .dh
  | .dhNamed _ => .dh

theorem baseIdOf_typeName (params : KeygenParams) :
    baseIdOf params.typeName = some params.baseId := by
  cases params with
  | rsa k' => exact (by decide : baseIdOf "RSA" = some .rsa)
  | rsaPss k' => exact (by decide : baseIdOf "RSA-PSS" = some .rsaPss)
  | ec c => exact (by decide : baseIdOf "EC" = some .ec)
  | ed c => cases c <;> decide
  | x c => cases c <;> decide
  | dh d => exact (by decide : baseIdOf "DH" = some .dh)
  | dhNamed g => exact (by decide : baseIdOf "DH" = some .dh)

theorem baseId_generate {P : Bignum.Platform} {params : KeygenParams} {k : κ}
    (hX : X.Documented L K V) (h : (generate P K params).2 = .ok k) :
    X.baseId k = params.baseId := by
  obtain ⟨ctx, hk, hname, -⟩ := generate_eq_ok hX h
  exact hX.baseId_keygen hk (hname ▸ baseIdOf_typeName params)

/-- A key with raw bytes is of the kind under whose name it is made from them. -/
theorem rawName_kind (k : κ) : rawName (kind X k) = (X.baseId k).rawName := by
  rw [kind]
  cases X.baseId k <;> rfl

/-- The question of `has-private` is answered by the private half. -/
theorem hasPrivate_of_raw {k : κ} (hX : X.Documented L K V) (hraw : (X.baseId k).rawName ≠ none)
    (hprivate : (V.privateBytes k).isSome = true) (q : ErrorQueue) :
    (hasPrivate X k q).1 = true := by
  obtain ⟨n, hn⟩ := (hX.getRawPrivate hraw).sized (Option.isSome_iff_ne_none.mp hprivate)
  simp only [hasPrivate, hn]

/-- A generated key is of the kind that was asked for. -/
theorem kind_generate (hX : X.Documented L K V) {P : Bignum.Platform} {params : KeygenParams}
    {k : κ} (h : (generate P K params).2 = .ok k) : kind X k = params.keyType := by
  obtain ⟨ctx, hk, hname, hgroup⟩ := generate_eq_ok hX h
  rw [kind, baseId_generate hX h]
  cases params with
  | ec c =>
    obtain ⟨grp, hgrp, hreported⟩ := hX.groupName_keygen hk hname (hgroup c rfl)
    show KeyType.ec _ = KeyType.ec c
    have hcurve := curveOf_of_mem_groupAliases c grp hgrp
    simp [hreported, hcurve]
  | ed c => cases c <;> rfl
  | x c => cases c <;> rfl
  | rsa k' => rfl
  | rsaPss k' => rfl
  | dh d => rfl
  | dhNamed g => rfl

/-- A generated key has a private half, and to find that out leaves no error behind. -/
theorem hasPrivate_generate (hX : X.Documented L K V) {P : Bignum.Platform}
    {params : KeygenParams} {k : κ} (h : (generate P K params).2 = .ok k) (q : ErrorQueue) :
    hasPrivate X k q = (true, []) := by
  obtain ⟨ctx, hk, -⟩ := generate_eq_ok hX h
  obtain ⟨hraw, hnumber⟩ := hX.private_keygen ⟨ctx, hk⟩
  refine Prod.ext ?_ rfl
  by_cases hname : (X.baseId k).rawName = none
  · have hbn := hnumber hname
    simp only [hasPrivate]
    split
    · rfl
    · simpa using hbn
  · exact hasPrivate_of_raw hX hname (hraw hname) q

/-! ## Raw bytes -/

theorem fromRawPrivate_kind {k : κ} {name : String} (hname : (X.baseId k).rawName = some name)
    (bytes : List Byte) :
    fromRawPrivate X (kind X k) bytes = orError (X.newRawPrivate name bytes) .badEncoding := by
  rw [fromRawPrivate, rawName_kind, hname]

theorem fromRawPublic_kind {k : κ} {name : String} (hname : (X.baseId k).rawName = some name)
    (bytes : List Byte) :
    fromRawPublic X (kind X k) bytes = orError (X.newRawPublic name bytes) .badEncoding := by
  rw [fromRawPublic, rawName_kind, hname]

theorem kind_publicOnly (hX : X.Documented L K V) {k : κ} (hraw : (X.baseId k).rawName ≠ none) :
    kind X (V.publicOnly k) = kind X k := by
  have hid := hX.baseId_publicOnly k
  cases hk : X.baseId k <;> simp_all [kind, BaseId.rawName]

theorem not_hasPrivate_publicOnly (hX : X.Documented L K V) {k : κ}
    (hraw : (X.baseId k).rawName ≠ none) (q : ErrorQueue) :
    (hasPrivate X (V.publicOnly k) q).1 = false := by
  have hpublic : (X.baseId (V.publicOnly k)).rawName ≠ none := by rwa [hX.baseId_publicOnly]
  simp only [hasPrivate]
  split
  next n hn => exact absurd hn (hX.getRawPrivate_publicOnly k n)
  next => simp [hX.bnParam_eq_none hpublic]

/-- The bytes of a private half make the same key again, under the kind that the key reports; those
of a public half make a key of this kind with the same public half and no private one. For a kind
that is not Edwards or Montgomery, no key is made from bytes. -/
theorem raw_roundTrip (hX : X.Documented L K V) (k : κ) (q : ErrorQueue) :
    ((X.baseId k).rawName ≠ none →
      (∀ bs, rawPrivate X k = .ok bs → fromRawPrivate X (kind X k) bs = .ok k) ∧
        ∃ bs k', rawPublic X k = .ok bs ∧ fromRawPublic X (kind X k) bs = .ok k' ∧
          rawPublic X k' = .ok bs ∧ kind X k' = kind X k ∧ (hasPrivate X k' q).1 = false) ∧
      ((X.baseId k).rawName = none → ∀ bs,
        fromRawPrivate X (kind X k) bs = .error .unsupportedType ∧
          fromRawPublic X (kind X k) bs = .error .unsupportedType) := by
  refine ⟨fun hraw => ⟨fun bs hbs => ?_, ?_⟩, fun hraw bs => ?_⟩
  · obtain ⟨name, hname⟩ := Option.ne_none_iff_exists'.mp hraw
    have hprivate := (takeResult_eq_ok (hX.getRawPrivate hraw)).mp hbs
    rw [fromRawPrivate_kind hname, hX.newRawPrivate hname hprivate]
    rfl
  · obtain ⟨name, hname⟩ := Option.ne_none_iff_exists'.mp hraw
    have hpublic : (X.baseId (V.publicOnly k)).rawName ≠ none := by rwa [hX.baseId_publicOnly]
    refine ⟨V.publicBytes k, V.publicOnly k, ?_, ?_, ?_, kind_publicOnly hX hraw,
      not_hasPrivate_publicOnly hX hraw q⟩
    · exact (takeResult_eq_ok (hX.getRawPublic hraw)).mpr rfl
    · rw [fromRawPublic_kind hname, hX.newRawPublic hname]
      rfl
    · refine (takeResult_eq_ok (hX.getRawPublic hpublic)).mpr ?_
      rw [hX.publicBytes_publicOnly]
  · rw [fromRawPrivate, fromRawPublic, rawName_kind, hraw]
    exact ⟨rfl, rfl⟩

/-- A generated key is of the kind that was asked for, and has a private half. If the kind is an
Edwards or a Montgomery one, the raw bytes of the private half make the same key again, and those of
the public half a key with the same public half and no private one; for any other kind no key is
made from bytes. -/
theorem generated_reports (hX : X.Documented L K V) (P : Bignum.Platform) {params : KeygenParams}
    {k : κ} (h : (generate P K params).2 = .ok k) (q : ErrorQueue) :
    kind X k = params.keyType ∧ hasPrivate X k q = (true, []) ∧
      (rawName params.keyType ≠ none →
        (∀ bs, rawPrivate X k = .ok bs → fromRawPrivate X params.keyType bs = .ok k) ∧
          ∃ bs k', rawPublic X k = .ok bs ∧ fromRawPublic X params.keyType bs = .ok k' ∧
            rawPublic X k' = .ok bs ∧ kind X k' = params.keyType ∧
            (hasPrivate X k' q).1 = false) ∧
      (rawName params.keyType = none → ∀ bs,
        fromRawPrivate X params.keyType bs = .error .unsupportedType ∧
          fromRawPublic X params.keyType bs = .error .unsupportedType) := by
  have hkind := kind_generate hX h
  obtain ⟨hraw, hother⟩ := raw_roundTrip hX k q
  rw [← rawName_kind, hkind] at hraw hother
  exact ⟨hkind, hasPrivate_generate hX h q, hraw, hother⟩

/-! ## Secrets -/

theorem derive_eq_ok (hX : X.Documented L K V) {k peer : κ} {s : List Byte} :
    derive X k peer = .ok s ↔
      (X.deriveInit k = true ∧ X.setPeer k peer = true) ∧ V.secret k peer = some s := by
  rw [derive, ite_error_eq_ok, takeResult_eq_ok (hX.derive k peer), not_or, Bool.not_eq_false,
    Bool.not_eq_false]

/-- What the other party makes of the raw public half of a generated key. -/
theorem sent_of_generate (hX : X.Documented L K V) {P : Bignum.Platform} {c : MontgomeryCurve}
    {k : κ} (hk : (generate P K (.x c)).2 = .ok k) :
    rawPublic X k = .ok (V.publicBytes k) ∧
      fromRawPublic X (.x c) (V.publicBytes k) = .ok (V.publicOnly k) ∧
      (V.privateBytes k).isSome = true := by
  have hraw : (X.baseId k).rawName ≠ none := by
    rw [baseId_generate hX hk]
    cases c <;> nofun
  obtain ⟨name, hname⟩ := Option.ne_none_iff_exists'.mp hraw
  obtain ⟨ctx, hctx, -⟩ := generate_eq_ok hX hk
  refine ⟨(takeResult_eq_ok (hX.getRawPublic hraw)).mpr rfl, ?_,
    (hX.private_keygen ⟨ctx, hctx⟩).1 hraw⟩
  have hkind : kind X k = .x c := kind_generate hX hk
  rw [← hkind, fromRawPublic_kind hname, hX.newRawPublic hname]
  rfl

/-- Two parties generate keys for a Montgomery curve, each with its own randomness, and send each
other the raw public halves. The keys that they make of these are there, and what one of them
derives, the other derives too. -/
theorem derive_agrees {K' : KeygenLib κ} (hX : X.Documented L K V) (hX' : X.Documented L K' V)
    (P : Bignum.Platform) {c : MontgomeryCurve} {a b : κ}
    (ha : (generate P K (.x c)).2 = .ok a) (hb : (generate P K' (.x c)).2 = .ok b) :
    ∃ pa pb a' b', rawPublic X a = .ok pa ∧ rawPublic X b = .ok pb ∧
      fromRawPublic X (.x c) pa = .ok a' ∧ fromRawPublic X (.x c) pb = .ok b' ∧
      ∀ s, derive X a b' = .ok s → X.deriveInit b = true → X.setPeer b a' = true →
        derive X b a' = .ok s := by
  obtain ⟨hpa, ha', hprivateA⟩ := sent_of_generate hX ha
  obtain ⟨hpb, hb', hprivateB⟩ := sent_of_generate hX' hb
  refine ⟨_, _, _, _, hpa, hpb, ha', hb', fun s hs hinit hpeer => ?_⟩
  have hsecret := ((derive_eq_ok hX).mp hs).2
  rw [hX.secret_comm hprivateA hprivateB] at hsecret
  exact (derive_eq_ok hX).mpr ⟨⟨hinit, hpeer⟩, hsecret⟩

/-! ## Encryption -/

/-- The padding that a context to encrypt with was told. -/
def RsaCtx.padding? (ctx : RsaCtx) : Option RsaPadding :=
  match ctx.padMode with
  | .pkcs1 => some .pkcs1
  | .none => some .noPadding
  | .oaep => ctx.oaepMd.map fun h => .pkcs1Oaep ⟨h, ctx.mgf1Md, ctx.oaepLabel⟩
  | .pss => none

theorem set_eq_some {b : Bool} {ctx ctx' : RsaCtx} :
    RsaCtx.set b ctx = some ctx' ↔ b = true ∧ ctx = ctx' := by
  rw [RsaCtx.set]
  split_ifs with hb <;> simp [hb]

/-- Nothing of a padding is lost, unless it is one for signatures. -/
theorem padding?_of_apply {k : κ} {pad : RsaPadding} {ctx : RsaCtx}
    (h : applyRsaPadding L k cryptCtx (some pad) = some ctx) (hpss : ctx.padMode ≠ .pss) :
    ctx.padding? = some pad := by
  cases pad with
  | pkcs1 =>
    obtain ⟨-, rfl⟩ := set_eq_some.mp h
    rfl
  | noPadding =>
    obtain ⟨-, rfl⟩ := set_eq_some.mp h
    rfl
  | pkcs1Oaep p =>
    simp only [applyRsaPadding, Option.bind_eq_bind, Option.bind_eq_some_iff] at h
    obtain ⟨_, h₁, h⟩ := h
    obtain ⟨-, rfl⟩ := set_eq_some.mp h₁
    split_ifs at h with hav hlabel
    · -- an empty label is not set, and none is the default
      simp only [Option.bind_eq_some_iff] at h
      obtain ⟨_, h₂, _, h₃, h⟩ := h
      obtain ⟨-, rfl⟩ := set_eq_some.mp h₂
      obtain ⟨-, rfl⟩ := set_eq_some.mp h₃
      obtain rfl := Option.some.inj h
      obtain ⟨hash, mgf1Hash, label⟩ := p
      obtain rfl : label = [] := hlabel
      rfl
    · simp only [Option.bind_eq_some_iff] at h
      obtain ⟨_, h₂, _, h₃, h⟩ := h
      obtain ⟨-, rfl⟩ := set_eq_some.mp h₂
      obtain ⟨-, rfl⟩ := set_eq_some.mp h₃
      obtain ⟨-, rfl⟩ := set_eq_some.mp h
      rfl
  | pkcs1Pss p =>
    simp only [applyRsaPadding, Option.bind_eq_bind, Option.bind_eq_some_iff] at h
    obtain ⟨_, h₁, h⟩ := h
    obtain ⟨-, rfl⟩ := set_eq_some.mp h₁
    split_ifs at h with hav
    simp only [Option.bind_eq_some_iff] at h
    obtain ⟨_, h₂, h⟩ := h
    obtain ⟨-, rfl⟩ := set_eq_some.mp h₂
    obtain ⟨-, rfl⟩ := set_eq_some.mp h
    exact absurd rfl hpss

/-- Keys for which the same settings are accepted take the same paddings. -/
theorem applyRsaPadding_congr {k k' : κ} (h : SameSettings L k k') (ctx : RsaCtx)
    (pad : Option RsaPadding) : applyRsaPadding L k ctx pad = applyRsaPadding L k' ctx pad := by
  obtain ⟨hpad, hmgf, hmd, hlabel⟩ := h
  rcases pad with _ | (_ | p | p | _) <;> simp only [applyRsaPadding, hpad, hmgf, hmd, hlabel]

theorem encrypt_eq_ok (hX : X.Documented L K V) {k : κ} {pad : RsaPadding} {m c : List Byte}
    {r : ρ} :
    encrypt X L k pad m r = .ok c ↔
      X.encryptInit k = true ∧ ∃ ctx, applyRsaPadding L k cryptCtx (some pad) = some ctx ∧
        V.encrypted k ctx m r = some c := by
  rw [encrypt, ite_error_eq_ok, Bool.not_eq_false]
  refine and_congr_right fun _ => ?_
  cases applyRsaPadding L k cryptCtx (some pad) with
  | none => simp
  | some ctx => simp [takeResult_eq_ok (hX.encrypt k ctx m r)]

theorem decrypt_eq_ok (hX : X.Documented L K V) {k : κ} {pad : RsaPadding} {m c : List Byte} :
    decrypt X L k pad c = .ok m ↔
      X.decryptInit k = true ∧ ∃ ctx, applyRsaPadding L k cryptCtx (some pad) = some ctx ∧
        V.decrypted k ctx c = some m := by
  rw [decrypt, ite_error_eq_ok, Bool.not_eq_false]
  refine and_congr_right fun _ => ?_
  cases applyRsaPadding L k cryptCtx (some pad) with
  | none => simp
  | some ctx => simp [takeResult_eq_ok (hX.decrypt k ctx c)]

/-- A message that is encrypted under the public half of a key is found by the private half with
the same padding. What libcrypto is told to decrypt with is told for no other padding, down to the
label. -/
theorem decrypt_encrypt (hX : X.Documented L K V) {k : κ} {pad : RsaPadding} {m c : List Byte}
    {r : ρ} (h : encrypt X L (V.publicOnly k) pad m r = .ok c) (hinit : X.decryptInit k = true) :
    decrypt X L k pad c = .ok m ∧
      ∃ ctx, applyRsaPadding L k cryptCtx (some pad) = some ctx ∧
        ∀ pad', applyRsaPadding L k cryptCtx (some pad') = some ctx → pad' = pad := by
  obtain ⟨-, ctx, hctx, henc⟩ := (encrypt_eq_ok hX).mp h
  rw [← applyRsaPadding_congr (hX.sameSettings k)] at hctx
  have hpss : ctx.padMode ≠ .pss := by
    intro hpss
    rw [hX.encrypted_pss hpss] at henc
    cases henc
  refine ⟨(decrypt_eq_ok hX).mpr ⟨hinit, ctx, hctx, hX.decrypted_encrypted henc⟩, ctx, hctx,
    fun pad' hctx' => ?_⟩
  have hpad := padding?_of_apply hctx hpss
  rw [padding?_of_apply hctx' hpss] at hpad
  exact Option.some.inj hpad

end

/-! ## A libcrypto that behaves so -/

/-- A key with a number of which three times is public, and with a group if it has a curve. -/
structure ToyKey where
  id : BaseId
  group : Option String
  number : Byte
  hasNumber : Bool
  group_eq_none : id ≠ .ec → group = none
  deriving DecidableEq

def ToyKey.pub (k : ToyKey) : Byte := 3 * k.number

/-- A key of a type other than EC. -/
def ToyKey.ofId (id : BaseId) (number : Byte) (hasNumber : Bool) : ToyKey where
  id
  group := none
  number
  hasNumber
  group_eq_none _ := rfl

/-- A generator that draws a given number. -/
def toyKeygen (number : Byte) : KeygenLib ToyKey where
  newFromName _ := true
  keygenInit _ := true
  paramgenInit _ := true
  accepts _ := true
  bnNew := true
  paramgen ctx := some ctx
  keygen ctx :=
    match ctx.settings.head?, baseIdOf ctx.name with
    | some (.groupName grp), some .ec => some ⟨.ec, some grp, number, true, fun h => absurd rfl h⟩
    | _, some id => some (.ofId id number true)
    | _, none => none

/-- The settings that the encryption knows. -/
def toyCtx : RsaCtx := { cryptCtx with padMode := .pkcs1 }

def toyView : KeyView ToyKey Unit where
  publicBytes k := [k.pub]
  privateBytes k := if k.hasNumber then some [k.number] else none
  publicOnly k := { k with hasNumber := false }
  secret k peer := if k.hasNumber then some [k.number * peer.pub] else none
  encrypted _ ctx m _ := if ctx = toyCtx then some (0 :: m) else none
  decrypted _ ctx c := if ctx = toyCtx then some c.tail else none

/-- A call that has a result, if there is one. -/
def offer (r : Option (List Byte)) (room : Option ℕ) : Answer Byte :=
  match r, room with
  | none, _ => .failed none
  | some bs, none => .size bs.length
  | some bs, some n => if bs.length ≤ n then .result bs else .failed (some bs.length)

theorem delivers_offer (r : Option (List Byte)) : Delivers (offer r) r := by
  cases r with
  | none => exact ⟨fun h => absurd rfl h, nofun⟩
  | some bs =>
    refine ⟨fun _ => ⟨_, rfl⟩, fun n hn => ?_⟩
    obtain rfl := Answer.size.inj hn
    simp [offer]

def toyExchange : ExchangeLib ToyKey Unit where
  baseId k := k.id
  groupName k _ := k.group
  groupNameParam _ _ := none
  bnParam k key := if k.id.rawName = none ∧ key = "priv" then some k.number.toNat else none
  newRawPrivate name bs :=
    (baseIdOf name).bind fun id => bs.head?.map fun b => .ofId id b true
  newRawPublic name bs :=
    -- 171 is the inverse of 3
    (baseIdOf name).bind fun id => bs.head?.map fun b => .ofId id (171 * b) false
  getRawPrivate k := offer (toyView.privateBytes k)
  getRawPublic k := offer (some (toyView.publicBytes k))
  encryptInit _ := true
  decryptInit _ := true
  deriveInit _ := true
  setPeer _ _ := true
  encrypt k ctx m r := offer (toyView.encrypted k ctx m r)
  decrypt k ctx c := offer (toyView.decrypted k ctx c)
  derive k peer := offer (toyView.secret k peer)
  peekLastError := 0

/-- A setter that accepts everything. -/
def toyRsa : RsaLib ToyKey Unit Unit where
  available _ := true
  init _ := true
  acceptsMd _ _ := true
  acceptsPadMode _ _ := true
  acceptsMgf1Md _ _ := true
  acceptsOaepMd _ _ := true
  acceptsOaepLabel _ _ := true
  signSize _ := true
  digest _ _ := []
  digestLen _ := 0
  maxSalt _ _ := 0
  pssSign _ _ _ _ _ _ := ()
  pssVerify _ _ _ _ _ _ := true
  signOther _ _ _ _ := none
  verifyOther _ _ _ _ := none
  peekLastError := 0

theorem baseIdOf_rawName {id : BaseId} {name : String} (h : id.rawName = some name) :
    baseIdOf name = some id := by
  cases id <;> cases h <;> decide

theorem ofId_eq {k : ToyKey} (hid : k.id ≠ .ec) : ToyKey.ofId k.id k.number k.hasNumber = k := by
  obtain ⟨id, group, number, hasNumber, hgroup⟩ := k
  obtain rfl : group = none := hgroup hid
  rfl

theorem toyKeygen_eq_some {number : Byte} {ctx : KeygenCtx} {k : ToyKey}
    (h : (toyKeygen number).keygen ctx = some k) :
    baseIdOf ctx.name = some k.id ∧ k.hasNumber = true ∧
      ∀ grp, k.id = .ec → ctx.settings.head? = some (.groupName grp) → k.group = some grp := by
  dsimp only [toyKeygen] at h
  split at h
  next grp hsettings hid =>
    obtain rfl := Option.some.inj h
    refine ⟨hid, rfl, fun grp' _ hgrp => ?_⟩
    rw [hsettings] at hgrp
    cases hgrp
    rfl
  next id hid hne =>
    obtain rfl := Option.some.inj h
    refine ⟨hid, rfl, fun grp hec hgrp => ?_⟩
    obtain rfl : id = .ec := hec
    exact (hne grp hgrp rfl).elim
  next => cases h

theorem toy_documented (number : Byte) :
    toyExchange.Documented toyRsa (toyKeygen number) toyView where
  paramgen_name h := Option.some.inj h ▸ rfl
  baseId_keygen h hid := by
    rw [(toyKeygen_eq_some h).1] at hid
    exact Option.some.inj hid
  groupName_keygen {ctx k c} h hname hgroup := by
    obtain ⟨hid, -, hgrp⟩ := toyKeygen_eq_some h
    have hec : k.id = .ec := by
      rw [hname] at hid
      exact (Option.some.inj hid).symm
    exact ⟨curveName c, by cases c <;> decide, hgrp _ hec hgroup⟩
  private_keygen {k} h := by
    obtain ⟨ctx, hctx⟩ := h
    obtain ⟨-, hnumber, -⟩ := toyKeygen_eq_some hctx
    refine ⟨fun _ => ?_, fun hname => Or.inl ?_⟩
    · simp [toyView, hnumber]
    · have hraw : k.id.rawName = none := hname
      simp [toyExchange, hraw]
  getRawPrivate _ := delivers_offer _
  getRawPublic _ := delivers_offer _
  bnParam_eq_none hname key := if_neg fun h => hname h.1
  newRawPrivate {k name bs} hname hbs := by
    have hid : k.id ≠ .ec := by
      intro hec
      have : k.id.rawName = some name := hname
      rw [hec] at this
      cases this
    simp only [toyView, Option.ite_none_right_eq_some, Option.some.injEq] at hbs
    obtain ⟨hnumber, rfl⟩ := hbs
    show ((baseIdOf name).bind fun id => some (ToyKey.ofId id k.number true)) = some k
    rw [baseIdOf_rawName hname, Option.bind_some, ← hnumber]
    exact congrArg some (ofId_eq hid)
  newRawPublic {k name} hname := by
    have hid : k.id ≠ .ec := by
      intro hec
      have : k.id.rawName = some name := hname
      rw [hec] at this
      cases this
    have hnumber : 171 * (3 * k.number) = k.number := by
      rw [← BitVec.mul_assoc]
      exact BitVec.one_mul _
    show ((baseIdOf name).bind fun id => some (ToyKey.ofId id (171 * (3 * k.number)) false)) = _
    rw [baseIdOf_rawName hname, Option.bind_some, hnumber]
    exact congrArg some (ofId_eq (k := toyView.publicOnly k) hid)
  baseId_publicOnly _ := rfl
  publicBytes_publicOnly _ := rfl
  privateBytes_publicOnly _ := rfl
  getRawPrivate_publicOnly _ _ := nofun
  derive _ _ := delivers_offer _
  secret_comm {a b} ha hb := by
    have ha : a.hasNumber = true := by simpa [toyView] using ha
    have hb : b.hasNumber = true := by simpa [toyView] using hb
    have hcomm : a.number * (3 * b.number) = b.number * (3 * a.number) := by
      rw [BitVec.mul_comm a.number, BitVec.mul_comm b.number, BitVec.mul_assoc,
        BitVec.mul_assoc, BitVec.mul_comm b.number]
    simp only [toyView, ha, hb, if_true, ToyKey.pub]
    rw [hcomm]
  encrypt _ _ _ _ := delivers_offer _
  decrypt _ _ _ := delivers_offer _
  decrypted_encrypted {k ctx m r c} h := by
    simp only [toyView, Option.ite_none_right_eq_some, Option.some.injEq] at h ⊢
    obtain ⟨rfl, rfl⟩ := h
    exact ⟨rfl, rfl⟩
  encrypted_pss h := if_neg fun hctx => by
    rw [hctx] at h
    cases h
  sameSettings _ := ⟨rfl, rfl, rfl, rfl⟩

/-- A key for X25519, of which the raw bytes are exchanged. -/
theorem generated_reports_toy :
    ∃ k, (generate .wasm32 (toyKeygen 5) (.x .x25519)).2 = .ok k ∧
      kind toyExchange k = .x .x25519 ∧ rawPrivate toyExchange k = .ok [5] ∧
      fromRawPrivate toyExchange (.x .x25519) [5] = .ok k := by
  have h : (generate .wasm32 (toyKeygen 5) (.x .x25519)).2 = .ok (.ofId .x25519 5 true) := by decide
  obtain ⟨hkind, -, hraw, -⟩ := generated_reports (toy_documented 5) .wasm32 h []
  exact ⟨_, h, hkind, by decide, (hraw nofun).1 [5] (by decide)⟩

/-- The numbers 5 and 7 are drawn, and 15 and 21 are sent. -/
theorem derive_agrees_toy :
    ∃ a b a' b', (generate .wasm32 (toyKeygen 5) (.x .x25519)).2 = .ok a ∧
      (generate .wasm32 (toyKeygen 7) (.x .x25519)).2 = .ok b ∧
      fromRawPublic toyExchange (.x .x25519) [15] = .ok a' ∧
      fromRawPublic toyExchange (.x .x25519) [21] = .ok b' ∧
      derive toyExchange a b' = .ok [105] ∧ derive toyExchange b a' = .ok [105] := by
  have ha : (generate .wasm32 (toyKeygen 5) (.x .x25519)).2 = .ok (.ofId .x25519 5 true) := by
    decide
  have hb : (generate .wasm32 (toyKeygen 7) (.x .x25519)).2 = .ok (.ofId .x25519 7 true) := by
    decide
  obtain ⟨pa, pb, a', b', hpa, hpb, ha', hb', hagree⟩ :=
    derive_agrees (toy_documented 5) (toy_documented 7) .wasm32 ha hb
  obtain rfl : [15] = pa := Except.ok.inj hpa
  obtain rfl : [21] = pb := Except.ok.inj hpb
  have hsecret : derive toyExchange (.ofId .x25519 5 true) b' = .ok [105] := by
    obtain rfl : ToyKey.ofId .x25519 7 false = b' := Except.ok.inj hb'
    decide
  exact ⟨_, _, a', b', ha, hb, ha', hb', hsecret, hagree _ hsecret rfl rfl⟩

theorem decrypt_encrypt_toy :
    decrypt toyExchange toyRsa (.ofId .rsa 5 true) .pkcs1 [0, 1, 2] = .ok [1, 2] ∧
      ∃ ctx, applyRsaPadding toyRsa (.ofId .rsa 5 true) cryptCtx (some .pkcs1) = some ctx ∧
        ∀ pad', applyRsaPadding toyRsa (.ofId .rsa 5 true) cryptCtx (some pad') = some ctx →
          pad' = .pkcs1 := by
  have henc : encrypt toyExchange toyRsa (toyView.publicOnly (.ofId .rsa 5 true)) .pkcs1 [1, 2] () =
      .ok [0, 1, 2] := by decide
  exact decrypt_encrypt (toy_documented 5) henc rfl

end OpenSSLWasm.Pkey
