import OpenSSLWasm.Bignum
import OpenSSLWasm.Pkey.Basic

/-!
# Generating keys

`pkey.generate` in `src/pkey.c` sets up a generation context of libcrypto and runs it. The contexts
enter the model as a parameter, with all that they are told.

## Main definitions

* `KeygenParams`: the parameters of the interface;
* `KeygenSetting` and `KeygenCtx`: what a context is told;
* `generate`: the call;
* `ExponentExact`: the public exponent reaches libcrypto unchanged.

## Main results

* `exponentExact_iff`: the exponents that reach libcrypto unchanged.
-/

namespace OpenSSLWasm.Pkey

open Bignum

/-! ## Parameters -/

/-- `curve`. -/
inductive Curve
  | p192
  | p224
  | p256
  | p384
  | p521
  | secp256k1
  | brainpoolP256r1
  | brainpoolP384r1
  | brainpoolP512r1
  | sm2
  deriving DecidableEq, Repr

/-- `edwards-curve`. -/
inductive EdwardsCurve
  | ed25519
  | ed448
  deriving DecidableEq, Repr

/-- `montgomery-curve`. -/
inductive MontgomeryCurve
  | x25519
  | x448
  deriving DecidableEq, Repr

/-- `dh-group`. -/
inductive DhGroup
  | ffdhe2048
  | ffdhe3072
  | ffdhe4096
  | ffdhe6144
  | ffdhe8192
  | modp2048
  | modp3072
  | modp4096
  | modp6144
  | modp8192
  deriving DecidableEq, Repr

def curveName : Curve → String
  | .p192 => "P-192"
  | .p224 => "P-224"
  | .p256 => "P-256"
  | .p384 => "P-384"
  | .p521 => "P-521"
  | .secp256k1 => "secp256k1"
  | .brainpoolP256r1 => "brainpoolP256r1"
  | .brainpoolP384r1 => "brainpoolP384r1"
  | .brainpoolP512r1 => "brainpoolP512r1"
  | .sm2 => "SM2"

def edwardsName : EdwardsCurve → String
  | .ed25519 => "ED25519"
  | .ed448 => "ED448"

def montgomeryName : MontgomeryCurve → String
  | .x25519 => "X25519"
  | .x448 => "X448"

def dhGroupName : DhGroup → String
  | .ffdhe2048 => "ffdhe2048"
  | .ffdhe3072 => "ffdhe3072"
  | .ffdhe4096 => "ffdhe4096"
  | .ffdhe6144 => "ffdhe6144"
  | .ffdhe8192 => "ffdhe8192"
  | .modp2048 => "modp_2048"
  | .modp3072 => "modp_3072"
  | .modp4096 => "modp_4096"
  | .modp6144 => "modp_6144"
  | .modp8192 => "modp_8192"

/-- `rsa-keygen`. -/
structure RsaKeygen where
  bits : BitVec 32
  publicExponent : Option (BitVec 64) := none
  deriving DecidableEq, Repr

/-- `dh-keygen`. -/
structure DhKeygen where
  primeBits : BitVec 32
  generator : BitVec 32
  deriving DecidableEq, Repr

/-- `keygen-params`. -/
inductive KeygenParams
  | rsa (k : RsaKeygen)
  | rsaPss (k : RsaKeygen)
  | ec (c : Curve)
  | ed (c : EdwardsCurve)
  | x (c : MontgomeryCurve)
  | dh (d : DhKeygen)
  | dhNamed (g : DhGroup)
  deriving DecidableEq, Repr

/-! ## Contexts -/

/-- What a context is told. -/
inductive KeygenSetting
  /-- `EVP_PKEY_CTX_set_rsa_keygen_bits`. -/
  | rsaBits (n : ℤ)
  /-- `EVP_PKEY_CTX_set1_rsa_keygen_pubexp`. -/
  | rsaPubexp (e : ℤ)
  | groupName (name : String)
  | dhParams (pbits generator : BitVec 32)
  deriving DecidableEq, Repr

/-- `EVP_PKEY_CTX`: the name of the key type, and what it was told, the last setting first. -/
structure KeygenCtx where
  name : String
  settings : List KeygenSetting := []

def KeygenCtx.tell (ctx : KeygenCtx) (s : KeygenSetting) : KeygenCtx :=
  { ctx with settings := s :: ctx.settings }

/-- Key generation in libcrypto, over a type `κ` of keys. -/
structure KeygenLib (κ : Type) where
  /-- `EVP_PKEY_CTX_new_from_name` succeeds. -/
  newFromName : String → Bool
  keygenInit : KeygenCtx → Bool
  paramgenInit : KeygenCtx → Bool
  /-- The last setting is accepted. -/
  accepts : KeygenCtx → Bool
  /-- `BN_new` and `BN_set_word` get their memory. -/
  bnNew : Bool
  /-- `EVP_PKEY_paramgen`, and a context for the parameters that it gives. -/
  paramgen : KeygenCtx → Option KeygenCtx
  keygen : KeygenCtx → Option κ

section

variable {κ : Type} (P : Platform) (L : KeygenLib κ)

/-- A call that stops, with all that the context was told. -/
def KeygenCtx.finish {κ : Type} (ctx : KeygenCtx) (r : Except PkeyError κ) :
    List KeygenSetting × Except PkeyError κ :=
  (ctx.settings, r)

/-- `EVP_PKEY_keygen`. -/
def runKeygen (ctx : KeygenCtx) : List KeygenSetting × Except PkeyError κ :=
  ctx.finish (orError (L.keygen ctx) .keygenFailed)

/-- The cases `KEYGEN_RSA` and `KEYGEN_RSA_PSS`. -/
def generateRsa (name : String) (k : RsaKeygen) : List KeygenSetting × Except PkeyError κ :=
  let ctx : KeygenCtx := { name }
  if L.newFromName name = false ∨ L.keygenInit ctx = false then ctx.finish (.error .keygenFailed)
  else
    let ctx := ctx.tell (.rsaBits k.bits.toInt)
    if L.accepts ctx = false then ctx.finish (.error .badKeySize)
    else
      match k.publicExponent with
      | none => runKeygen L ctx
      | some v =>
        if L.bnNew = false then ctx.finish (.error .badKeySize)
        else
          -- the argument of `BN_set_word` is a `BN_ULONG`, so the value is converted to one
          let ctx := ctx.tell (.rsaPubexp (bnSetWord (toBnUlong P v)))
          if L.accepts ctx = false then ctx.finish (.error .badKeySize)
          else runKeygen L ctx

/-- The cases that name a group. -/
def generateGroup (name group : String) : List KeygenSetting × Except PkeyError κ :=
  let ctx : KeygenCtx := { name }
  if L.newFromName name = false ∨ L.keygenInit ctx = false then ctx.finish (.error .keygenFailed)
  else
    let ctx := ctx.tell (.groupName group)
    if L.accepts ctx = false then ctx.finish (.error .keygenFailed)
    else runKeygen L ctx

/-- The cases that set nothing. -/
def generatePlain (name : String) : List KeygenSetting × Except PkeyError κ :=
  let ctx : KeygenCtx := { name }
  if L.newFromName name = false ∨ L.keygenInit ctx = false then ctx.finish (.error .keygenFailed)
  else runKeygen L ctx

/-- The case `KEYGEN_DH`. -/
def generateDh (d : DhKeygen) : List KeygenSetting × Except PkeyError κ :=
  let ctx : KeygenCtx := { name := "DH" }
  if L.newFromName "DH" = false ∨ L.paramgenInit ctx = false then
    ctx.finish (.error .keygenFailed)
  else
    -- nobody asks whether the parameters are accepted
    let ctx := ctx.tell (.dhParams d.primeBits d.generator)
    match L.paramgen ctx with
    | none => ctx.finish (.error .keygenFailed)
    | some ctx =>
      if L.keygenInit ctx = false then ctx.finish (.error .keygenFailed) else runKeygen L ctx

/-- `pkey.generate`: all that the context was told, and the result. -/
def generate : KeygenParams → List KeygenSetting × Except PkeyError κ
  | .rsa k => generateRsa P L "RSA" k
  | .rsaPss k => generateRsa P L "RSA-PSS" k
  | .ec c => generateGroup L "EC" (curveName c)
  | .ed c => generatePlain L (edwardsName c)
  | .x c => generatePlain L (montgomeryName c)
  | .dh d => generateDh L d
  | .dhNamed g => generateGroup L "DH" (dhGroupName g)

end

/-! ## Public exponents -/

/-- The parameters ask for an RSA key with the public exponent. -/
def KeygenParams.AsksFor (params : KeygenParams) (v : BitVec 64) : Prop :=
  ∃ k : RsaKeygen, k.publicExponent = some v ∧ (params = .rsa k ∨ params = .rsaPss k)

/-- Whatever libcrypto answers, the exponent that it is handed is the one that was asked for, and
the `BIGNUM` of that number. -/
def ExponentExact (P : Platform) (v : BitVec 64) : Prop :=
  bnFromU64 P v = v.toNat ∧
    ∀ (κ : Type) (L : KeygenLib κ) (params : KeygenParams), params.AsksFor v →
      ∀ e : ℤ, .rsaPubexp e ∈ (generate P L params).1 → e = v.toNat ∧ e = bnFromU64 P v

/-- What is handed to libcrypto is the exponent as a `BN_ULONG`. -/
theorem eq_of_rsaPubexp_mem {κ : Type} {P : Platform} {L : KeygenLib κ} {name : String}
    {k : RsaKeygen} {v : BitVec 64} {e : ℤ} (hk : k.publicExponent = some v)
    (he : .rsaPubexp e ∈ (generateRsa P L name k).1) : e = bnSetWord (toBnUlong P v) := by
  simp only [generateRsa, hk] at he
  -- the branches differ in how far they get
  split_ifs at he <;> simp_all [runKeygen, KeygenCtx.finish, KeygenCtx.tell]

/-- A libcrypto that accepts everything. -/
def referenceKeygen : KeygenLib Unit where
  newFromName _ := true
  keygenInit _ := true
  paramgenInit _ := true
  accepts _ := true
  bnNew := true
  paramgen ctx := some ctx
  keygen _ := some ()

/-- The exponents that reach libcrypto unchanged are those that fit into a `BN_ULONG`. -/
theorem exponentExact_iff (P : Platform) (v : BitVec 64) :
    ExponentExact P v ↔ P = .lp64 ∨ v.toNat < 2 ^ 32 := by
  rw [← bnSetWord_toBnUlong_eq_iff]
  constructor
  · rintro ⟨-, h⟩
    -- with a libcrypto that accepts everything, the word is handed over
    have hmem : .rsaPubexp (bnSetWord (toBnUlong P v)) ∈
        (generate P referenceKeygen (.rsa { bits := 2048, publicExponent := some v })).1 := by
      simp [generate, generateRsa, runKeygen, KeygenCtx.finish, KeygenCtx.tell, referenceKeygen]
    exact (h Unit referenceKeygen _ ⟨_, rfl, Or.inl rfl⟩ _ hmem).1
  · intro h
    refine ⟨bnFromU64_eq P v, fun κ L params hparams e he => ?_⟩
    obtain ⟨k, hk, rfl | rfl⟩ := hparams <;>
    · rw [eq_of_rsaPubexp_mem hk he, bnFromU64_eq]
      exact ⟨h, h⟩

/-- On wasm32, the exponent `2 ^ 32 + 3` becomes 3. -/
theorem not_exponentExact_wasm32 : ¬ExponentExact .wasm32 0x100000003 := by
  intro h
  have hmem : .rsaPubexp 3 ∈ (generate .wasm32 referenceKeygen
      (.rsa { bits := 2048, publicExponent := some 0x100000003 })).1 := by decide
  exact absurd (h.2 Unit referenceKeygen _ ⟨_, rfl, Or.inl rfl⟩ 3 hmem).1 (by decide)

end OpenSSLWasm.Pkey
