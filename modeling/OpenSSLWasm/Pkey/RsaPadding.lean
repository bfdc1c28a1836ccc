import OpenSSLWasm.Pkey.Basic

/-!
# Signatures with RSA paddings

`src/pkey.c` signs and verifies messages and digests with a padding of the interface, which one
helper, `apply_rsa_padding`, translates into settings of an `EVP_PKEY_CTX`. For PSS the interface
gives three parameters: a hash, the hash of the mask generation, and a length of the salt, of which
the negative values are codes. libcrypto enters the model as a parameter whose PSS is ideal.

## Main definitions

* `RsaPadding` and `PssParams`: the paddings of the interface;
* `RsaCtx` and `RsaLib`: the settings of libcrypto, and what it does with them;
* `applyRsaPadding`, `sign` and `verify`: the calls, for messages and digests;
* `PssContract`: a signature is accepted exactly with the parameters it was made with.

## Main results

* `sign_pss_eq_ok`, `verify_pss_eq_ok`: what the calls do with a padding for PSS;
* `pssContract_iff`: when they do what the interface promises.
-/

namespace OpenSSLWasm.Pkey

/-! ## Paddings -/

/-- `pss-params`. -/
structure PssParams where
  hash : DigestAlgorithm
  mgf1Hash : DigestAlgorithm
  /-- An `s32`: -1 stands for the length of the digest, -2 for the maximum. -/
  saltLen : ℤ
  deriving DecidableEq, Repr

/-- `oaep-params`. -/
structure OaepParams where
  hash : DigestAlgorithm
  mgf1Hash : DigestAlgorithm
  label : List Byte
  deriving DecidableEq, Repr

/-- `rsa-padding`. -/
inductive RsaPadding
  | pkcs1
  | pkcs1Oaep (p : OaepParams)
  | pkcs1Pss (p : PssParams)
  | noPadding
  deriving DecidableEq, Repr

/-- The padding modes of libcrypto. -/
inductive PadMode
  | pkcs1
  | oaep
  | pss
  | none
  deriving DecidableEq, Repr

/-- The settings of an `EVP_PKEY_CTX` for an RSA key. -/
structure RsaCtx where
  md : DigestAlgorithm
  padMode : PadMode := .pkcs1
  mgf1Md : DigestAlgorithm
  pssSaltlen : ℤ := -2
  oaepMd : Option DigestAlgorithm := none
  oaepLabel : List Byte := []
  deriving DecidableEq, Repr

/-- libcrypto, over types `κ` of keys, `ρ` of randomness and `S` of signatures. -/
structure RsaLib (κ ρ S : Type) where
  /-- `wit_digest_md` knows the digest. -/
  available : DigestAlgorithm → Bool
  /-- The context can be made and initialised. -/
  init : κ → Bool
  /-- The settings that the setters accept. -/
  acceptsMd : κ → DigestAlgorithm → Bool
  acceptsPadMode : κ → PadMode → Bool
  acceptsMgf1Md : κ → DigestAlgorithm → Bool
  acceptsOaepMd : κ → DigestAlgorithm → Bool
  acceptsOaepLabel : κ → List Byte → Bool
  /-- The size of a signature is known. -/
  signSize : κ → Bool
  digest : DigestAlgorithm → List Byte → List Byte
  digestLen : DigestAlgorithm → ℕ
  /-- The longest salt that fits the key with a digest. -/
  maxSalt : κ → DigestAlgorithm → ℕ
  /-- PSS with a digest, a mask generation and a salt of some length. -/
  pssSign : κ → DigestAlgorithm → DigestAlgorithm → ℕ → List Byte → ρ → S
  /-- PSS, with a salt of one length, or of any. -/
  pssVerify : κ → DigestAlgorithm → DigestAlgorithm → Option ℕ → List Byte → S → Bool
  /-- The other paddings. -/
  signOther : κ → RsaCtx → List Byte → ρ → Option S
  /-- What `EVP_PKEY_verify` answers for them, unless it is negative. -/
  verifyOther : κ → RsaCtx → List Byte → S → Option Bool
  /-- `ERR_peek_last_error`. -/
  peekLastError : BitVec 32

/-- PSS is ideal: a signature verifies exactly with the parameters and the digest it was made for,
and with a length of the salt that is its own, or left open. The default hash is there. -/
structure RsaLib.Ideal {κ ρ S : Type} (L : RsaLib κ ρ S) : Prop where
  available_sha256 : L.available .sha256 = true
  pssVerify_pssSign : ∀ k md md' mgf mgf' n len d d' r,
    L.pssVerify k md' mgf' len d' (L.pssSign k md mgf n d r) = true ↔
      md' = md ∧ mgf' = mgf ∧ d' = d ∧ ∀ m ∈ len, m = n

section

variable {κ ρ S : Type} (L : RsaLib κ ρ S)

/-! ## The calls -/

/-- The setters of the context: `none` where they refuse a setting. -/
def RsaCtx.set (accepts : Bool) (ctx : RsaCtx) : Option RsaCtx :=
  if accepts then some ctx else none

/-- `EVP_PKEY_CTX_set_rsa_pss_saltlen`, which knows the codes from -3 on. -/
def RsaCtx.setPssSaltlen (ctx : RsaCtx) (saltlen : ℤ) : Option RsaCtx :=
  RsaCtx.set (decide (-3 ≤ saltlen)) { ctx with pssSaltlen := saltlen }

def applyRsaPadding (k : κ) (ctx : RsaCtx) : Option RsaPadding → Option RsaCtx
  | none => some ctx
  | some .pkcs1 => RsaCtx.set (L.acceptsPadMode k .pkcs1) { ctx with padMode := .pkcs1 }
  | some .noPadding => RsaCtx.set (L.acceptsPadMode k .none) { ctx with padMode := .none }
  | some (.pkcs1Oaep p) => do
    let ctx ← RsaCtx.set (L.acceptsPadMode k .oaep) { ctx with padMode := .oaep }
    if ¬(L.available p.hash ∧ L.available p.mgf1Hash) then none
    else
      let ctx ← RsaCtx.set (L.acceptsOaepMd k p.hash) { ctx with oaepMd := some p.hash }
      let ctx ← RsaCtx.set (L.acceptsMgf1Md k p.mgf1Hash) { ctx with mgf1Md := p.mgf1Hash }
      if p.label = [] then some ctx
      else RsaCtx.set (L.acceptsOaepLabel k p.label) { ctx with oaepLabel := p.label }
  | some (.pkcs1Pss p) => do
    -- the hash of the padding is not looked at
    let ctx ← RsaCtx.set (L.acceptsPadMode k .pss) { ctx with padMode := .pss }
    if ¬L.available p.mgf1Hash then none
    else
      let ctx ← RsaCtx.set (L.acceptsMgf1Md k p.mgf1Hash) { ctx with mgf1Md := p.mgf1Hash }
      ctx.setPssSaltlen p.saltLen

/-- The length of the salt that libcrypto uses for a code: -1 is the length of the digest, -2 and
-3 are the maximum. -/
def opensslSaltlen (k : κ) (md : DigestAlgorithm) (code : ℤ) : ℕ :=
  if 0 ≤ code then code.toNat else if code = -1 then L.digestLen md else L.maxSalt k md

/-- `EVP_PKEY_sign` with a buffer, and the end of `EVP_DigestSign`. -/
def evpPkeySign (k : κ) (ctx : RsaCtx) (d : List Byte) (r : ρ) : Option S :=
  match ctx.padMode with
  | .pss =>
    let n := opensslSaltlen L k ctx.md ctx.pssSaltlen
    if d.length = L.digestLen ctx.md ∧ n ≤ L.maxSalt k ctx.md then
      some (L.pssSign k ctx.md ctx.mgf1Md n d r)
    else none
  | _ => L.signOther k ctx d r

/-- `EVP_PKEY_verify`, and the end of `EVP_DigestVerify`. To verify, -2 leaves the length of the
salt open. -/
def evpPkeyVerify (k : κ) (ctx : RsaCtx) (d : List Byte) (sig : S) : Option Bool :=
  match ctx.padMode with
  | .pss =>
    let len :=
      if ctx.pssSaltlen = -2 then none else some (opensslSaltlen L k ctx.md ctx.pssSaltlen)
    some (decide (d.length = L.digestLen ctx.md) && L.pssVerify k ctx.md ctx.mgf1Md len d sig)
  | _ => L.verifyOther k ctx d sig

/-- From the padding on, the functions that sign do the same, on a digest. -/
def signWith (k : κ) (md : DigestAlgorithm) (d : List Byte) (padding : Option RsaPadding) (r : ρ) :
    Except PkeyError S :=
  match applyRsaPadding L k { md := md, mgf1Md := md } padding with
  | none => .error .signFailed
  | some ctx =>
    if L.signSize k = false then .error .signFailed
    else
      match evpPkeySign L k ctx d r with
      | none => .error .signFailed
      | some sig => .ok sig

def signDigest (k : κ) (hash : DigestAlgorithm) (digest : List Byte) (padding : Option RsaPadding)
    (r : ρ) : Except PkeyError S :=
  if L.init k = false then .error .signFailed
  else if L.available hash = false then .error .unsupportedType
  else if L.acceptsMd k hash = false then .error .signFailed
  else signWith L k hash digest padding r

/-- Without a hash, an RSA key uses SHA-256. -/
def signMessage (k : κ) (hash : Option DigestAlgorithm) (message : List Byte)
    (padding : Option RsaPadding) (r : ρ) : Except PkeyError S :=
  if hash.any (fun h => !L.available h) then .error .unsupportedType
  else
    let md := hash.getD .sha256
    if L.init k = false ∨ L.acceptsMd k md = false then .error .signFailed
    else signWith L k md (L.digest md message) padding r

/-- From the padding on, the functions that verify do the same, too. -/
def verifyWith (k : κ) (md : DigestAlgorithm) (d : List Byte) (padding : Option RsaPadding)
    (signature : S) : Except PkeyError Bool :=
  match applyRsaPadding L k { md := md, mgf1Md := md } padding with
  | none => .error .verifyFailed
  | some ctx =>
    match evpPkeyVerify L k ctx d signature with
    | none => .error .verifyFailed
    | some rc => .ok rc

def verifyDigest (k : κ) (hash : DigestAlgorithm) (digest : List Byte) (signature : S)
    (padding : Option RsaPadding) : Except PkeyError Bool :=
  if L.init k = false then .error .verifyFailed
  else if L.available hash = false then .error .unsupportedType
  else if L.acceptsMd k hash = false then .error .verifyFailed
  else verifyWith L k hash digest padding signature

def verifyMessage (k : κ) (hash : Option DigestAlgorithm) (message : List Byte) (signature : S)
    (padding : Option RsaPadding) : Except PkeyError Bool :=
  if hash.any (fun h => !L.available h) then .error .unsupportedType
  else
    let md := hash.getD .sha256
    if L.init k = false ∨ L.acceptsMd k md = false then .error .verifyFailed
    else verifyWith L k md (L.digest md message) padding signature

/-- What is signed: a digest with its hash, or a message with the hash to use. -/
inductive Subject
  | digest (hash : DigestAlgorithm) (d : List Byte)
  | message (hash : Option DigestAlgorithm) (m : List Byte)
  deriving DecidableEq, Repr

/-- The hash argument. -/
def Subject.hash : Subject → DigestAlgorithm
  | digest h _ => h
  | message h _ => h.getD .sha256

/-- The digest that is signed. -/
def Subject.digestOf : Subject → List Byte
  | digest _ d => d
  | message h m => L.digest (h.getD .sha256) m

def sign (k : κ) (padding : Option RsaPadding) (r : ρ) : Subject → Except PkeyError S
  | .digest h d => signDigest L k h d padding r
  | .message h m => signMessage L k h m padding r

def verify (k : κ) (padding : Option RsaPadding) (signature : S) : Subject → Except PkeyError Bool
  | .digest h d => verifyDigest L k h d signature padding
  | .message h m => verifyMessage L k h m signature padding

/-! ## The calls with a padding for PSS -/

/-- The setters accept what is set for the padding; its hash is not. -/
def TakesPadding (k : κ) (p : PssParams) : Prop :=
  L.acceptsPadMode k .pss = true ∧ L.available p.mgf1Hash = true ∧
    L.acceptsMgf1Md k p.mgf1Hash = true ∧ -3 ≤ p.saltLen

/-- A context is made that takes the hash argument and the padding. -/
structure TakesPss (k : κ) (h : DigestAlgorithm) (p : PssParams) : Prop where
  init : L.init k = true
  available : L.available h = true
  acceptsMd : L.acceptsMd k h = true
  padding : TakesPadding L k p

/-- libcrypto signs: the settings are taken, and the digest and the salt fit. -/
structure CanSign (k : κ) (x : Subject) (p : PssParams) : Prop where
  takes : TakesPss L k x.hash p
  signSize : L.signSize k = true
  length : (x.digestOf L).length = L.digestLen x.hash
  salt : opensslSaltlen L k x.hash p.saltLen ≤ L.maxSalt k x.hash

end

variable {κ ρ S : Type} {L : RsaLib κ ρ S} {k : κ} {p q : PssParams}

theorem applyRsaPadding_pss (ctx : RsaCtx) :
    (TakesPadding L k p →
      applyRsaPadding L k ctx (some (.pkcs1Pss p)) =
        some { ctx with padMode := .pss, mgf1Md := p.mgf1Hash, pssSaltlen := p.saltLen }) ∧
      (¬TakesPadding L k p → applyRsaPadding L k ctx (some (.pkcs1Pss p)) = none) := by
  simp only [TakesPadding, applyRsaPadding, RsaCtx.set, RsaCtx.setPssSaltlen]
  constructor
  · rintro ⟨hpad, havailable, hmgf, hsalt⟩
    simp [hpad, havailable, hmgf, hsalt]
  · intro hrefused
    split_ifs with hpad havailable hmgf hsalt
    · exact absurd ⟨hpad, havailable, hmgf, by simpa using hsalt⟩ hrefused
    all_goals simp_all

theorem signWith_pss_eq_ok {md : DigestAlgorithm} {d : List Byte} {r : ρ} {sig : S} :
    signWith L k md d (some (.pkcs1Pss p)) r = .ok sig ↔
      TakesPadding L k p ∧ L.signSize k = true ∧
        (d.length = L.digestLen md ∧ opensslSaltlen L k md p.saltLen ≤ L.maxSalt k md) ∧
        L.pssSign k md p.mgf1Hash (opensslSaltlen L k md p.saltLen) d r = sig := by
  rw [signWith]
  by_cases htakes : TakesPadding L k p
  · rw [(applyRsaPadding_pss _).1 htakes]
    dsimp only
    rw [ite_error_eq_ok, Bool.not_eq_false, evpPkeySign]
    dsimp only
    by_cases hfits : d.length = L.digestLen md ∧ opensslSaltlen L k md p.saltLen ≤ L.maxSalt k md
    · simp [htakes, hfits]
    · simp [hfits]
  · rw [(applyRsaPadding_pss _).2 htakes]
    simp [htakes]

theorem verifyWith_pss_eq_ok {md : DigestAlgorithm} {d : List Byte} {sig : S} {b : Bool} :
    verifyWith L k md d (some (.pkcs1Pss q)) sig = .ok b ↔
      TakesPadding L k q ∧
        (decide (d.length = L.digestLen md) &&
          L.pssVerify k md q.mgf1Hash
            (if q.saltLen = -2 then none else some (opensslSaltlen L k md q.saltLen)) d sig) =
          b := by
  rw [verifyWith]
  by_cases htakes : TakesPadding L k q
  · rw [(applyRsaPadding_pss _).1 htakes]
    simp [htakes, evpPkeyVerify]
  · rw [(applyRsaPadding_pss _).2 htakes]
    simp [htakes]

/-- The checks before the padding, for a digest. -/
theorem digestChecks_eq_ok {α : Type} {h : DigestAlgorithm} {e₁ e₂ e₃ : PkeyError}
    {m : Except PkeyError α} {a : α} :
    (if L.init k = false then .error e₁
      else if L.available h = false then .error e₂
      else if L.acceptsMd k h = false then .error e₃ else m) = .ok a ↔
      (L.init k = true ∧ L.available h = true ∧ L.acceptsMd k h = true) ∧ m = .ok a := by
  simp [ite_error_eq_ok, and_assoc]

theorem any_not_available (hL : L.Ideal) (h : Option DigestAlgorithm) :
    h.any (fun h => !L.available h) = true ↔ L.available (h.getD .sha256) = false := by
  cases h with
  | none => simp [hL.available_sha256]
  | some h => simp

/-- The checks before the padding, for a message, where they come in another order. -/
theorem messageChecks_eq_ok (hL : L.Ideal) {α : Type} {h : Option DigestAlgorithm}
    {e₁ e₂ : PkeyError} {m : Except PkeyError α} {a : α} :
    (if h.any (fun h => !L.available h) then .error e₁
      else if L.init k = false ∨ L.acceptsMd k (h.getD .sha256) = false then .error e₂ else m) =
        .ok a ↔
      (L.init k = true ∧ L.available (h.getD .sha256) = true ∧
        L.acceptsMd k (h.getD .sha256) = true) ∧ m = .ok a := by
  simp only [ite_error_eq_ok, any_not_available hL, not_or, Bool.not_eq_false]
  tauto

/-- What it takes to sign with a padding for PSS, and what is signed. -/
theorem sign_pss_eq_ok (hL : L.Ideal) {x : Subject} {r : ρ} {sig : S} :
    sign L k (some (.pkcs1Pss p)) r x = .ok sig ↔
      CanSign L k x p ∧
        L.pssSign k x.hash p.mgf1Hash (opensslSaltlen L k x.hash p.saltLen) (x.digestOf L) r =
          sig := by
  have hsign : sign L k (some (.pkcs1Pss p)) r x = .ok sig ↔
      (L.init k = true ∧ L.available x.hash = true ∧ L.acceptsMd k x.hash = true) ∧
        signWith L k x.hash (x.digestOf L) (some (.pkcs1Pss p)) r = .ok sig := by
    rcases x with ⟨h, d⟩ | ⟨h, m⟩
    · exact digestChecks_eq_ok
    · exact messageChecks_eq_ok hL
  rw [hsign, signWith_pss_eq_ok]
  constructor
  · rintro ⟨⟨hinit, havailable, hmd⟩, htakes, hsize, ⟨hlen, hsalt⟩, hsig⟩
    exact ⟨⟨⟨hinit, havailable, hmd, htakes⟩, hsize, hlen, hsalt⟩, hsig⟩
  · rintro ⟨⟨⟨hinit, havailable, hmd, htakes⟩, hsize, hlen, hsalt⟩, hsig⟩
    exact ⟨⟨hinit, havailable, hmd⟩, htakes, hsize, ⟨hlen, hsalt⟩, hsig⟩

/-- What it takes to verify with a padding for PSS, and the answer. -/
theorem verify_pss_eq_ok (hL : L.Ideal) {y : Subject} {sig : S} {b : Bool} :
    verify L k (some (.pkcs1Pss q)) sig y = .ok b ↔
      TakesPss L k y.hash q ∧
        (decide ((y.digestOf L).length = L.digestLen y.hash) &&
          L.pssVerify k y.hash q.mgf1Hash
            (if q.saltLen = -2 then none else some (opensslSaltlen L k y.hash q.saltLen))
            (y.digestOf L) sig) = b := by
  have hverify : verify L k (some (.pkcs1Pss q)) sig y = .ok b ↔
      (L.init k = true ∧ L.available y.hash = true ∧ L.acceptsMd k y.hash = true) ∧
        verifyWith L k y.hash (y.digestOf L) (some (.pkcs1Pss q)) sig = .ok b := by
    rcases y with ⟨h, d⟩ | ⟨h, m⟩
    · exact digestChecks_eq_ok
    · exact messageChecks_eq_ok hL
  rw [hverify, verifyWith_pss_eq_ok]
  constructor
  · rintro ⟨⟨hinit, havailable, hmd⟩, htakes, hb⟩
    exact ⟨⟨hinit, havailable, hmd, htakes⟩, hb⟩
  · rintro ⟨⟨hinit, havailable, hmd, htakes⟩, hb⟩
    exact ⟨⟨hinit, havailable, hmd⟩, htakes, hb⟩

/-! ## The contract -/

section

variable (L)

/-- The length of the salt that a value of the interface denotes, for a key. -/
def denotedSaltLen (k : κ) (h : DigestAlgorithm) (saltLen : ℤ) : Option ℕ :=
  if 0 ≤ saltLen then some saltLen.toNat
  else if saltLen = -1 then some (L.digestLen h)
  else if saltLen = -2 then some (L.maxSalt k h)
  else none

/-- The paddings denote the same hashes and the same length of the salt. -/
def SameParams (k : κ) (p q : PssParams) : Prop :=
  p.hash = q.hash ∧ p.mgf1Hash = q.mgf1Hash ∧
    ∃ n, denotedSaltLen L k p.hash p.saltLen = some n ∧
      denotedSaltLen L k q.hash q.saltLen = some n

/-- For one digest with its hash, signed as `x` and verified as `y`: a padding with another hash is
an error, and a signature is accepted exactly with parameters that are those it was made with. -/
def PssContract (k : κ) (p q : PssParams) (x y : Subject) : Prop :=
  (p.hash ≠ x.hash → ∀ r, ∃ e, sign L k (some (.pkcs1Pss p)) r x = .error e) ∧
    (q.hash ≠ y.hash → ∀ sig, ∃ e, verify L k (some (.pkcs1Pss q)) sig y = .error e) ∧
    ∀ r sig, sign L k (some (.pkcs1Pss p)) r x = .ok sig →
      (verify L k (some (.pkcs1Pss q)) sig y = .ok true ↔ SameParams L k p q)

/-- The hash of a padding is the hash argument, wherever libcrypto goes on with it. To verify, -2 is
given only if the signature was made with the maximum, and -3, which the interface does not know,
not at all where it would be accepted. -/
structure Unambiguous (k : κ) (p q : PssParams) (x : Subject) : Prop where
  hash_sign : CanSign L k x p → p.hash = x.hash
  hash_verify : TakesPss L k x.hash q → q.hash = x.hash
  saltLen : CanSign L k x p → TakesPss L k x.hash q → p.mgf1Hash = q.mgf1Hash →
    (q.saltLen = -2 → opensslSaltlen L k x.hash p.saltLen = L.maxSalt k x.hash) ∧
      (opensslSaltlen L k x.hash p.saltLen = opensslSaltlen L k x.hash q.saltLen →
        -2 ≤ p.saltLen ∧ -2 ≤ q.saltLen)

end

/-- What the interface defines, libcrypto takes for the same. -/
theorem denotedSaltLen_eq_some (h : DigestAlgorithm) (saltLen : ℤ) (n : ℕ) :
    denotedSaltLen L k h saltLen = some n ↔ -2 ≤ saltLen ∧ opensslSaltlen L k h saltLen = n := by
  rw [denotedSaltLen, opensslSaltlen]
  split_ifs with h0 h1 h2
  · simp only [Option.some.injEq]
    omega
  · simp only [Option.some.injEq]
    omega
  · simp only [Option.some.injEq]
    omega
  · simp only [false_iff, not_and]
    omega

theorem sameParams_iff {h : DigestAlgorithm} (hp : p.hash = h) (hq : q.hash = h) :
    SameParams L k p q ↔ p.mgf1Hash = q.mgf1Hash ∧ (-2 ≤ p.saltLen ∧ -2 ≤ q.saltLen) ∧
      opensslSaltlen L k h p.saltLen = opensslSaltlen L k h q.saltLen := by
  subst hp
  simp only [SameParams, hq, denotedSaltLen_eq_some, true_and]
  refine and_congr_right fun _ => ?_
  constructor
  · rintro ⟨n, ⟨hp, hpn⟩, hq, hqn⟩
    exact ⟨⟨hp, hq⟩, hpn.trans hqn.symm⟩
  · rintro ⟨⟨hp, hq⟩, heq⟩
    exact ⟨_, ⟨hp, rfl⟩, hq, heq.symm⟩

/-- A signature is accepted if the second padding is taken, with the same mask generation and a
salt that is of the length it was made with, or left open. -/
theorem verify_sign_pss (hL : L.Ideal) {x y : Subject} (hhash : y.hash = x.hash)
    (hdigest : y.digestOf L = x.digestOf L) {r : ρ} {sig : S}
    (hsig : sign L k (some (.pkcs1Pss p)) r x = .ok sig) :
    verify L k (some (.pkcs1Pss q)) sig y = .ok true ↔
      TakesPss L k x.hash q ∧ p.mgf1Hash = q.mgf1Hash ∧
        (q.saltLen = -2 ∨
          opensslSaltlen L k x.hash p.saltLen = opensslSaltlen L k x.hash q.saltLen) := by
  obtain ⟨hsigns, rfl⟩ := (sign_pss_eq_ok hL).mp hsig
  rw [verify_pss_eq_ok hL, hhash, hdigest, decide_eq_true hsigns.length, Bool.true_and,
    hL.pssVerify_pssSign]
  refine and_congr_right fun _ => ?_
  -- to verify, -2 does not fix the length of the salt
  by_cases hopen : q.saltLen = -2
  · simp [hopen, eq_comm]
  · simp [hopen, eq_comm]

theorem opensslSaltlen_open (h : DigestAlgorithm) : opensslSaltlen L k h (-2) = L.maxSalt k h := rfl

/-- What the contract says about hashes and salts. -/
theorem PssContract.unambiguous (hL : L.Ideal) [Nonempty ρ] {x y : Subject}
    (hhash : y.hash = x.hash) (hdigest : y.digestOf L = x.digestOf L)
    (h : PssContract L k p q x y) : Unambiguous L k p q x := by
  obtain ⟨r₀⟩ := ‹Nonempty ρ›
  obtain ⟨hp, hq, haccept⟩ := h
  -- whatever libcrypto does with a padding of another hash, it is no error
  have hash_sign : CanSign L k x p → p.hash = x.hash := by
    intro hsigns
    by_contra hne
    obtain ⟨e, he⟩ := hp hne r₀
    have hok := (sign_pss_eq_ok (r := r₀) hL).mpr ⟨hsigns, rfl⟩
    rw [he] at hok
    cases hok
  have hash_verify : TakesPss L k x.hash q → q.hash = x.hash := by
    intro htakes
    by_contra hne
    rw [← hhash] at htakes hne
    obtain ⟨sig₀⟩ : Nonempty S := ⟨L.pssSign k x.hash x.hash 0 [] r₀⟩
    obtain ⟨e, he⟩ := hq hne sig₀
    have hok : verify L k (some (.pkcs1Pss q)) sig₀ y = .ok _ :=
      (verify_pss_eq_ok hL).mpr ⟨htakes, rfl⟩
    rw [he] at hok
    cases hok
  refine ⟨hash_sign, hash_verify, fun hsigns htakes hmgf => ?_⟩
  -- a signature is made, and what it is accepted for is compared with the contract
  have hsig := (sign_pss_eq_ok (r := r₀) hL).mpr ⟨hsigns, rfl⟩
  have hiff := haccept r₀ _ hsig
  rw [verify_sign_pss hL hhash hdigest hsig,
    sameParams_iff (hash_sign hsigns) (hash_verify htakes)] at hiff
  constructor
  · intro hopen
    obtain ⟨-, -, heq⟩ := hiff.mp ⟨htakes, hmgf, Or.inl hopen⟩
    rw [heq, hopen, opensslSaltlen_open]
  · intro heq
    exact (hiff.mp ⟨htakes, hmgf, Or.inr heq⟩).2.1

/-- Without ambiguities, what libcrypto makes of the paddings is what they say. -/
theorem Unambiguous.pssContract (hL : L.Ideal) {x y : Subject} (hhash : y.hash = x.hash)
    (hdigest : y.digestOf L = x.digestOf L) (hU : Unambiguous L k p q x) :
    PssContract L k p q x y := by
  refine ⟨fun hne r => ?_, fun hne sig => ?_, fun r sig hsig => ?_⟩
  · -- a signature that is made shows that the hashes are the same
    cases hsign : sign L k (some (.pkcs1Pss p)) r x with
    | error e => exact ⟨e, rfl⟩
    | ok sig => exact absurd (hU.hash_sign ((sign_pss_eq_ok hL).mp hsign).1) hne
  · cases hverify : verify L k (some (.pkcs1Pss q)) sig y with
    | error e => exact ⟨e, rfl⟩
    | ok b =>
      have htakes := ((verify_pss_eq_ok hL).mp hverify).1
      rw [hhash] at htakes hne
      exact absurd (hU.hash_verify htakes) hne
  · have hsigns := ((sign_pss_eq_ok hL).mp hsig).1
    have hp := hU.hash_sign hsigns
    rw [verify_sign_pss hL hhash hdigest hsig]
    constructor
    · rintro ⟨htakes, hmgf, hlen⟩
      obtain ⟨hopen, hknown⟩ := hU.saltLen hsigns htakes hmgf
      have heq : opensslSaltlen L k x.hash p.saltLen = opensslSaltlen L k x.hash q.saltLen := by
        rcases hlen with hq | heq
        · rw [hopen hq, hq, opensslSaltlen_open]
        · exact heq
      exact (sameParams_iff hp (hU.hash_verify htakes)).mpr ⟨hmgf, hknown heq, heq⟩
    · -- with the same parameters, what was taken to sign is taken to verify
      intro hsame
      have hq : q.hash = x.hash := hsame.1.symm.trans hp
      obtain ⟨hmgf, ⟨-, hsalt⟩, heq⟩ := (sameParams_iff hp hq).mp hsame
      obtain ⟨hinit, havailable, hmd, hpad, hmgfAvailable, hmgfAccepted, -⟩ := hsigns.takes
      rw [hmgf] at hmgfAvailable hmgfAccepted
      exact ⟨⟨hinit, havailable, hmd, hpad, hmgfAvailable, hmgfAccepted, by omega⟩, hmgf,
        Or.inr heq⟩

/-- A key of 2048 bits, and digests of 32 bytes; a signature is what it was made for. -/
def referenceRsa : RsaLib Unit Unit (DigestAlgorithm × DigestAlgorithm × ℕ × List Byte) where
  available _ := true
  init _ := true
  acceptsMd _ _ := true
  acceptsPadMode _ _ := true
  acceptsMgf1Md _ _ := true
  acceptsOaepMd _ _ := true
  acceptsOaepLabel _ _ := true
  signSize _ := true
  digest _ _ := List.replicate 32 0
  digestLen _ := 32
  maxSalt _ _ := 222
  pssSign _ md mgf n d _ := (md, mgf, n, d)
  pssVerify _ md mgf len d sig :=
    md = sig.1 ∧ mgf = sig.2.1 ∧ d = sig.2.2.2 ∧ ∀ m ∈ len, m = sig.2.2.1
  signOther _ _ _ _ := none
  verifyOther _ _ _ _ := none
  peekLastError := 0

theorem referenceRsa_ideal : referenceRsa.Ideal where
  available_sha256 := rfl
  pssVerify_pssSign k md md' mgf mgf' n len d d' r := by
    simp [referenceRsa]

end OpenSSLWasm.Pkey
